import ProxboxApi.GetCache
import ProxboxApi.Runs

/-! List traversals and mutations of one API object that share the GET cache.  The server
numbers the states of each list path; a page is named by the state it was read from. -/

namespace ProxboxApi.CacheCoherence

open GetCache

/-- The answer to the page request number `index` of a list read, at a server state. -/
structure Page where
  path : String
  query : String
  index : ℕ
  version : ℕ
  deriving DecidableEq, Repr

/-- `_rest_list_traverse_async` between two page requests. -/
structure Traversal where
  path : String
  query : String
  pages : List Page
  running : Bool
  deriving DecidableEq, Repr

/-- A create, patch or delete request: `applied` is the state its list path was in after
the server last applied it. -/
structure Mutation where
  listPath : String
  applied : Option ℕ
  running : Bool
  deriving DecidableEq, Repr

/-- A successful response: record bodies with their `url` path and `id`, or no body, where
the detail paths to drop come from the request. -/
inductive Response where
  | records (items : List (Option String × Option String))
  | paths (details : List String)
  deriving DecidableEq, Repr

/-- A list read answered from the cache, and the last mutation of its path that had
completed when it started. -/
structure Served where
  pages : List Page
  completed : ℕ
  deriving DecidableEq, Repr

structure World where
  now : ℕ
  cache : Cache Page
  version : String → ℕ
  completed : String → ℕ
  traversals : List Traversal
  mutations : List Mutation
  served : List Served

def World.initial (now : ℕ) : World :=
  { now, cache := [], version := fun _ => 0, completed := fun _ => 0, traversals := [],
    mutations := [], served := [] }

/-- The invalidations that follow a successful response. -/
def invalidateAfter (api : ℕ) (listPath : String) : Response → Cache Page → Cache Page
  | .records items, s =>
    items.foldl (fun s item => invalidateForRecord api listPath item.1 item.2 s) s
  | .paths details, s =>
    details.foldl (fun s path => invalidateForPath api path s) (invalidateForPath api listPath s)

/-- A response without record bodies invalidates nothing. -/
def Response.invalidating : Response → Bool
  | .records items => !items.isEmpty
  | .paths _ => true

inductive Label where
  | read (path query : String)
  | fetch (i : ℕ)
  | finish (i : ℕ)
  | fail (i : ℕ)
  | send (path : String)
  | apply (i : ℕ)
  | complete (i : ℕ) (r : Response)
  | tick (d : ℕ)
  deriving DecidableEq, Repr

variable (cfg : Config Page) (api : ℕ)

def step (w : World) : Label → Option World
  | .read path query =>
    let p := normalizePath path
    match read cfg w.now ⟨api, p, query⟩ w.cache with
    | (some pages, cache) => some
        { w with cache, served := w.served ++ [⟨pages, w.completed p⟩] }
    | (none, cache) => some
        { w with cache, traversals := w.traversals ++ [⟨p, query, [], true⟩] }
  | .fetch i => match w.traversals[i]? with
    | some ⟨path, query, pages, true⟩ =>
      let page : Page := ⟨path, query, pages.length, w.version path⟩
      some { w with traversals := w.traversals.set i ⟨path, query, pages ++ [page], true⟩ }
    | _ => none
  | .finish i => match w.traversals[i]? with
    | some ⟨path, query, pages, true⟩ => some
        { w with
          cache := write cfg w.now ⟨api, path, query⟩ pages w.cache
          traversals := w.traversals.set i ⟨path, query, pages, false⟩ }
    | _ => none
  | .fail i => match w.traversals[i]? with
    | some ⟨path, query, pages, true⟩ => some
        { w with traversals := w.traversals.set i ⟨path, query, pages, false⟩ }
    | _ => none
  | .send path => some
      { w with mutations := w.mutations ++ [⟨normalizePath path, none, true⟩] }
  | .apply i => match w.mutations[i]? with
    | some ⟨listPath, _, true⟩ =>
      let v := w.version listPath + 1
      some { w with
        version := Function.update w.version listPath v
        mutations := w.mutations.set i ⟨listPath, some v, true⟩ }
    | _ => none
  | .complete i r => match w.mutations[i]? with
    | some ⟨listPath, some v, true⟩ => some
        { w with
          cache := invalidateAfter api listPath r w.cache
          completed := if r.invalidating then
            Function.update w.completed listPath (max (w.completed listPath) v) else w.completed
          mutations := w.mutations.set i ⟨listPath, some v, false⟩ }
    | _ => none
  | .tick d => some { w with now := w.now + d }

/-- No served page is older than the last mutation completed before the read. -/
def Coherent (w : World) : Prop :=
  ∀ r ∈ w.served, ∀ page ∈ r.pages, r.completed ≤ page.version

/-- A traversal that ends has read all its pages after the mutations of its path that have
completed by then. -/
def FreshInstall (w : World) : Label → Prop
  | .finish i => ∀ t ∈ w.traversals[i]?, ∀ page ∈ t.pages, w.completed t.path ≤ page.version
  | _ => True

instance (w : World) (l : Label) : Decidable (FreshInstall w l) := by
  unfold FreshInstall
  split <;> infer_instance

/-- The invariant of runs whose installs are fresh. -/
structure Fresh (w : World) : Prop where
  api : ∀ kv ∈ w.cache, kv.1.api = api
  cache : ∀ kv ∈ w.cache, ∀ page ∈ kv.2.records, w.completed kv.1.path ≤ page.version
  served : Coherent w
  normalized : ∀ m ∈ w.mutations, normalizePath m.listPath = m.listPath

theorem fresh_initial (now : ℕ) : Fresh api (World.initial now) := by
  constructor <;> simp [World.initial, Coherent]

theorem mem_invalidateAfter {listPath : String} {r : Response} {s : Cache Page}
    {kv : CacheKey × Entry Page} (h : kv ∈ invalidateAfter api listPath r s) :
    kv ∈ s ∧ (r.invalidating = true →
      ¬ (kv.1.api = api ∧ kv.1.path = normalizePath listPath)) := by
  cases r with
  | records items =>
    -- one invalidation of the list path is enough, the later ones only drop more
    induction items generalizing s with
    | nil => exact ⟨h, by simp [Response.invalidating]⟩
    | cons item items ih =>
      have hrest := (ih h).1
      obtain ⟨hmem, hgone⟩ := mem_invalidateForRecord hrest
      exact ⟨hmem, fun _ => hgone⟩
  | paths details =>
    have hdrop : ∀ (ds : List String) (s : Cache Page),
        kv ∈ ds.foldl (fun s path => invalidateForPath api path s) s → kv ∈ s := by
      intro ds
      induction ds with
      | nil => exact fun s hs => hs
      | cons path ds ih => exact fun s hs => (mem_invalidateForPath (ih _ hs)).1
    obtain ⟨hmem, hgone⟩ := mem_invalidateForPath (hdrop details _ h)
    exact ⟨hmem, fun _ => hgone⟩

theorem Fresh.dropped {w : World} (hw : Fresh api w) {cache : Cache Page}
    (hsub : cache ⊆ w.cache) : Fresh api { w with cache } :=
  ⟨fun kv h => hw.api kv (hsub h), fun kv h => hw.cache kv (hsub h), hw.served, hw.normalized⟩

theorem Fresh.read {w : World} (hw : Fresh api w) {p query : String} {pages : List Page}
    (hhit : (GetCache.read cfg w.now ⟨api, p, query⟩ w.cache).1 = some pages) :
    Coherent { w with served := w.served ++ [⟨pages, w.completed p⟩] } := by
  obtain ⟨e, hmem, rfl⟩ := mem_of_read cfg hhit
  intro r hr page hpage
  rcases List.mem_append.mp hr with hr | hr
  · exact hw.served r hr page hpage
  · have hr' : r = ⟨e.records, w.completed p⟩ := by simpa using hr
    subst hr'
    exact hw.cache _ hmem page hpage

theorem Fresh.install {w : World} (hw : Fresh api w) {path : String} (query : String)
    {pages : List Page}
    (hfresh : ∀ page ∈ pages, w.completed path ≤ page.version) :
    Fresh api { w with cache := write cfg w.now ⟨api, path, query⟩ pages w.cache } := by
  refine ⟨?_, ?_, hw.served, hw.normalized⟩
  · intro kv hkv
    rcases mem_write cfg hkv with hkv | rfl
    · exact hw.api kv hkv
    · rfl
  · intro kv hkv
    rcases mem_write cfg hkv with hkv | rfl
    · exact hw.cache kv hkv
    · exact hfresh

/-- The entries of a mutated path are gone by the time the mutation counts as completed. -/
theorem Fresh.complete {w : World} (hw : Fresh api w) {listPath : String} {v : ℕ}
    {r : Response} (hnorm : normalizePath listPath = listPath) :
    Fresh api { w with
      cache := invalidateAfter api listPath r w.cache
      completed := if r.invalidating then
        Function.update w.completed listPath (max (w.completed listPath) v) else w.completed } := by
  refine ⟨?_, ?_, hw.served, hw.normalized⟩
  · intro kv hkv
    exact hw.api kv (mem_invalidateAfter api hkv).1
  · intro kv hkv page hpage
    obtain ⟨hmem, hgone⟩ := mem_invalidateAfter api hkv
    have hold := hw.cache kv hmem page hpage
    by_cases hinv : r.invalidating = true
    · have hne : kv.1.path ≠ listPath := by
        intro he
        exact hgone hinv ⟨hw.api kv hmem, he.trans hnorm.symm⟩
      simpa [hinv, Function.update_of_ne hne] using hold
    · simpa [hinv] using hold

theorem fresh_step {w w' : World} {l : Label} (hw : Fresh api w) (hfresh : FreshInstall w l)
    (hstep : step cfg api w l = some w') : Fresh api w' := by
  cases l with
  | read path query =>
    have hdrop := hw.dropped api
      (read_subset cfg w.now ⟨api, normalizePath path, query⟩ w.cache)
    simp only [step] at hstep
    split at hstep <;> rename_i pages cache hread <;> cases hstep <;>
      simp only [hread] at hdrop
    · have hserved := hw.read cfg api (congrArg Prod.fst hread)
      exact ⟨hdrop.api, hdrop.cache, hserved, hdrop.normalized⟩
    · exact ⟨hdrop.api, hdrop.cache, hdrop.served, hdrop.normalized⟩
  | fetch i =>
    simp only [step] at hstep
    split at hstep <;> cases hstep
    exact ⟨hw.api, hw.cache, hw.served, hw.normalized⟩
  | finish i =>
    simp only [step] at hstep
    split at hstep
    case h_2 => contradiction
    case h_1 path query pages hi =>
      cases hstep
      have hpages : ∀ page ∈ pages, w.completed path ≤ page.version := by
        simpa only [FreshInstall, hi, Option.mem_some_iff, forall_eq'] using hfresh
      have hinstalled := hw.install cfg api query hpages
      exact ⟨hinstalled.api, hinstalled.cache, hinstalled.served, hinstalled.normalized⟩
  | fail i =>
    simp only [step] at hstep
    split at hstep <;> cases hstep
    exact ⟨hw.api, hw.cache, hw.served, hw.normalized⟩
  | send path =>
    cases hstep
    refine ⟨hw.api, hw.cache, hw.served, ?_⟩
    intro m hm
    rcases List.mem_append.mp hm with hm | hm
    · exact hw.normalized m hm
    · have hm' : m = ⟨normalizePath path, none, true⟩ := by simpa using hm
      subst hm'
      exact normalizePath_idem path
  | apply i =>
    simp only [step] at hstep
    split at hstep
    case h_2 => contradiction
    case h_1 listPath v hi =>
      cases hstep
      refine ⟨hw.api, hw.cache, hw.served, ?_⟩
      intro m hm
      rcases List.mem_or_eq_of_mem_set hm with hm | rfl
      · exact hw.normalized m hm
      · exact hw.normalized ⟨listPath, v, true⟩ (List.mem_of_getElem? hi)
  | complete i r =>
    simp only [step] at hstep
    split at hstep
    case h_2 => contradiction
    case h_1 listPath v hi =>
      cases hstep
      have hnorm := hw.normalized _ (List.mem_of_getElem? hi)
      have hdone := hw.complete api (v := v) (r := r) hnorm
      refine ⟨hdone.api, hdone.cache, hdone.served, ?_⟩
      intro m hm
      rcases List.mem_or_eq_of_mem_set hm with hm | rfl
      · exact hw.normalized m hm
      · exact hnorm
  | tick d =>
    cases hstep
    exact ⟨hw.api, hw.cache, hw.served, hw.normalized⟩

/-- Along every run whose installs are fresh, the cache serves no page older than a
mutation of the list path that had completed before the read. -/
theorem coherent_of_fresh (now : ℕ) (ls : List Label) (w : World)
    (hrun : Runs.exec (step cfg api) (World.initial now) ls = some w)
    (hfresh : Runs.Guarded (step cfg api) FreshInstall (World.initial now) ls) :
    Coherent w := by
  have hw := Runs.invariant_of_guarded (Fresh api) (fun s l t hs hok => fresh_step cfg api hs hok)
    (fresh_initial api now) hfresh hrun
  exact hw.served

/-- The default settings, on pages of records of forty characters. -/
def pageConfig : Config Page := Config.defaults (fun pages => 2 + 40 * pages.length) rfl

/-- A site is created, listed, patched and listed twice. -/
def quietRun : List Label :=
  [.send "dcim/sites", .apply 0, .complete 0 (.records [(none, some "7")]),
    .read "/dcim/sites/" "", .fetch 0, .finish 0, .read "/dcim/sites/" "",
    .send "/dcim/sites/", .apply 1, .complete 1 (.paths ["/dcim/sites/7/"]),
    .read "/dcim/sites/" "", .fetch 1, .finish 1, .read "/dcim/sites/" ""]

theorem coherent_of_fresh_quietRun : ∃ w,
    Runs.exec (step pageConfig 1) (World.initial 0) quietRun = some w ∧
      w.served = [⟨[⟨"/dcim/sites/", "", 0, 1⟩], 1⟩, ⟨[⟨"/dcim/sites/", "", 0, 2⟩], 2⟩] ∧
      Coherent w := by
  have hserved : (Runs.exec (step pageConfig 1) (World.initial 0) quietRun).map (·.served) =
      some [⟨[⟨"/dcim/sites/", "", 0, 1⟩], 1⟩, ⟨[⟨"/dcim/sites/", "", 0, 2⟩], 2⟩] := by
    decide +kernel
  obtain ⟨w, hrun, hw⟩ := Option.map_eq_some_iff.mp hserved
  exact ⟨w, hrun, hw, coherent_of_fresh pageConfig 1 0 quietRun w hrun (by decide +kernel)⟩

/-- A site is created while the traversal that has already read the page is running. -/
theorem stale_page_served : ¬ ∀ (now : ℕ) (ls : List Label) (w : World),
    Runs.exec (step pageConfig 1) (World.initial now) ls = some w → Coherent w := by
  intro hall
  let schedule : List Label := [.read "/dcim/sites/" "", .fetch 0, .send "/dcim/sites/",
    .apply 0, .complete 0 (.records [(none, some "7")]), .finish 0, .read "/dcim/sites/" ""]
  have hcoherent := hall 0 schedule _ rfl
  have hle : 1 ≤ 0 := hcoherent ⟨[⟨"/dcim/sites/", "", 0, 0⟩], 1⟩ (by decide)
    ⟨"/dcim/sites/", "", 0, 0⟩ (by decide)
  exact absurd hle (by decide)

end ProxboxApi.CacheCoherence
