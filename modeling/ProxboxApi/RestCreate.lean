import ProxboxApi.GetCache
import ProxboxApi.Json

/-! `rest_create_async` and `rest_ensure_async` against a server that may apply a POST and
lose its answer.  The lookup reads, those of the retry loop among them, go through the GET
cache. -/

namespace ProxboxApi.RestCreate

open GetCache

abbrev Query := Json.Fields

/-- An exception of a POST, by what the retry and duplicate tests say of it. -/
structure Failure where
  transient : Bool
  refused : Bool
  duplicate : Bool
  deriving DecidableEq, Repr

/-- A POST is applied and answered, applied with its answer lost, or not applied. -/
inductive PostReply where
  | created
  | lost (e : Failure)
  | failed (e : Failure)
  deriving DecidableEq, Repr

def PostReply.applied : PostReply → Bool
  | .created | .lost _ => true
  | .failed _ => false

/-- A list read: the clock at its cache look-up and at its cache write, and whether the
requests between the two fail. -/
structure ListRead where
  readAt : ℕ
  writeAt : ℕ
  fails : Bool
  deriving DecidableEq, Repr

/-- What the calls work with: the settings, with the least size of the cache that its resolver
allows, the JSON text of a query, and the records the server answers a query with. -/
structure Client (ρ : Type*) where
  cfg : Config ρ
  maxBytes_min : 1024 ≤ cfg.maxBytes
  api : ℕ
  path : String
  maxRetries : ℕ
  dumps : Query → String
  selects : Query → ρ → Bool
  urlPath : ρ → Option String
  idText : ρ → Option String

/-- What the server and the network do in one call: the reads of the lookups, the POSTs and
the probes by attempt, the reads after a duplicate, and the record an attempt creates. -/
structure Env (ρ : Type*) where
  lookups : ℕ → ListRead
  posts : ℕ → PostReply
  probes : ℕ → ListRead
  rereads : ℕ → ListRead
  newRecord : ℕ → ρ

/-- The records there before the call, those it has created, and the GET cache. -/
structure State (ρ : Type*) where
  existing : List ρ
  created : List ρ
  cache : Cache ρ

variable {ρ : Type*} (c : Client ρ) (env : Env ρ)

/-- `_serialize_query`. -/
def serializeQuery (q : Query) : String := if q = [] then "" else c.dumps q

def key (q : Query) : CacheKey := ⟨c.api, normalizePath c.path, serializeQuery c q⟩

/-- `{**lookup, "limit": 2}`. -/
def withLimit (q : Query) : Query := Dict.set "limit" (.int 2) q

/-- `rest_first_async`; `none` when the read raises. -/
def restFirst (r : ListRead) (q : Query) (s : State ρ) : Option (Option ρ) × State ρ :=
  match read c.cfg r.readAt (key c q) s.cache with
  | (some records, cache) => (some records.head?, { s with cache })
  | (none, cache) =>
    if r.fails then (none, { s with cache })
    else
      let records := (s.existing ++ s.created).filter (c.selects q)
      (some records.head?, { s with cache := write c.cfg r.writeAt (key c q) records cache })

/-- `_is_already_created`, before every attempt but the first. -/
def isAlreadyCreated (lookup : Option Query) (attempt : ℕ) (s : State ρ) : Option ρ × State ρ :=
  match lookup with
  | none => (none, s)
  | some q =>
    if attempt = 0 ∨ q = [] then (none, s)
    else match restFirst c (env.probes attempt) (withLimit q) s with
      | (some existing, s) => (existing, s)
      | (none, s) => (none, s)

/-- One POST. -/
def post (attempt : ℕ) (s : State ρ) : Except Failure ρ × State ρ :=
  let r := env.newRecord attempt
  match env.posts attempt with
  | .created => (.ok r, { s with
      created := s.created ++ [r]
      cache := invalidateForRecord c.api (normalizePath c.path) (c.urlPath r) (c.idText r) s.cache })
  | .lost e => (.error e, { s with created := s.created ++ [r] })
  | .failed e => (.error e, s)

def isSafeRetry (lookup : Option Query) (e : Failure) : Bool :=
  (lookup.isSome && e.transient) || e.refused

/-- The retry loop of `rest_create_async`, with `left` attempts after this one. -/
def createLoop (lookup : Option Query) : ℕ → ℕ → State ρ → Except Failure ρ × State ρ
  | left, attempt, s =>
    match isAlreadyCreated c env lookup attempt s with
    | (some existing, s) => (.ok existing, s)
    | (none, s) => match post c env attempt s, left with
      | (.ok r, s), _ => (.ok r, s)
      | (.error e, s), 0 => (.error e, s)
      | (.error e, s), left + 1 =>
        if isSafeRetry lookup e then createLoop lookup left (attempt + 1) s else (.error e, s)

/-- `rest_create_async`. -/
def restCreate (lookup : Option Query) (s : State ρ) : Except Failure ρ × State ρ :=
  createLoop c env lookup c.maxRetries 0 s

/-- The `_add` of `_candidate_reuse_lookups`; `none` is the `TypeError` of a value that
cannot be hashed. -/
def addCandidate (candidates : List Query) (candidate : Query) : Option (List Query) :=
  let normalized := candidate.filter fun kv => !kv.2.blank
  if normalized.isEmpty then some candidates
  else if normalized.any fun kv => !kv.2.hashable then none
  else if candidates.any fun q => (Json.obj normalized).pyEq (.obj q) then some candidates
  else some (candidates ++ [normalized])

def field (name : String) (payload : Query) : Json := (Dict.get name payload).getD .null

/-- `_candidate_reuse_lookups`. -/
def candidateReuseLookups (lookup payload : Query) : Option (List Query) := do
  let candidates ← addCandidate [] lookup
  let candidates ← ["slug", "name", "model"].foldlM (fun candidates name =>
    if (field name payload).blank then some candidates
    else addCandidate candidates [(name, field name payload)]) candidates
  let candidates ← if !(field "name" payload).blank && !(field "site" payload).blank then
      addCandidate candidates [("name", field "name" payload), ("site_id", field "site" payload)]
    else some candidates
  if !(field "manufacturer" payload).blank && !(field "model" payload).blank then
    addCandidate candidates
      [("manufacturer_id", field "manufacturer" payload), ("model", field "model" payload)]
  else some candidates

/-- The first record a candidate lookup finds; `none` when a read raises. -/
def firstExisting (reads : ℕ → ListRead) : List Query → ℕ → State ρ →
    Option (Option ρ) × State ρ
  | [], _, s => (some none, s)
  | q :: qs, i, s => match restFirst c (reads i) (withLimit q) s with
    | (none, s) => (none, s)
    | (some (some r), s) => (some (some r), s)
    | (some none, s) => firstExisting reads qs (i + 1) s

/-- Why `rest_ensure_async` raises. -/
inductive EnsureError where
  | unhashable
  | read
  | post (e : Failure)
  deriving DecidableEq, Repr

/-- `rest_ensure_async`. -/
def restEnsure (lookup payload : Query) (s : State ρ) : Except EnsureError ρ × State ρ :=
  match candidateReuseLookups lookup payload with
  | none => (.error .unhashable, s)
  | some candidates => match firstExisting c env.lookups candidates 0 s with
    | (none, s) => (.error .read, s)
    | (some (some r), s) => (.ok r, s)
    | (some none, s) => match restCreate c env (some lookup) s with
      | (.ok r, s) => (.ok r, s)
      | (.error e, s) =>
        if e.duplicate then match firstExisting c env.rereads candidates 0 s with
          | (none, s) => (.error .read, s)
          | (some (some r), s) => (.ok r, s)
          | (some none, s) => (.error (.post e), s)
        else (.error (.post e), s)

/-- A lookup read, and `rest_create_async` with that lookup when it found nothing. -/
def lookupThenCreate (lookup : Query) (s : State ρ) : Except EnsureError ρ × State ρ :=
  match restFirst c (env.lookups 0) (withLimit lookup) s with
  | (none, s) => (.error .read, s)
  | (some (some r), s) => (.ok r, s)
  | (some none, s) => match restCreate c env (some lookup) s with
    | (.ok r, s) => (.ok r, s)
    | (.error e, s) => (.error (.post e), s)

/-- The records the first `n` attempts have created. -/
def landed (n : ℕ) : List ρ :=
  (List.range n).filterMap fun i => if (env.posts i).applied then some (env.newRecord i) else none

/-- Attempt `i` creates a record that the lookup selects. -/
def lands (lookup : Query) (i : ℕ) : Bool :=
  (env.posts i).applied && c.selects (withLimit lookup) (env.newRecord i)

/-- The loop goes on after attempt `i`. -/
def retries (lookup : Option Query) (i : ℕ) : Bool :=
  match env.posts i with
  | .created => false
  | .lost e | .failed e => isSafeRetry lookup e

/-- A read of the lookup by the probe before attempt `k` would find a record. -/
def visible (lookup : Query) (s : State ρ) (k : ℕ) : Bool :=
  (s.existing ++ s.created ++ landed env k).any (c.selects (withLimit lookup))

/-- The probe before attempt `k` finds nothing: it is answered with an empty list cached
before the loop, or its read fails, or there is nothing to find, or an earlier probe has
cached an empty list. -/
def Blind (lookup : Query) (s : State ρ) (k : ℕ) : Prop :=
  lookup = [] ∨
    match (read c.cfg (env.probes 1).readAt (key c (withLimit lookup)) s.cache).1 with
    | some records => records = []
    | none => (env.probes k).fails = true ∨ visible c env lookup s k = false ∨
      ∃ i, 1 ≤ i ∧ i < k ∧ (env.probes i).fails = false

/-- The loop started in `s` comes to POST number `k`. -/
def Posts (lookup : Query) (s : State ρ) (k : ℕ) : Prop :=
  k ≤ c.maxRetries ∧ (∀ i < k, retries env (some lookup) i = true) ∧
    ∀ i, 1 ≤ i → i ≤ k → Blind c env lookup s i

/-- Two POSTs of the loop started in `s` create a record that the lookup selects. -/
def LandsTwice (lookup : Query) (s : State ρ) : Prop :=
  ∃ i j, i < j ∧ Posts c env lookup s j ∧ lands c env lookup i = true ∧
    lands c env lookup j = true

/-- All clock readings of a run lie in one TTL, and nothing cached expires in it. -/
structure WithinTtl (cache : Cache ρ) (start finish : ℕ) : Prop where
  reads : ∀ f ∈ [env.lookups, env.probes, env.rereads], ∀ k,
    (start ≤ (f k).readAt ∧ (f k).readAt ≤ finish) ∧
      (start ≤ (f k).writeAt ∧ (f k).writeAt ≤ finish)
  short : finish < start + c.cfg.ttl
  cache : ∀ kv ∈ cache, kv.2.cachedAt + c.cfg.ttl ≤ start ∨ finish < kv.2.cachedAt + c.cfg.ttl

theorem WithinTtl.ttl_ne {cache : Cache ρ} {start finish : ℕ}
    (h : WithinTtl c env cache start finish) : c.cfg.ttl ≠ 0 := by
  have hr := (h.reads env.probes (by simp) 0).1
  have hs := h.short
  omega

theorem WithinTtl.of_mem {cache cache' : Cache ρ} {start finish : ℕ}
    (h : WithinTtl c env cache start finish)
    (hmem : ∀ kv ∈ cache', kv ∈ cache ∨ start ≤ kv.2.cachedAt) :
    WithinTtl c env cache' start finish := by
  refine ⟨h.reads, h.short, ?_⟩
  intro kv hkv
  rcases hmem kv hkv with hkv | hle
  · exact h.cache kv hkv
  · have hs := h.short
    right
    omega

/-- What a lookup read does, by what the cache serves. -/
theorem restFirst_eq (r : ListRead) (q : Query) (s : State ρ) :
    restFirst c r q s =
      let cache := (read c.cfg r.readAt (key c q) s.cache).2
      match (read c.cfg r.readAt (key c q) s.cache).1 with
      | some records => (some records.head?, { s with cache })
      | none =>
        if r.fails then (none, { s with cache })
        else
          let records := (s.existing ++ s.created).filter (c.selects q)
          (some records.head?,
            { s with cache := write c.cfg r.writeAt (key c q) records cache }) := by
  unfold restFirst
  rcases read c.cfg r.readAt (key c q) s.cache with ⟨records | records, cache⟩ <;> rfl

theorem restFirst_records (r : ListRead) (q : Query) (s : State ρ) :
    (restFirst c r q s).2.existing = s.existing ∧
      (restFirst c r q s).2.created = s.created := by
  rw [restFirst_eq]
  split
  · exact ⟨rfl, rfl⟩
  · split <;> exact ⟨rfl, rfl⟩

theorem restFirst_cache {r : ListRead} {q : Query} {s : State ρ} {kv : CacheKey × Entry ρ}
    (h : kv ∈ (restFirst c r q s).2.cache) : kv ∈ s.cache ∨ r.writeAt ≤ kv.2.cachedAt := by
  rw [restFirst_eq] at h
  dsimp only at h
  split at h
  · exact Or.inl (read_subset c.cfg _ _ _ h)
  · split at h
    · exact Or.inl (read_subset c.cfg _ _ _ h)
    · rcases mem_write c.cfg h with h | rfl
      · exact Or.inl (read_subset c.cfg _ _ _ h)
      · exact Or.inr (le_refl _)

/-- The key has a cached empty list that outlives the run. -/
def CachedEmpty (q : Query) (finish : ℕ) (cache : Cache ρ) : Prop :=
  ∃ e, Dict.get (key c q) cache = some e ∧ e.records = [] ∧ Bounded c.cfg cache ∧
    finish < e.cachedAt + c.cfg.ttl

/-- A cached empty list answers every later read of its key. -/
theorem restFirst_cachedEmpty {r : ListRead} {q : Query} {s : State ρ} {finish : ℕ}
    (httl : c.cfg.ttl ≠ 0) (hread : r.readAt ≤ finish) (h : CachedEmpty c q finish s.cache) :
    (restFirst c r q s).1 = some none ∧ CachedEmpty c q finish (restFirst c r q s).2.cache := by
  obtain ⟨e, hget, hnil, hbound, hlive⟩ := h
  have hfresh : expired c.cfg r.readAt e = false := by
    simp only [expired, decide_eq_false_iff_not]
    omega
  obtain ⟨hserved, hget', hbound'⟩ := read_live c.cfg httl hbound hget hfresh
  rw [restFirst_eq, hserved, hnil]
  exact ⟨rfl, e, hget', hnil, hbound', hlive⟩

/-- A read that is not served from the cache either fails, or finds a record, or caches an
empty list. -/
theorem restFirst_miss {r : ListRead} {q : Query} {s : State ρ} {start finish : ℕ}
    (httl : c.cfg.ttl ≠ 0) (hshort : finish < start + c.cfg.ttl) (hwrite : start ≤ r.writeAt)
    (hmiss : (read c.cfg r.readAt (key c q) s.cache).1 = none) :
    (r.fails = true ∧ (restFirst c r q s).1 = none ∧
      Dict.get (key c q) (restFirst c r q s).2.cache = none) ∨
    (r.fails = false ∧ (s.existing ++ s.created).any (c.selects q) = true ∧
      ∃ x, (restFirst c r q s).1 = some (some x)) ∨
    (r.fails = false ∧ (s.existing ++ s.created).any (c.selects q) = false ∧
      (restFirst c r q s).1 = some none ∧
      CachedEmpty c q finish (restFirst c r q s).2.cache) := by
  rw [restFirst_eq, hmiss]
  dsimp only
  by_cases hfails : r.fails = true
  · left
    rw [if_pos hfails]
    exact ⟨hfails, rfl, read_miss c.cfg hmiss⟩
  · right
    rw [if_neg hfails]
    have hok : r.fails = false := by simpa using hfails
    cases hrecords : (s.existing ++ s.created).filter (c.selects q) with
    | nil =>
      right
      have hnone : (s.existing ++ s.created).any (c.selects q) = false := by
        rw [List.any_eq_false]
        exact fun x hx => List.filter_eq_nil_iff.mp hrecords x hx
      have hsize : c.cfg.entrySize [] ≤ c.cfg.maxBytes := by
        rw [c.cfg.entrySize_nil]
        have := c.maxBytes_min
        omega
      obtain ⟨hget, hbound⟩ := write_stores c.cfg r.writeAt (key c q)
        (read c.cfg r.readAt (key c q) s.cache).2 httl hsize
      exact ⟨hok, hnone, rfl, _, hget, rfl, hbound, by dsimp only; omega⟩
    | cons x xs =>
      left
      have hmem : x ∈ (s.existing ++ s.created).filter (c.selects q) := by simp [hrecords]
      obtain ⟨hx, hsel⟩ := List.mem_filter.mp hmem
      exact ⟨hok, List.any_eq_true.mpr ⟨x, hx, hsel⟩, x, rfl⟩

/-- What the first probe of a loop started in `s` is served from the cache. -/
def servedFirst (lookup : Query) (s : State ρ) : Option (List ρ) :=
  (read c.cfg (env.probes 1).readAt (key c (withLimit lookup)) s.cache).1

/-- What the cache knows of the lookup after the probes before the attempts `1` to `n - 1`,
none of which found a record. -/
inductive CacheAt (lookup : Query) (s : State ρ) (finish n : ℕ) (cache : Cache ρ) : Prop where
  | untouched (hn : n ≤ 1) (hcache : cache = s.cache)
  | empty (hempty : CachedEmpty c (withLimit lookup) finish cache)
    (hserved : servedFirst c env lookup s = some [] ∨ (servedFirst c env lookup s = none ∧
      ∃ i, 1 ≤ i ∧ i < n ∧ (env.probes i).fails = false))
  | absent (hget : Dict.get (key c (withLimit lookup)) cache = none)
    (hserved : servedFirst c env lookup s = none)
    (hfails : ∀ i, 1 ≤ i → i < n → (env.probes i).fails = true)

/-- The loop started in `s` comes to attempt `n` in the state `t`. -/
structure Reaches (lookup : Query) (s : State ρ) (finish n : ℕ) (t : State ρ) : Prop where
  existing : t.existing = s.existing
  created : t.created = s.created ++ landed env n
  retries : ∀ i < n, retries env (some lookup) i = true
  blind : ∀ i, 1 ≤ i → i < n → Blind c env lookup s i
  cache : lookup ≠ [] → CacheAt c env lookup s finish n t.cache

theorem landed_succ (n : ℕ) : landed env (n + 1) =
    landed env n ++ if (env.posts n).applied then [env.newRecord n] else [] := by
  unfold landed
  rw [List.range_succ, List.filterMap_append]
  by_cases h : (env.posts n).applied = true <;> simp [h]

/-- The outcome of the probe before attempt `n`. -/
inductive Probed (lookup : Query) (s : State ρ) (finish n : ℕ) :
    Option ρ × State ρ → Prop where
  | found (x : ρ) (t : State ρ) (hn : 1 ≤ n) (hsees : ¬ Blind c env lookup s n) :
    Probed lookup s finish n (some x, t)
  | missed (t : State ρ) (hblind : 1 ≤ n → Blind c env lookup s n)
    (hcache : lookup ≠ [] → CacheAt c env lookup s finish (n + 1) t.cache) :
    Probed lookup s finish n (none, t)

variable {c env} {lookup : Query} {s t : State ρ} {start finish n : ℕ}

/-- A probe that the cache does not serve, when no earlier probe has succeeded. -/
theorem probe_miss (hw : WithinTtl c env s.cache start finish) (hn : 1 ≤ n)
    (hl : lookup ≠ []) (hrecords : t.existing ++ t.created =
      s.existing ++ s.created ++ landed env n)
    (hmiss : (read c.cfg (env.probes n).readAt (key c (withLimit lookup)) t.cache).1 = none)
    (hserved : servedFirst c env lookup s = none)
    (hfails : ∀ i, 1 ≤ i → i < n → (env.probes i).fails = true) :
    Probed c env lookup s finish n (isAlreadyCreated c env (some lookup) n t) := by
  have hwrite := (hw.reads env.probes (by simp) n).2.1
  have hblind : Blind c env lookup s n ↔ (env.probes n).fails = true ∨
      visible c env lookup s n = false := by
    have hearlier : ¬ ∃ i, 1 ≤ i ∧ i < n ∧ (env.probes i).fails = false := by
      rintro ⟨i, hi, hin, hok⟩
      simp [hfails i hi hin] at hok
    unfold servedFirst at hserved
    simp only [Blind, hl, hserved, hearlier, false_or, or_false]
  have hpos : ¬ (n = 0 ∨ lookup = []) := by
    rintro (h | h)
    · omega
    · exact hl h
  unfold isAlreadyCreated
  simp only [if_neg hpos]
  rcases hprobe : restFirst c (env.probes n) (withLimit lookup) t with ⟨found, u⟩
  have hcases := restFirst_miss c hw.ttl_ne hw.short hwrite hmiss
  rw [hprobe, hrecords] at hcases
  rcases hcases with ⟨hfail, hraise, hget⟩ | ⟨hok, hsees, x, hx⟩ | ⟨hok, hnone, hx, hempty⟩
  · dsimp only at hraise hget ⊢
    subst hraise
    refine .missed u (fun _ => hblind.mpr (Or.inl hfail)) fun _ => .absent hget hserved ?_
    intro i hi hin
    rcases Nat.lt_succ_iff_lt_or_eq.mp hin with hlt | rfl
    · exact hfails i hi hlt
    · exact hfail
  · dsimp only at hx ⊢
    subst hx
    refine .found x u hn ?_
    rw [hblind, visible, hok, hsees]
    simp
  · dsimp only at hx hempty ⊢
    subst hx
    refine .missed u (fun _ => hblind.mpr (Or.inr hnone)) fun _ => .empty hempty ?_
    exact Or.inr ⟨hserved, n, hn, Nat.lt_succ_self n, hok⟩

/-- The first probe, when the cache serves it. -/
theorem probe_served (hw : WithinTtl c env s.cache start finish) (hl : lookup ≠ [])
    (hcache : t.cache = s.cache) {records : List ρ}
    (hserved : servedFirst c env lookup s = some records) :
    Probed c env lookup s finish 1 (isAlreadyCreated c env (some lookup) 1 t) := by
  have hread := (hw.reads env.probes (by simp) 1).1.1
  have hblind : Blind c env lookup s 1 ↔ records = [] := by
    have h := hserved
    unfold servedFirst at h
    simp only [Blind, hl, h, false_or]
  have hserved' := hserved
  unfold servedFirst at hserved'
  rw [← hcache] at hserved'
  obtain ⟨e, hget, hrecords, hmem, hlive, hbound⟩ := read_served c.cfg hserved'
  unfold isAlreadyCreated
  simp only [if_neg (show ¬ ((1 : ℕ) = 0 ∨ lookup = []) by simp [hl])]
  rw [restFirst_eq, hserved']
  cases records with
  | nil =>
    refine .missed _ (fun _ => hblind.mpr rfl) fun _ => .empty ?_ (Or.inl hserved)
    refine ⟨e, hget, hrecords, hbound, ?_⟩
    rw [hcache] at hmem
    simp only [expired, decide_eq_false_iff_not] at hlive
    rcases hw.cache _ hmem with hle | hlt
    · dsimp only at hle
      omega
    · exact hlt
  | cons x xs =>
    refine .found x _ (le_refl 1) ?_
    rw [hblind]
    simp

theorem probe_cases (hw : WithinTtl c env s.cache start finish)
    (hr : Reaches c env lookup s finish n t) :
    Probed c env lookup s finish n (isAlreadyCreated c env (some lookup) n t) := by
  have hrecords : t.existing ++ t.created = s.existing ++ s.created ++ landed env n := by
    rw [hr.existing, hr.created, List.append_assoc]
  by_cases hl : lookup = []
  · have heq : isAlreadyCreated c env (some lookup) n t = (none, t) := by
      simp [isAlreadyCreated, hl]
    rw [heq]
    exact .missed t (fun _ => Or.inl hl) fun h => absurd hl h
  · rcases Nat.eq_zero_or_pos n with rfl | hn
    · have heq : isAlreadyCreated c env (some lookup) 0 t = (none, t) := by
        simp [isAlreadyCreated]
      rw [heq]
      refine .missed t (fun h => absurd h (by omega)) fun _ => ?_
      cases hr.cache hl with
      | untouched _ hcache => exact .untouched (le_refl 1) hcache
      | empty hempty hserved =>
        exact .empty hempty (hserved.imp_right fun ⟨hnone, i, hi, hin, hok⟩ =>
          ⟨hnone, i, hi, by omega, hok⟩)
      | absent hget hserved hfails => exact .absent hget hserved fun i hi hin => by omega
    · cases hr.cache hl with
      | untouched hle hcache =>
        obtain rfl : n = 1 := by omega
        cases hserved : servedFirst c env lookup s with
        | some records => exact probe_served hw hl hcache hserved
        | none =>
          refine probe_miss hw hn hl hrecords ?_ hserved fun i hi hin => by omega
          rw [hcache]
          exact hserved
      | empty hempty hserved =>
        have hread := (hw.reads env.probes (by simp) n).1.2
        obtain ⟨hnone, hempty'⟩ := restFirst_cachedEmpty c hw.ttl_ne hread hempty
        have hpos : ¬ (n = 0 ∨ lookup = []) := by
          rintro (h | h)
          · omega
          · exact hl h
        unfold isAlreadyCreated
        simp only [if_neg hpos]
        rcases hprobe : restFirst c (env.probes n) (withLimit lookup) t with ⟨found, u⟩
        rw [hprobe] at hnone hempty'
        dsimp only at hnone hempty' ⊢
        subst hnone
        refine .missed u (fun _ => Or.inr ?_) fun _ => .empty hempty' ?_
        · unfold servedFirst at hserved
          rcases hserved with h | ⟨h, hearlier⟩
          · simp [h]
          · simp only [h]
            exact Or.inr (Or.inr hearlier)
        · exact hserved.imp_right fun ⟨hnone, i, hi, hin, hok⟩ =>
            ⟨hnone, i, hi, by omega, hok⟩
      | absent hget hserved hfails =>
        exact probe_miss hw hn hl hrecords (read_absent c.cfg hget) hserved hfails

theorem Posts.of_le {i j : ℕ} (hj : Posts c env lookup s j) (hij : i ≤ j) :
    Posts c env lookup s i := by
  obtain ⟨hmax, hretry, hblind⟩ := hj
  refine ⟨by omega, fun k hk => hretry k (by omega), fun k h1 hk => hblind k h1 (by omega)⟩

variable (c env lookup) in
theorem isAlreadyCreated_records (n : ℕ) (t : State ρ) :
    (isAlreadyCreated c env (some lookup) n t).2.existing = t.existing ∧
      (isAlreadyCreated c env (some lookup) n t).2.created = t.created := by
  unfold isAlreadyCreated
  dsimp only
  split
  · exact ⟨rfl, rfl⟩
  · have h := restFirst_records c (env.probes n) (withLimit lookup) t
    split <;> rename_i hread <;> simpa [hread] using h

variable (c env lookup) in
/-- A POST adds its record if it is applied; the loop may go on only after an error. -/
theorem post_cases (n : ℕ) (t : State ρ) :
    (post c env n t).2.existing = t.existing ∧
    (post c env n t).2.created =
      t.created ++ (if (env.posts n).applied then [env.newRecord n] else []) ∧
    ((∃ x, (post c env n t).1 = .ok x ∧ retries env (some lookup) n = false) ∨
      ∃ e, (post c env n t).1 = .error e ∧
        retries env (some lookup) n = isSafeRetry (some lookup) e ∧
        (post c env n t).2.cache = t.cache) := by
  unfold post retries
  cases env.posts n with
  | created => exact ⟨rfl, rfl, Or.inl ⟨_, rfl, rfl⟩⟩
  | lost e => exact ⟨rfl, rfl, Or.inr ⟨e, rfl, rfl, rfl⟩⟩
  | failed e => exact ⟨rfl, (List.append_nil _).symm, Or.inr ⟨e, rfl, rfl, rfl⟩⟩

/-- The loop makes POST number `n` and no further one. -/
theorem posts_iff_of_stop (hn : Posts c env lookup s n)
    (hstop : retries env (some lookup) n = false ∨ n = c.maxRetries) (k : ℕ) :
    Posts c env lookup s k ↔ k < n + 1 := by
  refine ⟨?_, fun hk => hn.of_le (by omega)⟩
  rintro ⟨hmax, hretry, -⟩
  by_contra hk
  rcases hstop with hstop | rfl
  · simp [hretry n (by omega)] at hstop
  · omega

theorem posts_iff_of_found (hr : Reaches c env lookup s finish n t) (hpos : 1 ≤ n)
    (hsees : ¬ Blind c env lookup s n) (hmax : n ≤ c.maxRetries) (k : ℕ) :
    Posts c env lookup s k ↔ k < n := by
  refine ⟨?_, fun hk => ⟨by omega, fun i hi => hr.retries i (by omega),
    fun i h1 hi => hr.blind i h1 (by omega)⟩⟩
  rintro ⟨-, -, hblind⟩
  by_contra hk
  exact hsees (hblind n hpos (by omega))

/-- One round of the loop: the probe finds a record, or a POST is made, after which the loop
ends or goes on. -/
theorem createLoop_round (hw : WithinTtl c env s.cache start finish) (hn : n ≤ c.maxRetries)
    (hr : Reaches c env lookup s finish n t) (left : ℕ) :
    (1 ≤ n ∧ ¬ Blind c env lookup s n ∧
      (createLoop c env (some lookup) left n t).2.created = s.created ++ landed env n) ∨
    (Posts c env lookup s n ∧
      (((retries env (some lookup) n = false ∨ left = 0) ∧
        (createLoop c env (some lookup) left n t).2.created = s.created ++ landed env (n + 1)) ∨
      ∃ left' v, left = left' + 1 ∧ Reaches c env lookup s finish (n + 1) v ∧
        createLoop c env (some lookup) left n t =
          createLoop c env (some lookup) left' (n + 1) v)) := by
  have hprobe := probe_cases hw hr
  have hkept := isAlreadyCreated_records c env lookup n t
  have hloop : createLoop c env (some lookup) left n t =
      match isAlreadyCreated c env (some lookup) n t with
      | (some existing, u) => (.ok existing, u)
      | (none, u) => match post c env n u, left with
        | (.ok r, u), _ => (.ok r, u)
        | (.error e, u), 0 => (.error e, u)
        | (.error e, u), left + 1 =>
          if isSafeRetry (some lookup) e then createLoop c env (some lookup) left (n + 1) u
          else (.error e, u) := by
    cases left <;> rw [createLoop]
  rcases hp : isAlreadyCreated c env (some lookup) n t with ⟨found, u⟩
  rw [hp] at hprobe hkept hloop
  obtain ⟨hexisting, hcreated⟩ := hkept
  dsimp only at hexisting hcreated
  cases hprobe with
  | found x _ hpos hsees =>
    left
    rw [hloop]
    exact ⟨hpos, hsees, hcreated.trans hr.created⟩
  | missed _ hblind hcache =>
    right
    have hposts : Posts c env lookup s n := by
      refine ⟨hn, hr.retries, ?_⟩
      intro i hi hin
      rcases Nat.lt_or_eq_of_le hin with hlt | rfl
      · exact hr.blind i hi hlt
      · exact hblind hi
    refine ⟨hposts, ?_⟩
    obtain ⟨hexisting', hcreated', hresult⟩ := post_cases c env lookup n u
    have hlanded : (post c env n u).2.created = s.created ++ landed env (n + 1) := by
      rw [hcreated', hcreated, hr.created, landed_succ, List.append_assoc]
    rcases hpost : post c env n u with ⟨result, v⟩
    rw [hpost] at hexisting' hlanded hresult
    simp only [hpost] at hloop
    rcases hresult with ⟨x, hx, hstop⟩ | ⟨e, he, hretry, hsame⟩
    · dsimp only at hx
      subst hx
      left
      rw [hloop]
      exact ⟨Or.inl hstop, hlanded⟩
    · dsimp only at he
      subst he
      cases left with
      | zero =>
        left
        rw [hloop]
        exact ⟨Or.inr rfl, hlanded⟩
      | succ left' =>
        dsimp only at hloop
        by_cases hsafe : isSafeRetry (some lookup) e = true
        · right
          rw [if_pos hsafe] at hloop
          refine ⟨left', v, rfl, ⟨?_, hlanded, ?_, ?_, ?_⟩, hloop⟩
          · exact hexisting'.trans (hexisting.trans hr.existing)
          · intro i hi
            rcases Nat.lt_succ_iff_lt_or_eq.mp hi with hlt | rfl
            · exact hr.retries i hlt
            · exact hretry.trans hsafe
          · intro i h1 hi
            exact hposts.2.2 i h1 (by omega)
          · intro hl
            dsimp only at hsame
            rw [hsame]
            exact hcache hl
        · left
          rw [if_neg hsafe] at hloop
          rw [hloop]
          exact ⟨Or.inl (hretry.trans (by simpa using hsafe)), hlanded⟩

/-- The records created by the loop are those of its first `m` attempts, where `m` is the
number of POSTs it comes to. -/
theorem createLoop_created (hw : WithinTtl c env s.cache start finish) {left : ℕ}
    (hmax : n + left = c.maxRetries) (hr : Reaches c env lookup s finish n t) :
    ∃ m, (createLoop c env (some lookup) left n t).2.created = s.created ++ landed env m ∧
      ∀ k, Posts c env lookup s k ↔ k < m := by
  induction left generalizing n t with
  | zero =>
    rcases createLoop_round hw (by omega) hr 0 with ⟨hpos, hsees, hcreated⟩ | ⟨hposts, hnext⟩
    · exact ⟨n, hcreated, posts_iff_of_found hr hpos hsees (by omega)⟩
    · rcases hnext with ⟨-, hcreated⟩ | ⟨left', v, h, -⟩
      · exact ⟨n + 1, hcreated, posts_iff_of_stop hposts (Or.inr (by omega))⟩
      · omega
  | succ left ih =>
    rcases createLoop_round hw (by omega) hr (left + 1) with
      ⟨hpos, hsees, hcreated⟩ | ⟨hposts, hnext⟩
    · exact ⟨n, hcreated, posts_iff_of_found hr hpos hsees (by omega)⟩
    · rcases hnext with ⟨hstop | h, hcreated⟩ | ⟨left', v, h, hr', hloop⟩
      · exact ⟨n + 1, hcreated, posts_iff_of_stop hposts (Or.inl hstop)⟩
      · omega
      · obtain rfl : left = left' := by omega
        rw [hloop]
        exact ih (by omega) hr'

theorem landed_countP (m : ℕ) : (landed env m).countP (c.selects (withLimit lookup)) =
    (List.range m).countP (lands c env lookup) := by
  induction m with
  | zero => rfl
  | succ m ih =>
    rw [landed_succ, List.countP_append, List.range_succ, List.countP_append, ih]
    by_cases h : (env.posts m).applied = true <;>
      simp [lands, h, List.countP_cons]

/-- At most one index below `m` satisfies `p`. -/
theorem countP_range_le_one (p : ℕ → Bool) (m : ℕ) : (List.range m).countP p ≤ 1 ↔
    ¬ ∃ i j, i < j ∧ j < m ∧ p i = true ∧ p j = true := by
  induction m with
  | zero => simp
  | succ m ih =>
    rw [List.range_succ, List.countP_append]
    have hzero : (List.range m).countP p = 0 ↔ ∀ i < m, p i = false := by
      simp [List.countP_eq_zero]
    by_cases hp : p m = true
    · have hone : (List.range m).countP p + [m].countP p ≤ 1 ↔ (List.range m).countP p = 0 := by
        simp [hp]
      rw [hone, hzero]
      constructor
      · rintro hnone ⟨i, j, hij, hj, hpi, hpj⟩
        have := hnone i (by omega)
        simp [hpi] at this
      · intro hno i hi
        by_contra hpi
        exact hno ⟨i, m, hi, Nat.lt_succ_self m, by simpa using hpi, hp⟩
    · have hsame : (List.range m).countP p + [m].countP p = (List.range m).countP p := by
        simp [hp]
      rw [hsame, ih]
      constructor
      · rintro hno ⟨i, j, hij, hj, hpi, hpj⟩
        rcases Nat.lt_succ_iff_lt_or_eq.mp hj with hlt | rfl
        · exact hno ⟨i, j, hij, hlt, hpi, hpj⟩
        · exact hp hpj
      · rintro hno ⟨i, j, hij, hj, hpi, hpj⟩
        exact hno ⟨i, j, hij, by omega, hpi, hpj⟩

/-- One call of `rest_create_async` creates at most one record of the lookup exactly when no
two of its POSTs land with every probe up to the second one blind. -/
theorem restCreate_once_iff (hw : WithinTtl c env s.cache start finish) (hnew : s.created = []) :
    (restCreate c env (some lookup) s).2.created.countP (c.selects (withLimit lookup)) ≤ 1 ↔
      ¬ LandsTwice c env lookup s := by
  have hr : Reaches c env lookup s finish 0 s :=
    ⟨rfl, by simp [landed], by simp, fun i h1 hi => absurd hi (by omega),
      fun _ => .untouched (by omega) rfl⟩
  obtain ⟨m, hcreated, hposts⟩ := createLoop_created hw (Nat.zero_add _) hr
  unfold restCreate LandsTwice
  rw [hcreated, hnew, List.nil_append, landed_countP, countP_range_le_one]
  simp only [hposts]

variable (c) in
theorem firstExisting_records (reads : ℕ → ListRead) (qs : List Query) (i : ℕ) (s : State ρ) :
    (firstExisting c reads qs i s).2.existing = s.existing ∧
      (firstExisting c reads qs i s).2.created = s.created := by
  induction qs generalizing i s with
  | nil => exact ⟨rfl, rfl⟩
  | cons q qs ih =>
    have h := restFirst_records c (reads i) (withLimit q) s
    unfold firstExisting
    rcases hread : restFirst c (reads i) (withLimit q) s with ⟨found, u⟩
    rw [hread] at h
    rcases found with _ | _ | x
    · exact h
    · exact ⟨(ih (i + 1) u).1.trans h.1, (ih (i + 1) u).2.trans h.2⟩
    · exact h

theorem firstExisting_cache {reads : ℕ → ListRead} {qs : List Query} {i start : ℕ} {s : State ρ}
    (hreads : ∀ k, start ≤ (reads k).writeAt) {kv : CacheKey × Entry ρ}
    (h : kv ∈ (firstExisting c reads qs i s).2.cache) :
    kv ∈ s.cache ∨ start ≤ kv.2.cachedAt := by
  induction qs generalizing i s with
  | nil => exact Or.inl h
  | cons q qs ih =>
    have hstep : ∀ kv' ∈ (restFirst c (reads i) (withLimit q) s).2.cache,
        kv' ∈ s.cache ∨ start ≤ kv'.2.cachedAt :=
      fun kv' hkv' => (restFirst_cache c hkv').imp_right fun hle => (hreads i).trans hle
    unfold firstExisting at h
    rcases hread : restFirst c (reads i) (withLimit q) s with ⟨found, u⟩
    rw [hread] at h hstep
    rcases found with _ | _ | x
    · exact hstep kv h
    · rcases ih h with h | h
      · exact hstep kv h
      · exact Or.inr h
    · exact hstep kv h

/-- The records `rest_ensure_async` creates are those of its `rest_create_async` call. -/
theorem restEnsure_created (payload : Query) (s : State ρ) :
    (restEnsure c env lookup payload s).2.created =
      match (candidateReuseLookups lookup payload).map
        fun candidates => firstExisting c env.lookups candidates 0 s with
      | some (some none, u) => (restCreate c env (some lookup) u).2.created
      | _ => s.created := by
  unfold restEnsure
  cases candidateReuseLookups lookup payload with
  | none => rfl
  | some candidates =>
    have hkept := firstExisting_records c env.lookups candidates 0 s
    simp only [Option.map_some]
    rcases hfirst : firstExisting c env.lookups candidates 0 s with ⟨_ | _ | x, u⟩
    · rw [hfirst] at hkept
      exact hkept.2
    · dsimp only
      rcases restCreate c env (some lookup) u with ⟨e | x, v⟩
      · dsimp only
        split
        · have hagain := firstExisting_records c env.rereads candidates 0 v
          rcases hreread : firstExisting c env.rereads candidates 0 v with ⟨_ | _ | x, z⟩ <;>
            rw [hreread] at hagain <;> exact hagain.2
        · rfl
      · rfl
    · rw [hfirst] at hkept
      exact hkept.2

/-- After a lookup read that found nothing, every probe of the loop is blind. -/
theorem landsTwice_after_lookup {r : ListRead} {u : State ρ}
    (hw : WithinTtl c env s.cache start finish) (hr : start ≤ r.writeAt)
    (hbefore : start ≤ r.readAt)
    (hread : restFirst c r (withLimit lookup) s = (some none, u)) :
    LandsTwice c env lookup u ↔ ∃ i j, i < j ∧ j ≤ c.maxRetries ∧
      (∀ k < j, retries env (some lookup) k = true) ∧ lands c env lookup i = true ∧
        lands c env lookup j = true := by
  have hempty : CachedEmpty c (withLimit lookup) finish u.cache := by
    cases hserved : (read c.cfg r.readAt (key c (withLimit lookup)) s.cache).1 with
    | some records =>
      obtain ⟨e, hget, hrecords, hmem, hlive, hbound⟩ := read_served c.cfg hserved
      rw [restFirst_eq, hserved] at hread
      simp only [Prod.mk.injEq, Option.some.injEq, List.head?_eq_none_iff] at hread
      obtain ⟨hnil, rfl⟩ := hread
      refine ⟨e, hget, hrecords.trans hnil, hbound, ?_⟩
      simp only [expired, decide_eq_false_iff_not] at hlive
      rcases hw.cache _ hmem with hle | hlt
      · dsimp only at hle
        omega
      · exact hlt
    | none =>
      have hcases := restFirst_miss c hw.ttl_ne hw.short hr hserved
      rw [hread] at hcases
      rcases hcases with ⟨-, h, -⟩ | ⟨-, -, x, h⟩ | ⟨-, -, -, h⟩
      · simp at h
      · simp at h
      · exact h
  have hblind : ∀ k, Blind c env lookup u k := by
    intro k
    have hprobe := (hw.reads env.probes (by simp) 1).1.2
    obtain ⟨e, hget, hnil, hbound, hlive⟩ := hempty
    have hfresh : expired c.cfg (env.probes 1).readAt e = false := by
      simp only [expired, decide_eq_false_iff_not]
      omega
    obtain ⟨hserved, -, -⟩ := read_live c.cfg hw.ttl_ne hbound hget hfresh
    right
    simp only [hserved, hnil]
  constructor
  · rintro ⟨i, j, hij, ⟨hmax, hretry, -⟩, hi, hj⟩
    exact ⟨i, j, hij, hmax, hretry, hi, hj⟩
  · rintro ⟨i, j, hij, hmax, hretry, hi, hj⟩
    exact ⟨i, j, hij, ⟨hmax, hretry, fun k _ _ => hblind k⟩, hi, hj⟩

/-- The lookup phase of `rest_ensure_async` finds nothing and leaves a state in which two
POSTs of the loop land. -/
def EnsureLandsTwice (c : Client ρ) (env : Env ρ) (lookup payload : Query) (s : State ρ) : Prop :=
  ∃ candidates u, candidateReuseLookups lookup payload = some candidates ∧
    firstExisting c env.lookups candidates 0 s = (some none, u) ∧ LandsTwice c env lookup u

/-- The lookup read finds nothing and two POSTs land, each attempt before the second one
failing in a way that is retried. -/
def CreateLandsTwice (c : Client ρ) (env : Env ρ) (lookup : Query) (s : State ρ) : Prop :=
  (restFirst c (env.lookups 0) (withLimit lookup) s).1 = some none ∧
    ∃ i j, i < j ∧ j ≤ c.maxRetries ∧ (∀ k < j, retries env (some lookup) k = true) ∧
      lands c env lookup i = true ∧ lands c env lookup j = true

/-- One call of either form creates at most one record that its lookup selects, exactly when
it does not come to a second landing POST with all probes blind. -/
theorem created_once_iff (c : Client ρ) (env : Env ρ) (lookup payload : Query)
    (existing : List ρ) (cache : Cache ρ) (start finish : ℕ)
    (hw : WithinTtl c env cache start finish) :
    ((restEnsure c env lookup payload ⟨existing, [], cache⟩).2.created.countP
        (c.selects (withLimit lookup)) ≤ 1 ↔
      ¬ EnsureLandsTwice c env lookup payload ⟨existing, [], cache⟩) ∧
    ((lookupThenCreate c env lookup ⟨existing, [], cache⟩).2.created.countP
        (c.selects (withLimit lookup)) ≤ 1 ↔
      ¬ CreateLandsTwice c env lookup ⟨existing, [], cache⟩) := by
  have hlookups := hw.reads env.lookups (by simp)
  constructor
  · rw [restEnsure_created]
    unfold EnsureLandsTwice
    cases hcandidates : candidateReuseLookups lookup payload with
    | none => simp
    | some candidates =>
      have hkept := firstExisting_records c env.lookups candidates 0 ⟨existing, [], cache⟩
      have hcache : ∀ kv ∈
          (firstExisting c env.lookups candidates 0 ⟨existing, [], cache⟩).2.cache,
          kv ∈ cache ∨ start ≤ kv.2.cachedAt :=
        fun kv => firstExisting_cache fun k => (hlookups k).2.1
      rcases hfirst : firstExisting c env.lookups candidates 0 ⟨existing, [], cache⟩ with
        ⟨_ | _ | x, u⟩
      · simp [hfirst]
      · rw [hfirst] at hkept hcache
        have hu : WithinTtl c env u.cache start finish := hw.of_mem c env hcache
        rw [Option.map_some, hfirst]
        dsimp only
        rw [restCreate_once_iff hu hkept.2]
        simp [hfirst]
      · simp [hfirst]
  · unfold lookupThenCreate CreateLandsTwice
    have hkept := restFirst_records c (env.lookups 0) (withLimit lookup) ⟨existing, [], cache⟩
    have hcache : ∀ kv ∈
        (restFirst c (env.lookups 0) (withLimit lookup) ⟨existing, [], cache⟩).2.cache,
        kv ∈ cache ∨ (env.lookups 0).writeAt ≤ kv.2.cachedAt := fun kv => restFirst_cache c
    rcases hread : restFirst c (env.lookups 0) (withLimit lookup) ⟨existing, [], cache⟩ with
      ⟨_ | _ | x, u⟩
    · rw [hread] at hkept
      have hnew : u.created = [] := hkept.2
      simp [hnew]
    · rw [hread] at hkept hcache
      have hu : WithinTtl c env u.cache start finish := hw.of_mem c env fun kv hkv =>
        (hcache kv hkv).imp_right fun hle => ((hlookups 0).2.1).trans hle
      have hcreated : (match restCreate c env (some lookup) u with
          | (.ok r, s) => (.ok r, s)
          | (.error e, s) => (.error (.post e), s) : Except EnsureError ρ × State ρ).2.created =
          (restCreate c env (some lookup) u).2.created := by
        rcases restCreate c env (some lookup) u with ⟨e | x, v⟩ <;> rfl
      dsimp only
      rw [hcreated, restCreate_once_iff hu hkept.2,
        landsTwice_after_lookup hw (hlookups 0).2.1 (hlookups 0).1.1 hread]
      simp
    · rw [hread] at hkept
      have hnew : u.created = [] := hkept.2
      simp [hnew]

/-- Sites, each known by its slug; the server answers a query with the sites of its slug. -/
def siteClient : Client String where
  cfg := Config.defaults (fun records => 2 + 20 * records.length) rfl
  maxBytes_min := by decide
  api := 1
  path := "/dcim/sites/"
  maxRetries := 5
  dumps q := match Dict.get "slug" q with
    | some (.str slug) => "slug=" ++ slug
    | _ => "?"
  selects q slug := match Dict.get "slug" q with
    | some (.str slug') => slug == slug'
    | _ => false
  urlPath _ := none
  idText _ := none

def instantRead : ListRead := ⟨0, 0, false⟩

/-- A server whose reads succeed and whose POSTs go as told. -/
def siteEnv (posts : ℕ → PostReply) : Env String where
  lookups _ := instantRead
  posts := posts
  probes _ := instantRead
  rereads _ := instantRead
  newRecord _ := "hq"

theorem siteEnv_withinTtl (posts : ℕ → PostReply) :
    WithinTtl siteClient (siteEnv posts) [] 0 0 := by
  refine ⟨?_, by decide, by simp⟩
  intro f hf k
  have hinstant : f k = instantRead := by
    simp only [siteEnv, List.mem_cons, List.not_mem_nil, or_false] at hf
    rcases hf with rfl | rfl | rfl <;> rfl
  rw [hinstant]
  decide

/-- The first POST is refused, the second one created. -/
def refusedOnce : ℕ → PostReply
  | 0 => .failed ⟨true, true, false⟩
  | _ => .created

theorem created_once_iff_refusedOnce :
    (restEnsure siteClient (siteEnv refusedOnce) [("slug", .str "hq")] []
      ⟨[], [], []⟩).2.created = ["hq"] ∧
    ¬ CreateLandsTwice siteClient (siteEnv refusedOnce) [("slug", .str "hq")] ⟨[], [], []⟩ := by
  have hcreated : (lookupThenCreate siteClient (siteEnv refusedOnce) [("slug", .str "hq")]
      ⟨[], [], []⟩).2.created = ["hq"] := by decide
  refine ⟨by decide, ?_⟩
  have hiff := (created_once_iff siteClient (siteEnv refusedOnce) [("slug", .str "hq")] []
    [] [] 0 0 (siteEnv_withinTtl refusedOnce)).2
  rw [hcreated] at hiff
  exact hiff.mp (by decide)

/-- The first POST is applied and its answer lost. -/
def lostOnce : ℕ → PostReply
  | 0 => .lost ⟨true, false, false⟩
  | _ => .created

/-- The lookup read before the first POST has cached an empty list, which answers the probe
before the second one: the site is created twice. -/
theorem site_created_twice : ¬ ∀ (c : Client String) (env : Env String) (lookup payload : Query)
    (existing : List String) (cache : Cache String) (start finish : ℕ),
    WithinTtl c env cache start finish →
      (restEnsure c env lookup payload ⟨existing, [], cache⟩).2.created.countP
        (c.selects (withLimit lookup)) ≤ 1 := by
  intro hall
  have hle := hall siteClient (siteEnv lostOnce) [("slug", .str "hq")] [] [] [] 0 0
    (siteEnv_withinTtl lostOnce)
  exact absurd hle (by decide)

end ProxboxApi.RestCreate
