import ProxboxApi.Pagination

/-! The page chains that the loop of `_rest_list_traverse_async` accepts, and what they say
of the list it returns. -/

namespace ProxboxApi.Pagination

open GetCache

variable (c : Client) (req : Request) (server : Server)

def records (visits : List Visit) : List Record := visits.flatMap fun v => v.page.records

/-- A page passes the guards on its own content, after the pages of `done`. -/
structure PageFits (done : List Visit) (v : Visit) : Prop where
  count : ∀ w, done.head? = some w → v.page.count = w.page.count
  within : v.page.records ≠ [] → ∀ n, v.page.count = some n →
    v.offset + v.page.records.length ≤ n
  distinct : (v.page.records.map (recordSignature c)).Nodup
  fresh : ∀ x ∈ v.page.records.map (recordSignature c),
    x ∉ (records done).map (recordSignature c)
  hard : (records done).length + v.page.records.length ≤ hardMaxRecords
  explicit : ∀ m, req.maxRecords = some m →
    (((records done).length + v.page.records.length : ℕ) : ℤ) ≤ m

/-- The next link of a page leads to a cursor, `done` being the pages up to this one. -/
structure LinkFits (left : ℕ) (done : List Visit) (v : Visit) (next : String × Query)
    (cursor : Cursor) : Prop where
  filled : v.page.records ≠ []
  path : normalizePath next.1 = req.normalizedPath
  filters : queryMultimap c next.2 = queryMultimap c req.query
  offset : validatedOffset req.path next.2 true "Pagination next link" = .ok cursor.offset
  contiguous : cursor.offset = v.offset + v.page.records.length
  maxOffset : ∀ m, req.maxOffset = some m → (cursor.offset : ℤ) ≤ m
  explicit : ∀ m, req.maxRecords = some m → ((records done).length : ℤ) < m
  hard : (records done).length < hardMaxRecords
  pages : left ≠ 0
  unseen : (req.normalizedPath, serializeQuery c next.2) ∉
    done.tail.map fun w => (req.normalizedPath, serializeQuery c w.query)
  cursorPath : cursor.path = req.normalizedPath
  cursorQuery : cursor.query = next.2

/-- The pages from a cursor on that pass every guard: the server answers each request with
its page, and the last page has no next link and the declared total. -/
inductive Accepts (initialOffset : ℕ) : ℕ → List Visit → Cursor → List Visit → Prop
  | last {left : ℕ} {done : List Visit} {v : Visit}
      (fetched : fetchPage c req.path (fun attempt => server done.length attempt v.path v.query)
        c.maxRetries 0 = .ok v.page)
      (fits : PageFits c req done v) (final : v.page.next = none)
      (total : ∀ n, v.page.count = some n →
        (records (done ++ [v])).length = n - initialOffset) :
      Accepts initialOffset (left + 1) done v.toCursor [v]
  | more {left : ℕ} {done : List Visit} {v : Visit} {next : String × Query} {cursor : Cursor}
      {visits : List Visit}
      (fetched : fetchPage c req.path (fun attempt => server done.length attempt v.path v.query)
        c.maxRetries 0 = .ok v.page)
      (fits : PageFits c req done v) (link : v.page.next = some next)
      (leads : LinkFits c req left (done ++ [v]) v next cursor)
      (rest : Accepts initialOffset left (done ++ [v]) cursor visits) :
      Accepts initialOffset (left + 1) done v.toCursor (v :: visits)

/-- The variables of the loop at a cursor, after the pages of `done`. -/
def loopAt (done : List Visit) (cursor : Cursor) : Loop where
  toCursor := cursor
  aggregated := records done
  seenPages := (done.tail.map fun w => (req.normalizedPath, serializeQuery c w.query)) ++
    if done = [] then [] else [(req.normalizedPath, serializeQuery c cursor.query)]
  seenRecords := (records done).map (recordSignature c)
  paginated := done.head?.map fun w => w.page.count.isSome
  expected := done.head?.bind fun w => w.page.count
  visits := done

theorem refuseIf_bind {α : Type} {p : Prop} {_ : Decidable p} {e : Raised}
    {f : Unit → Except Raised α} {r : α} :
    (refuseIf p e >>= f) = .ok r ↔ ¬ p ∧ f () = .ok r := by
  by_cases hp : p <;> simp [refuseIf, hp, bind, Except.bind]

theorem exceeds_iff {n : ℕ} {limit : Option ℤ} :
    ¬ exceeds n limit = true ↔ ∀ m, limit = some m → (n : ℤ) ≤ m := by
  cases limit <;> simp [exceeds]

theorem reaches_iff {n : ℕ} {limit : Option ℤ} :
    ¬ reaches n limit = true ↔ ∀ m, limit = some m → (n : ℤ) < m := by
  cases limit <;> simp [reaches]

theorem records_snoc (done : List Visit) (v : Visit) :
    records (done ++ [v]) = records done ++ v.page.records := by
  simp [records]

/-- The variables of the loop once the last page of `done` has been taken in. -/
def taken (done : List Visit) (cursor : Cursor) : Loop where
  toCursor := cursor
  aggregated := records done
  seenPages := done.tail.map fun w => (req.normalizedPath, serializeQuery c w.query)
  seenRecords := (records done).map (recordSignature c)
  paginated := done.head?.map fun w => w.page.count.isSome
  expected := done.head?.bind fun w => w.page.count
  visits := done

theorem checkShape_bind {α : Type} {done : List Visit} {cursor : Cursor} {page : Page}
    {f : Unit → Except Raised α} {r : α} :
    (checkShape req.path (loopAt c req done cursor) page >>= f) = .ok r ↔
      (∀ w, done.head? = some w → page.count = w.page.count) ∧ f () = .ok r := by
  cases done with
  | nil => simp [checkShape, loopAt, bind, Except.bind]
  | cons w done =>
    change ((refuseIf (page.count.isSome ≠ w.page.count.isSome) _ >>= fun _ =>
      refuseIf (page.count ≠ w.page.count) _) >>= f) = _ ↔ _
    simp only [bind_assoc, refuseIf_bind, not_not, List.head?_cons, Option.some.injEq,
      forall_eq']
    constructor
    · rintro ⟨-, hcount, hf⟩
      exact ⟨hcount, hf⟩
    · rintro ⟨hcount, hf⟩
      exact ⟨congrArg Option.isSome hcount, hcount, hf⟩

theorem expectedCount_loopAt {done : List Visit} {cursor : Cursor} {page : Page}
    (h : ∀ w, done.head? = some w → page.count = w.page.count) :
    expectedCount (loopAt c req done cursor) page = page.count := by
  cases done with
  | nil => rfl
  | cons w done => exact (h w rfl).symm

theorem takeIn_loopAt {done : List Visit} {v : Visit} {s : Loop} :
    takeIn c req (loopAt c req done v.toCursor) v.page = .ok s ↔
      PageFits c req done v ∧ s = taken c req (done ++ [v]) v.toCursor := by
  have hstate : ∀ h : ∀ w, done.head? = some w → v.page.count = w.page.count,
      { loopAt c req done v.toCursor with
        aggregated := (loopAt c req done v.toCursor).aggregated ++ v.page.records
        seenRecords := (loopAt c req done v.toCursor).seenRecords ++
          v.page.records.map (recordSignature c)
        paginated := some ((loopAt c req done v.toCursor).paginated.getD v.page.count.isSome)
        expected := v.page.count
        visits := (loopAt c req done v.toCursor).visits ++ [⟨v.toCursor, v.page⟩] } =
      taken c req (done ++ [v]) v.toCursor := by
    intro h
    cases done with
    | nil => simp [loopAt, taken, records]
    | cons w done =>
      have hw := h w rfl
      simp [loopAt, taken, hw, records]
  unfold takeIn
  rw [checkShape_bind]
  simp only [refuseIf_bind, exceeds_iff, Except.ok.injEq]
  constructor
  · rintro ⟨hcount, hwithin, hnew, hhard, hexplicit, rfl⟩
    rw [expectedCount_loopAt c req hcount] at hwithin ⊢
    refine ⟨⟨hcount, ?_, ?_, ?_, ?_, hexplicit⟩, hstate hcount⟩
    · intro hne n hn
      simp only [hn, Option.any_some, decide_eq_true_eq, not_and, not_lt] at hwithin
      exact hwithin hne
    · by_contra hdup
      exact hnew (Or.inl hdup)
    · intro x hx hseen
      exact hnew (Or.inr ⟨x, hx, hseen⟩)
    · exact not_lt.mp hhard
  · rintro ⟨hfits, rfl⟩
    rw [expectedCount_loopAt c req hfits.count]
    refine ⟨hfits.count, ?_, ?_, not_lt.mpr hfits.hard, hfits.explicit, hstate hfits.count⟩
    · rintro ⟨hne, hover⟩
      obtain ⟨n, hn, hlt⟩ := Option.any_eq_true _ _ |>.mp hover
      have := hfits.within hne n hn
      simp only [decide_eq_true_eq] at hlt
      exact absurd hlt (not_lt.mpr this)
    · rintro (hdup | ⟨x, hx, hseen⟩)
      · exact hdup hfits.distinct
      · exact hfits.fresh x hx hseen

theorem advance_taken {left : ℕ} {done : List Visit} {v : Visit} {next : String × Query}
    {s : Loop} :
    advance c req left (taken c req done v.toCursor) v.page next = .ok s ↔
      ∃ cursor, LinkFits c req left done v next cursor ∧
        s = { taken c req done v.toCursor with
          toCursor := cursor
          seenPages := (taken c req done v.toCursor).seenPages ++
            [(req.normalizedPath, serializeQuery c next.2)] } := by
  unfold advance
  simp only [refuseIf_bind, not_not]
  constructor
  · rintro ⟨hfilled, hpath, hfilters, hrest⟩
    cases hoffset : validatedOffset req.path next.2 true "Pagination next link" with
    | error e => simp [hoffset, bind, Except.bind] at hrest
    | ok n =>
      rw [hoffset] at hrest
      change (refuseIf _ _ >>= _) = Except.ok s at hrest
      simp only [refuseIf_bind, exceeds_iff, reaches_iff, Except.ok.injEq, not_not, not_le] at hrest
      obtain ⟨hcontiguous, hmax, hexplicit, hhard, hpages, hunseen, rfl⟩ := hrest
      exact ⟨⟨req.normalizedPath, next.2, n⟩,
        ⟨hfilled, hpath, hfilters, hoffset, hcontiguous, hmax, hexplicit, hhard, hpages, hunseen,
          rfl, rfl⟩, rfl⟩
  · rintro ⟨⟨path, query, n⟩, hleads, rfl⟩
    obtain rfl := hleads.cursorPath
    obtain rfl := hleads.cursorQuery
    refine ⟨hleads.filled, hleads.path, hleads.filters, ?_⟩
    rw [hleads.offset]
    change (refuseIf _ _ >>= _) = Except.ok _
    simp only [refuseIf_bind, exceeds_iff, reaches_iff, not_not, not_le]
    exact ⟨hleads.contiguous, hleads.maxOffset, hleads.explicit, hleads.hard, hleads.pages,
      hleads.unseen, trivial⟩

theorem taken_advanced {left : ℕ} {done : List Visit} {v : Visit} {next : String × Query}
    {cursor : Cursor} (h : LinkFits c req left done v next cursor) (hdone : done ≠ []) :
    { taken c req done v.toCursor with
      toCursor := cursor
      seenPages := (taken c req done v.toCursor).seenPages ++
        [(req.normalizedPath, serializeQuery c next.2)] } = loopAt c req done cursor := by
  simp [taken, loopAt, hdone, h.cursorQuery]

theorem finish_taken {initialOffset : ℕ} {done : List Visit} {v : Visit} {rs : List Record}
    (hcount : ∀ w, done.head? = some w → v.page.count = w.page.count) :
    finish req initialOffset (taken c req (done ++ [v]) v.toCursor) = .ok rs ↔
      (∀ n, v.page.count = some n → (records (done ++ [v])).length = n - initialOffset) ∧
        rs = records (done ++ [v]) := by
  have hexpected : (taken c req (done ++ [v]) v.toCursor).expected = v.page.count := by
    cases done with
    | nil => rfl
    | cons w done => exact (hcount w rfl).symm
  unfold finish
  rw [hexpected, refuseIf_bind, Except.ok.injEq]
  refine and_congr ?_ eq_comm
  cases v.page.count with
  | none => simp
  | some n => simp [taken]

theorem loop_of_fetched {initialOffset left : ℕ} {done : List Visit} {v : Visit}
    (h : fetchPage c req.path (fun attempt => server done.length attempt v.path v.query)
      c.maxRetries 0 = .ok v.page) :
    loop c req server initialOffset (left + 1) (loopAt c req done v.toCursor) =
      match takeIn c req (loopAt c req done v.toCursor) v.page with
      | .error e => ⟨.error e, done.length + 1, done ++ [⟨v.toCursor, v.page⟩]⟩
      | .ok s => match v.page.next with
        | none => ⟨finish req initialOffset s, done.length + 1, s.visits⟩
        | some next => match advance c req left s v.page next with
          | .error e => ⟨.error e, done.length + 1, s.visits⟩
          | .ok s => loop c req server initialOffset left s := by
  have hfetched : fetchPage c req.path (fun attempt =>
      server (loopAt c req done v.toCursor).visits.length attempt
        (loopAt c req done v.toCursor).path (loopAt c req done v.toCursor).query)
      c.maxRetries 0 = .ok v.page := h
  rw [loop, hfetched]
  rfl

/-- A chain of accepted pages is what the loop fetches and returns. -/
theorem loop_of_accepts {initialOffset left : ℕ} {done visits : List Visit} {cursor : Cursor}
    (h : Accepts c req server initialOffset left done cursor visits) :
    loop c req server initialOffset left (loopAt c req done cursor) =
      ⟨.ok (records (done ++ visits)), (done ++ visits).length, done ++ visits⟩ := by
  induction h with
  | @last left done v fetched fits final total =>
    have htake := (takeIn_loopAt c req).mpr ⟨fits, rfl⟩
    have hfinish := (finish_taken c req fits.count).mpr ⟨total, rfl⟩
    rw [loop_of_fetched c req server fetched]
    rw [htake, final]
    dsimp only
    rw [hfinish]
    simp [taken]
  | @more left done v next cursor visits fetched fits link leads rest ih =>
    have htake := (takeIn_loopAt c req).mpr ⟨fits, rfl⟩
    have hadvance := (advance_taken c req).mpr ⟨cursor, leads, rfl⟩
    rw [taken_advanced c req leads (by simp)] at hadvance
    rw [loop_of_fetched c req server fetched]
    rw [htake, link]
    dsimp only
    rw [hadvance]
    dsimp only
    rw [ih]
    simp

/-- What the loop returns comes from a chain of accepted pages. -/
theorem accepts_of_loop {initialOffset left : ℕ} {done : List Visit} {cursor : Cursor}
    {rs : List Record}
    (h : (loop c req server initialOffset left (loopAt c req done cursor)).result = .ok rs) :
    ∃ visits, Accepts c req server initialOffset left done cursor visits := by
  induction left generalizing done cursor with
  | zero => simp [loop] at h
  | succ left ih =>
    unfold loop at h
    dsimp only at h
    split at h
    · simp at h
    · rename_i page hfetch
      -- the page and the cursor it was read at make the visit
      have hvisit : (loopAt c req done cursor) =
          loopAt c req done (Visit.toCursor ⟨cursor, page⟩) := rfl
      rw [hvisit] at h
      split at h
      · simp at h
      · rename_i s htake
        obtain ⟨fits, rfl⟩ := (takeIn_loopAt c req (v := ⟨cursor, page⟩)).mp htake
        split at h
        · rename_i hnone
          obtain ⟨total, -⟩ := (finish_taken c req fits.count).mp h
          exact ⟨_, .last hfetch fits hnone total⟩
        · rename_i next hnext
          split at h
          · simp at h
          · rename_i s hadvance
            obtain ⟨cursor', leads, rfl⟩ := (advance_taken c req (v := ⟨cursor, page⟩)).mp hadvance
            rw [taken_advanced c req leads (by simp)] at h
            obtain ⟨visits, hrest⟩ := ih h
            exact ⟨_, .more hfetch fits hnext leads hrest⟩

/-- The loop makes at most one fetch a page. -/
theorem loop_fetches_le {initialOffset left n : ℕ} {done : List Visit} {cursor : Cursor}
    (h : done.length + left ≤ n) :
    (loop c req server initialOffset left (loopAt c req done cursor)).fetches ≤ n := by
  induction left generalizing done cursor with
  | zero => simpa [loop, loopAt] using h
  | succ left ih =>
    have hone : (loopAt c req done cursor).visits.length + 1 ≤ n := by
      change done.length + 1 ≤ n
      omega
    unfold loop
    dsimp only
    split
    · exact hone
    · rename_i page hfetch
      have hvisit : (loopAt c req done cursor) =
          loopAt c req done (Visit.toCursor ⟨cursor, page⟩) := rfl
      split
      · exact hone
      · rename_i s htake
        rw [hvisit] at htake
        obtain ⟨-, rfl⟩ := (takeIn_loopAt c req (v := ⟨cursor, page⟩)).mp htake
        split
        · exact hone
        · split
          · exact hone
          · rename_i next hnext s hadvance
            obtain ⟨cursor', leads, rfl⟩ := (advance_taken c req (v := ⟨cursor, page⟩)).mp hadvance
            rw [taken_advanced c req leads (by simp)]
            apply ih
            rw [List.length_append, List.length_singleton]
            omega

/-- What the pages fetched so far say, the loop being at a cursor after them. -/
structure Sound (initialOffset : ℕ) (done : List Visit) (cursor : Cursor) : Prop where
  distinct : ((records done).map (recordSignature c)).Nodup
  requests : ∀ v : Cursor, v = cursor ∨ v ∈ done.map Visit.toCursor →
    v.path = req.normalizedPath ∧ queryMultimap c v.query = queryMultimap c req.query ∧
      validatedOffset req.path v.query false "Initial query" = .ok v.offset
  contiguous : ∀ (i : ℕ) (v : Cursor), (done.map Visit.toCursor ++ [cursor])[i]? = some v →
    v.offset = initialOffset + (records (done.take i)).length
  counted : ∀ v ∈ done, ∀ w ∈ done, v.page.count = w.page.count

/-- The list returned is whole: the pages concatenated, without a repetition or a gap, under
one count and within the ceilings. -/
structure Complete (initialOffset : ℕ) (visits : List Visit) (rs : List Record) : Prop where
  concatenated : rs.map Json.obj = visits.flatMap fun v => v.page.items
  distinct : (rs.map (recordSignature c)).Nodup
  requests : ∀ v ∈ visits, v.path = req.normalizedPath ∧
    queryMultimap c v.query = queryMultimap c req.query ∧
      validatedOffset req.path v.query false "Initial query" = .ok v.offset
  contiguous : ∀ (i : ℕ) (v : Visit), visits[i]? = some v →
    v.offset = initialOffset + (records (visits.take i)).length
  counted : ∃ count : Option ℕ, (∀ v ∈ visits, v.page.count = count) ∧
    ∀ n, count = some n → rs.length = n - initialOffset
  hard : rs.length ≤ hardMaxRecords
  explicit : ∀ m, req.maxRecords = some m → (rs.length : ℤ) ≤ m

/-- A run from `cache` raises and leaves nothing new cached, or returns what the cache serves
for the query, or returns a whole list. -/
structure AllOrNothing (readAt : ℕ) (cache : Cache Record) (run : Outcome × Cache Record) :
    Prop where
  fetches : run.1.fetches ≤ hardMaxPages
  raised : ∀ e, run.1.result = .error e → ∀ kv ∈ run.2, kv ∈ cache
  returned : ∀ rs, run.1.result = .ok rs →
    ((read c.cfg readAt (key c req) cache).1 = some rs ∧ run.1.fetches = 0 ∧
      ∀ m, req.maxRecords = some m → (rs.length : ℤ) ≤ m) ∨
    ∃ offset, initialOffset req = .ok offset ∧ Complete c req offset run.1.visits rs

def firstCursor (offset : ℕ) : Cursor := ⟨req.normalizedPath, req.query, offset⟩

/-- Unless the cache serves the query, every page of a chain that passes the other guards has
only objects among its results. -/
def OnlyObjects (readAt : ℕ) (cache : Cache Record) : Prop :=
  ∀ offset, initialOffset req = .ok offset → (read c.cfg readAt (key c req) cache).1 = none →
    ∀ visits, Accepts c req server offset hardMaxPages [] (firstCursor req offset) visits →
      ∀ v ∈ visits, ∀ item ∈ v.page.items, ∃ fields, item = Json.obj fields

theorem validatedOffset_relax {path label label' : String} {q : Query} {required : Bool} {n : ℕ}
    (h : validatedOffset path q required label = .ok n) :
    validatedOffset path q false label' = .ok n := by
  unfold validatedOffset at h ⊢
  cases hget : Dict.get "offset" q with
  | none =>
    rw [hget] at h
    cases required with
    | true => simp at h
    | false => exact h
  | some raw =>
    rw [hget] at h
    dsimp only at h ⊢
    cases hparse : paginationOffset q with
    | error e => simp [hparse, bind, Except.bind] at h
    | ok offset =>
      rw [hparse] at h
      cases offset with
      | none => simp [bind, Except.bind] at h
      | some n => exact h

theorem pageOf_records {path : String} {results nextLink : Json} {count : Option ℕ} {page : Page}
    (h : pageOf c path results nextLink count = .ok page) :
    page.records = page.items.map toDict := by
  unfold pageOf at h
  split at h
  · cases hnext : parseNextLink c nextLink with
    | error e => simp [hnext, bind, Except.bind] at h
    | ok next =>
      simp only [hnext, bind, Except.bind] at h
      split at h
      · simp at h
      · exact (Except.ok.inj h) ▸ rfl
  · simp at h

theorem readPage_records {path : String} {reply : Reply} {page : Page}
    (h : readPage c path reply = .ok page) : page.records = page.items.map toDict := by
  cases reply with
  | raises e => simp [readPage] at h
  | payload payload =>
    simp only [readPage] at h
    cases hparts : pageParts path payload with
    | error e => simp [hparts, bind, Except.bind] at h
    | ok parts =>
      rw [hparts] at h
      exact pageOf_records c h

theorem fetchPage_records {path : String} {replies : ℕ → Reply} {left attempt : ℕ} {page : Page}
    (h : fetchPage c path replies left attempt = .ok page) :
    page.records = page.items.map toDict := by
  induction left generalizing attempt with
  | zero => exact readPage_records c h
  | succ left ih =>
    unfold fetchPage at h
    split at h
    · rename_i hread
      simp only [Except.ok.injEq] at h
      exact readPage_records c (h ▸ hread)
    · split at h
      · exact ih h
      · simp at h

theorem Accepts.records_eq {offset left : ℕ} {done visits : List Visit} {cursor : Cursor}
    (h : Accepts c req server offset left done cursor visits) :
    ∀ v ∈ visits, v.page.records = v.page.items.map toDict := by
  induction h with
  | last fetched => simpa using fetchPage_records c fetched
  | more fetched _ _ _ _ ih =>
    intro v hv
    rcases List.mem_cons.mp hv with rfl | hv
    · exact fetchPage_records c fetched
    · exact ih v hv

/-- The records are the items as they came exactly when every item is an object. -/
theorem concatenated_iff {visits : List Visit}
    (h : ∀ v ∈ visits, v.page.records = v.page.items.map toDict) :
    (records visits).map Json.obj = visits.flatMap (fun v => v.page.items) ↔
      ∀ v ∈ visits, ∀ item ∈ v.page.items, ∃ fields, item = Json.obj fields := by
  have hrecords : records visits = (visits.flatMap fun v => v.page.items).map toDict := by
    rw [List.map_flatMap]
    exact List.flatMap_congr h
  have hobj : ∀ item, Json.obj (toDict item) = item ↔ ∃ fields, item = Json.obj fields := by
    intro item
    cases item <;> simp [toDict]
  rw [hrecords, List.map_map]
  constructor
  · intro heq v hv item hitem
    have hmem : item ∈ visits.flatMap fun v => v.page.items := List.mem_flatMap.mpr ⟨v, hv, hitem⟩
    rw [← hobj]
    exact List.map_inj_left.mp (heq.trans (List.map_id _).symm) item hmem
  · intro hall
    refine (List.map_congr_left ?_).trans (List.map_id _)
    intro item hitem
    obtain ⟨v, hv, hitem⟩ := List.mem_flatMap.mp hitem
    exact (hobj item).mpr (hall v hv item hitem)

theorem sound_start {offset : ℕ} (h : initialOffset req = .ok offset) :
    Sound c req offset [] (firstCursor req offset) := by
  have hoffset : validatedOffset req.path req.query false "Initial query" = .ok offset := by
    unfold initialOffset at h
    cases hvalid : validatedOffset req.path req.query false "Initial query" with
    | error e => simp [hvalid, bind, Except.bind] at h
    | ok n =>
      rw [hvalid] at h
      change (refuseIf _ _ >>= _) = Except.ok offset at h
      exact congrArg Except.ok (Except.ok.inj (refuseIf_bind.mp h).2)
  refine ⟨List.nodup_nil, ?_, ?_, ?_⟩
  · rintro v (rfl | hv)
    · exact ⟨rfl, rfl, hoffset⟩
    · simp at hv
  · intro i v hv
    cases i with
    | zero =>
      obtain rfl : firstCursor req offset = v := by simpa using hv
      rfl
    | succ i => simp at hv
  · simp

theorem PageFits.distinct_snoc {done : List Visit} {v : Visit} (h : PageFits c req done v)
    (hdone : ((records done).map (recordSignature c)).Nodup) :
    ((records (done ++ [v])).map (recordSignature c)).Nodup := by
  rw [records_snoc, List.map_append, List.nodup_append]
  refine ⟨hdone, h.distinct, ?_⟩
  rintro x hx y hy rfl
  exact h.fresh x hy hx

theorem PageFits.counted_snoc {done : List Visit} {v : Visit} (h : PageFits c req done v)
    (hdone : ∀ u ∈ done, ∀ w ∈ done, u.page.count = w.page.count) :
    ∀ u ∈ done ++ [v], ∀ w ∈ done ++ [v], u.page.count = w.page.count := by
  have hv : ∀ u ∈ done, v.page.count = u.page.count := by
    intro u hu
    cases done with
    | nil => simp at hu
    | cons w done => exact (h.count w rfl).trans (hdone w (by simp) u hu)
  intro u hu w hw
  simp only [List.mem_append, List.mem_singleton] at hu hw
  rcases hu with hu | rfl
  · rcases hw with hw | rfl
    · exact hdone u hu w hw
    · exact (hv u hu).symm
  · rcases hw with hw | rfl
    · exact hv w hw
    · rfl

/-- A page taken in and a next link followed keep what the pages say. -/
theorem sound_step {offset left : ℕ} {done : List Visit} {v : Visit} {next : String × Query}
    {cursor : Cursor} (h : Sound c req offset done v.toCursor) (fits : PageFits c req done v)
    (leads : LinkFits c req left (done ++ [v]) v next cursor) :
    Sound c req offset (done ++ [v]) cursor := by
  refine ⟨fits.distinct_snoc c req h.distinct, ?_, ?_, fits.counted_snoc c req h.counted⟩
  · rintro u (rfl | hu)
    · refine ⟨leads.cursorPath, ?_, ?_⟩
      · rw [leads.cursorQuery]
        exact leads.filters
      · rw [leads.cursorQuery]
        exact validatedOffset_relax leads.offset
    · rw [List.map_append, List.mem_append] at hu
      rcases hu with hu | hu
      · exact h.requests u (Or.inr hu)
      · exact h.requests u (Or.inl (by simpa using hu))
  · intro i u hu
    rw [List.map_append, List.map_singleton] at hu
    by_cases hi : i < done.length + 1
    · -- the cursors up to the page just read are as before
      rw [List.getElem?_append_left (by simpa using hi)] at hu
      rw [List.take_append_of_le_length (by omega)]
      exact h.contiguous i u hu
    · have hlen : i = done.length + 1 := by
        have hlt := (List.getElem?_eq_some_iff.mp hu).1
        simp only [List.length_append, List.length_map, List.length_singleton] at hlt
        omega
      obtain rfl : cursor = u := by
        rw [hlen, List.getElem?_append_right (by simp)] at hu
        simpa using hu
      have hv := h.contiguous done.length v.toCursor
        (by rw [List.getElem?_append_right (by simp)]; simp)
      rw [List.take_length] at hv
      have hall : (done ++ [v]).take i = done ++ [v] := List.take_of_length_le (by simp [hlen])
      rw [leads.contiguous, hv, hall, records_snoc, List.length_append, Nat.add_assoc]

/-- A chain of accepted pages is whole, provided its items are objects. -/
theorem complete_of_accepts {offset left : ℕ} {done visits : List Visit} {cursor : Cursor}
    (hsound : Sound c req offset done cursor)
    (h : Accepts c req server offset left done cursor visits)
    (hitems : (records (done ++ visits)).map Json.obj =
      (done ++ visits).flatMap fun v => v.page.items) :
    Complete c req offset (done ++ visits) (records (done ++ visits)) := by
  induction h with
  | @last left done v fetched fits final total =>
    have hcursors : done.map Visit.toCursor ++ [v.toCursor] = (done ++ [v]).map Visit.toCursor := by
      simp
    refine ⟨hitems, fits.distinct_snoc c req hsound.distinct, ?_, ?_, ⟨v.page.count, ?_, total⟩,
      ?_, ?_⟩
    · intro u hu
      rcases List.mem_append.mp hu with hu | hu
      · exact hsound.requests u.toCursor (Or.inr (List.mem_map_of_mem hu))
      · obtain rfl := List.mem_singleton.mp hu
        exact hsound.requests u.toCursor (Or.inl rfl)
    · intro i u hu
      have hi : i < done.length + 1 := by
        simpa using (List.getElem?_eq_some_iff.mp hu).1
      rw [List.take_append_of_le_length (by omega)]
      apply hsound.contiguous
      rw [hcursors, List.getElem?_map, hu]
      rfl
    · intro u hu
      exact fits.counted_snoc c req hsound.counted u hu v (by simp)
    · rw [records_snoc, List.length_append]
      exact fits.hard
    · rw [records_snoc, List.length_append]
      exact fits.explicit
  | more fetched fits link leads rest ih =>
    have hassoc := ih (sound_step c req hsound fits leads)
    rw [List.append_assoc] at hassoc
    exact hassoc hitems

/-- A traversal that the cache does not serve, by the loop's outcome. -/
theorem traverse_miss (writeAt : ℕ) {readAt offset : ℕ} {cache : Cache Record}
    (hoffset : initialOffset req = .ok offset)
    (hmiss : (read c.cfg readAt (key c req) cache).1 = none) :
    traverse c req server readAt writeAt cache =
      let outcome := loop c req server offset hardMaxPages (loopAt c req [] (firstCursor req offset))
      match outcome.result with
      | .error _ => (outcome, (read c.cfg readAt (key c req) cache).2)
      | .ok rs => (outcome, write c.cfg writeAt (key c req) rs
          (read c.cfg readAt (key c req) cache).2) := by
  unfold traverse
  rw [hoffset]
  rcases hread : read c.cfg readAt (key c req) cache with ⟨served, left⟩
  rw [hread] at hmiss
  obtain rfl : served = none := hmiss
  rfl

theorem traverse_fetches_le (readAt writeAt : ℕ) (cache : Cache Record) :
    (traverse c req server readAt writeAt cache).1.fetches ≤ hardMaxPages := by
  cases hoffset : initialOffset req with
  | error e => simp [traverse, hoffset]
  | ok offset =>
    cases hread : (read c.cfg readAt (key c req) cache).1 with
    | none =>
      rw [traverse_miss c req server writeAt hoffset hread]
      dsimp only
      split <;> exact loop_fetches_le c req server (by simp)
    | some cached =>
      unfold traverse
      rcases hpair : read c.cfg readAt (key c req) cache with ⟨served, left⟩
      rw [hpair] at hread
      obtain rfl : served = some cached := hread
      rw [hoffset]
      dsimp only
      split <;> simp

theorem traverse_raised {readAt writeAt : ℕ} {cache : Cache Record} {e : Raised}
    (h : (traverse c req server readAt writeAt cache).1.result = .error e) :
    ∀ kv ∈ (traverse c req server readAt writeAt cache).2, kv ∈ cache := by
  have hsubset := read_subset c.cfg readAt (key c req) cache
  cases hoffset : initialOffset req with
  | error e =>
    intro kv hkv
    simpa [traverse, hoffset] using hkv
  | ok offset =>
    cases hread : (read c.cfg readAt (key c req) cache).1 with
    | none =>
      rw [traverse_miss c req server writeAt hoffset hread] at h ⊢
      dsimp only at h ⊢
      split at h
      · exact fun kv hkv => hsubset hkv
      · rename_i hok
        rw [hok] at h
        simp at h
    | some cached =>
      unfold traverse
      rcases hpair : read c.cfg readAt (key c req) cache with ⟨served, left⟩
      rw [hpair] at hread hsubset
      obtain rfl : served = some cached := hread
      rw [hoffset]
      dsimp only
      split <;> exact fun kv hkv => hsubset hkv

/-- A traversal is all or nothing exactly when it takes in no result that is not an object. -/
theorem allOrNothing_iff (readAt writeAt : ℕ) (cache : Cache Record) :
    AllOrNothing c req readAt cache (traverse c req server readAt writeAt cache) ↔
      OnlyObjects c req server readAt cache := by
  constructor
  · intro h offset hoffset hmiss visits hvisits
    have hloop := loop_of_accepts c req server hvisits
    have hrun := traverse_miss c req server writeAt hoffset hmiss
    rw [hloop] at hrun
    rw [List.nil_append] at hrun
    rw [hrun] at h
    rcases h.returned _ rfl with ⟨hserved, -⟩ | ⟨offset', -, hcomplete⟩
    · rw [hmiss] at hserved
      simp at hserved
    · exact (concatenated_iff (hvisits.records_eq c req server)).mp hcomplete.concatenated
  · intro h
    refine ⟨traverse_fetches_le c req server readAt writeAt cache, fun e => traverse_raised c req
      server, ?_⟩
    intro rs hrs
    cases hoffset : initialOffset req with
    | error e => simp [traverse, hoffset] at hrs
    | ok offset =>
      cases hread : (read c.cfg readAt (key c req) cache).1 with
      | some cached =>
        left
        unfold traverse at hrs ⊢
        rcases hpair : read c.cfg readAt (key c req) cache with ⟨served, left⟩
        rw [hpair] at hread
        obtain rfl : served = some cached := hread
        rw [hoffset, hpair] at hrs
        dsimp only at hrs ⊢
        split at hrs
        · simp at hrs
        · rename_i hmax
          obtain rfl : cached = rs := by simpa using hrs
          rw [hoffset]
          dsimp only
          rw [if_neg hmax]
          exact ⟨rfl, rfl, exceeds_iff.mp hmax⟩
      | none =>
        right
        rw [traverse_miss c req server writeAt hoffset hread] at hrs ⊢
        dsimp only at hrs ⊢
        have hok : (loop c req server offset hardMaxPages
            (loopAt c req [] (firstCursor req offset))).result = .ok rs := by
          split at hrs <;> exact hrs
        obtain ⟨visits, hvisits⟩ := accepts_of_loop c req server hok
        have hloop := loop_of_accepts c req server hvisits
        rw [List.nil_append] at hloop
        rw [hloop] at hok ⊢
        obtain rfl : records visits = rs := by simpa using hok
        have hitems := (concatenated_iff (hvisits.records_eq c req server)).mpr
          (h offset hoffset hread visits hvisits)
        exact ⟨offset, rfl, complete_of_accepts c req server (sound_start c req hoffset) hvisits
          hitems⟩

/-- A reader of small collections of empty objects, with the default settings. -/
def plainClient : Client where
  cfg := Config.defaults (fun rs => max 2 (4 * rs.length)) rfl
  api := 1
  maxRetries := 5
  py := Python.ascii
  dumpsQuery := fun _ => ""
  dumpsRecord := fun _ => "{}"
  splitUrl := fun url => .ok (url, [])

def tagsRequest : Request := ⟨"/api/extras/tags/", [], none, none⟩

/-- `{"count": 1, "next": null, "results": [null]}`. -/
def nullResult : Json :=
  .obj [("count", .int 1), ("next", .null), ("results", .arr [.null])]

def nullVisit : Visit :=
  ⟨firstCursor tagsRequest 0, ⟨[.null], [[]], none, some 1⟩⟩

theorem accepts_nullVisit : Accepts plainClient tagsRequest (fun _ _ _ _ => .payload nullResult) 0
    hardMaxPages [] (firstCursor tagsRequest 0) [nullVisit] := by
  have hfits : PageFits plainClient tagsRequest [] nullVisit := by
    refine ⟨by simp, ?_, by simp [nullVisit], by simp [records], by decide, ?_⟩
    · rintro - n hn
      obtain rfl : 1 = n := by simpa [nullVisit] using hn
      decide
    · rintro m hm
      simp [tagsRequest] at hm
  refine .last (v := nullVisit) rfl hfits rfl ?_
  intro n hn
  obtain rfl : 1 = n := by simpa [nullVisit] using hn
  rfl

/-- A `null` among the results comes back as an empty record. -/
theorem null_returned_as_record : ¬ AllOrNothing plainClient tagsRequest 0 []
    (traverse plainClient tagsRequest (fun _ _ _ _ => .payload nullResult) 0 0 []) := by
  intro h
  have hoffset : initialOffset tagsRequest = .ok 0 := rfl
  have hmiss : (read plainClient.cfg 0 (key plainClient tagsRequest) []).1 = none := rfl
  have hrun := traverse_miss plainClient tagsRequest (fun _ _ _ _ => .payload nullResult) 0
    hoffset hmiss
  rw [loop_of_accepts plainClient tagsRequest _ accepts_nullVisit, List.nil_append] at hrun
  rw [hrun] at h
  rcases h.returned _ rfl with ⟨hserved, -⟩ | ⟨offset, -, hcomplete⟩
  · rw [hmiss] at hserved
    simp at hserved
  · have hitems := hcomplete.concatenated
    simp [records, nullVisit] at hitems

/-- The checks `rest_list_paginated_async` makes itself are made again by the traversal. -/
theorem listPaginated_eq (path : String) (baseQuery : Query) (pageSize : ℤ)
    (maxOffset : Option ℤ) (readAt writeAt : ℕ) (cache : Cache Record) :
    ∃ offset, listPaginated c path baseQuery pageSize maxOffset server readAt writeAt cache =
      traverse c (paginatedRequest path baseQuery pageSize maxOffset offset) server readAt writeAt
        cache := by
  cases hoffset : validatedOffset path (Dict.set "limit" (.int (max 1 pageSize)) baseQuery) false
      "Initial query" with
  | error e =>
    refine ⟨0, ?_⟩
    simp [listPaginated, traverse, initialOffset, paginatedRequest, hoffset, bind, Except.bind]
  | ok offset =>
    refine ⟨offset, ?_⟩
    by_cases hmax : exceeds offset (maxOffset.map (max 0)) = true
    · simp [listPaginated, traverse, initialOffset, paginatedRequest, hoffset, bind, Except.bind,
        hmax, refuseIf]
    · simp [listPaginated, hoffset, hmax]

end ProxboxApi.Pagination
