import ProxboxApi.BulkLookups

/-! The entry of a payload as an upsert by its lookup key, which `rest_reconcile_async` performs. -/

namespace ProxboxApi.BulkReconcile

open Requests Reconcile
open RestCreate (Query)
open VmQueue (field)

variable (b : BulkCall) (store : Store)

/-- An entry as an upsert: it patches the record with its key, or is created. -/
def BulkCall.spec : Upsert.Spec Stored Entry Key where
  rowKey s := (b.current s.serve).bind b.keyOf
  key := Entry.key
  change e s := match b.current s.serve with
    | none => s
    | some current =>
      let patch := b.patchPayload e.desired current
      if patch.isEmpty then s else s.patched store patch
  make id e := ⟨id, store.make e.desired⟩

/-- A collection with one record for a key at most, in which the lookup of an entry selects only a
record with exactly its key. -/
structure BulkCall.Ready (entries : List Entry) (t : Upsert.Table Stored) : Prop where
  ids : (t.rows.map Stored.id).Nodup
  next : ∀ s ∈ t.rows, s.id < t.next
  hashable : ∀ s ∈ t.rows, ∀ current, b.current s.serve = some current →
    ∃ key, lookupTuple (buildLookupDictFromFields b.lookupFields current) = .ok key
  unique : ∀ s ∈ t.rows, ∀ s' ∈ t.rows, ∀ key, (b.current s.serve).bind b.keyOf = some key →
    (b.current s'.serve).bind b.keyOf = some key → s = s'
  exact : ∀ e ∈ entries, ∀ s ∈ t.rows, ∀ current, b.current s.serve = some current →
    agrees e.lookup current = true → b.keyOf current = some e.key

/-- No lookup of an entry is a part of the lookup of another. -/
def Apart (entries : List Entry) : Prop :=
  ∀ e ∈ entries, ∀ e' ∈ entries, agrees e.lookup e'.desired = true → e'.key = e.key

section Upserts

variable {b store} {current : Record} {key : Key} {e : Entry} {s : Stored}
  {entries : List Entry} {t : Upsert.Table Stored}

theorem keyOf_eq_some_iff : b.keyOf current = some key ↔
    lookupTuple (buildLookupDictFromFields b.lookupFields current) = .ok (some key) := by
  unfold BulkCall.keyOf
  split <;> simp_all

theorem hits_iff_rowKey : (b.spec store).hits e s = true ↔
    (b.current s.serve).bind b.keyOf = some e.key := by
  rw [Upsert.Spec.hits, decide_eq_true_eq]
  rfl

theorem hits_iff : (b.spec store).hits e s = true ↔ ∃ current, b.current s.serve = some current ∧
    lookupTuple (buildLookupDictFromFields b.lookupFields current) = .ok (some e.key) := by
  simp only [hits_iff_rowKey, Option.bind_eq_some_iff, keyOf_eq_some_iff]

theorem change_eq (hcurrent : b.current s.serve = some current) :
    (b.spec store).change e s =
      if (b.patchPayload e.desired current).isEmpty then s
      else s.patched store (b.patchPayload e.desired current) := by
  dsimp only [BulkCall.spec]
  rw [hcurrent]

theorem SameLookups.symm {lookupFields : List String} {current current' : Record}
    (h : SameLookups lookupFields current current') :
    SameLookups lookupFields current' current := by
  intro k hk
  obtain ⟨hblank, hvalue⟩ := h k hk
  refine ⟨hblank.symm, ?_⟩
  intro hnonempty
  exact (hvalue (hblank.trans hnonempty)).symm

/-- What an upsert makes of the record with the key of the entry. -/
theorem change_rule (hidem : Idempotent b store) (he : b.Sound e)
    (hhit : (b.spec store).hits e s = true) : ((b.spec store).change e s).id = s.id ∧
      ∃ current current', b.current s.serve = some current ∧
        b.current ((b.spec store).change e s).serve = some current' ∧
          SameLookups b.lookupFields current current' ∧
            b.patchPayload e.desired current' = [] := by
  obtain ⟨current, hcurrent, hkey⟩ := hits_iff.mp hhit
  dsimp only [BulkCall.spec]
  rw [hcurrent]
  dsimp only
  split
  · rename_i hempty
    exact ⟨rfl, current, current, rfl, hcurrent, fun _ _ => ⟨rfl, fun _ => rfl⟩, by simpa using hempty⟩
  · obtain ⟨current', hcurrent', hsame, hnil⟩ := patched_rule hidem he hcurrent hkey
    exact ⟨rfl, current, current', rfl, hcurrent', hsame, hnil⟩

theorem keyed (hidem : Idempotent b store) (he : b.Sound e) : (b.spec store).Keyed e where
  change s hhit := by
    obtain ⟨current, hcurrent, hkey⟩ := hits_iff.mp hhit
    obtain ⟨_, current₁, current', hcurrent₁, hcurrent', hsame, _⟩ := change_rule hidem he hhit
    obtain rfl : current = current₁ := by simpa using hcurrent.symm.trans hcurrent₁
    exact hits_iff.mpr ⟨current', hcurrent', hsame.lookupTuple_eq hkey⟩
  make id := by
    obtain ⟨current, hcurrent, hsame, _⟩ := created_rule hidem he id
    exact hits_iff.mpr ⟨current, hcurrent, hsame.lookupTuple_eq he.key⟩

/-- Records may be changed that keep their lookups. -/
theorem BulkCall.Ready.map (h : b.Ready entries t) (hsound : ∀ e ∈ entries, b.Sound e) {f : Stored → Stored}
    (hf : ∀ s ∈ t.rows, (f s).id = s.id ∧ ∀ current', b.current (f s).serve = some current' →
      ∃ current, b.current s.serve = some current ∧
        SameLookups b.lookupFields current current') :
    b.Ready entries { t with rows := t.rows.map f } where
  ids := by
    have hids : (t.rows.map f).map Stored.id = t.rows.map Stored.id := by
      rw [List.map_map]
      exact List.map_congr_left fun s hs => (hf s hs).1
    rw [hids]
    exact h.ids
  next := by
    intro s' hs'
    obtain ⟨s, hs, rfl⟩ := List.mem_map.mp hs'
    rw [(hf s hs).1]
    exact h.next s hs
  hashable := by
    intro s' hs' current' hcurrent'
    obtain ⟨s, hs, rfl⟩ := List.mem_map.mp hs'
    obtain ⟨current, hcurrent, hsame⟩ := (hf s hs).2 current' hcurrent'
    obtain ⟨key, hkey⟩ := h.hashable s hs current hcurrent
    exact ⟨key, hsame.lookupTuple_eq hkey⟩
  unique := by
    have hbefore : ∀ s ∈ t.rows, ∀ key, (b.current (f s).serve).bind b.keyOf = some key →
        (b.current s.serve).bind b.keyOf = some key := by
      intro s hs key hkey
      obtain ⟨current', hcurrent', hkey'⟩ := Option.bind_eq_some_iff.mp hkey
      obtain ⟨current, hcurrent, hsame⟩ := (hf s hs).2 current' hcurrent'
      rw [keyOf_eq_some_iff] at hkey'
      rw [hcurrent, Option.bind_some, keyOf_eq_some_iff]
      exact hsame.symm.lookupTuple_eq hkey'
    intro s₁' hs₁' s₂' hs₂' key hkey₁ hkey₂
    obtain ⟨s₁, hs₁, rfl⟩ := List.mem_map.mp hs₁'
    obtain ⟨s₂, hs₂, rfl⟩ := List.mem_map.mp hs₂'
    rw [h.unique s₁ hs₁ s₂ hs₂ key (hbefore s₁ hs₁ key hkey₁) (hbefore s₂ hs₂ key hkey₂)]
  exact := by
    intro e he s' hs' current' hcurrent' hagrees
    obtain ⟨s, hs, rfl⟩ := List.mem_map.mp hs'
    obtain ⟨current, hcurrent, hsame⟩ := (hf s hs).2 current' hcurrent'
    have hlookup := (hsound e he).lookup
    rw [hlookup] at hagrees
    have hkey := h.exact e he s hs current hcurrent
      (by rw [hlookup]; exact hsame.agrees_of_agrees (hsound e he).key hagrees)
    rw [keyOf_eq_some_iff] at hkey ⊢
    exact hsame.lookupTuple_eq hkey

/-- A record may be created for an entry whose key no record has. -/
theorem BulkCall.Ready.append (h : b.Ready entries t) (hidem : Idempotent b store)
    (hsound : ∀ e ∈ entries, b.Sound e) (hapart : Apart entries) (he : e ∈ entries)
    (hnone : t.rows.any ((b.spec store).hits e) = false) :
    b.Ready entries
      { rows := t.rows ++ [⟨t.next, store.make e.desired⟩], next := t.next + 1 } := by
  obtain ⟨current, hcurrent, hsame, _⟩ := created_rule hidem (hsound e he) t.next
  have hkey : lookupTuple (buildLookupDictFromFields b.lookupFields current) = .ok (some e.key) :=
    hsame.lookupTuple_eq (hsound e he).key
  have hother : ∀ s ∈ t.rows, (b.current s.serve).bind b.keyOf ≠ some e.key := by
    intro s hs heq
    exact List.any_eq_false.mp hnone s hs (hits_iff_rowKey.mpr heq)
  have hnew : (b.current (Stored.serve ⟨t.next, store.make e.desired⟩)).bind b.keyOf =
      some e.key := by
    rw [hcurrent, Option.bind_some, keyOf_eq_some_iff]
    exact hkey
  refine ⟨?_, ?_, ?_, ?_, ?_⟩
  · rw [List.map_append, List.map_singleton, List.nodup_append]
    refine ⟨h.ids, List.nodup_singleton _, ?_⟩
    intro id hid id' hid'
    obtain ⟨s, hs, rfl⟩ := List.mem_map.mp hid
    rw [List.mem_singleton] at hid'
    exact hid' ▸ (h.next s hs).ne
  · intro s hs
    dsimp only at hs ⊢
    rcases List.mem_append.mp hs with hs | hs
    · have := h.next s hs
      omega
    · rw [List.mem_singleton.mp hs]
      dsimp only
      omega
  · intro s hs current' hcurrent'
    rcases List.mem_append.mp hs with hs | hs
    · exact h.hashable s hs current' hcurrent'
    · rw [List.mem_singleton.mp hs, hcurrent, Option.some.injEq] at hcurrent'
      exact ⟨some e.key, hcurrent' ▸ hkey⟩
  · intro s₁ hs₁ s₂ hs₂ key hkey₁ hkey₂
    rcases List.mem_append.mp hs₁ with hs₁ | hs₁ <;> rcases List.mem_append.mp hs₂ with hs₂ | hs₂
    · exact h.unique s₁ hs₁ s₂ hs₂ key hkey₁ hkey₂
    · rw [List.mem_singleton.mp hs₂, hnew] at hkey₂
      exact absurd (hkey₁.trans hkey₂.symm) (hother s₁ hs₁)
    · rw [List.mem_singleton.mp hs₁, hnew] at hkey₁
      exact absurd (hkey₂.trans hkey₁.symm) (hother s₂ hs₂)
    · rw [List.mem_singleton.mp hs₁, List.mem_singleton.mp hs₂]
  · intro e' he' s hs current' hcurrent' hagrees
    rcases List.mem_append.mp hs with hs | hs
    · exact h.exact e' he' s hs current' hcurrent' hagrees
    · rw [List.mem_singleton.mp hs, hcurrent, Option.some.injEq] at hcurrent'
      subst hcurrent'
      have hlookup := (hsound e' he').lookup
      rw [hlookup] at hagrees
      have hdesired : agrees e'.lookup e.desired = true := by
        rw [hlookup]
        exact hsame.agrees_of_agrees (hsound e' he').key hagrees
      rw [keyOf_eq_some_iff, ← hapart e' he' e he hdesired]
      exact hkey

theorem BulkCall.Ready.upsert (h : b.Ready entries t) (hidem : Idempotent b store)
    (hsound : ∀ e ∈ entries, b.Sound e) (hapart : Apart entries) (he : e ∈ entries) :
    b.Ready entries ((b.spec store).upsert t e) := by
  unfold Upsert.Spec.upsert
  split
  · apply h.map hsound
    intro s _
    split
    · rename_i hhit
      obtain ⟨hid, current, current', hcurrent, hcurrent', hsame, _⟩ :=
        change_rule hidem (hsound e he) hhit
      refine ⟨hid, ?_⟩
      intro current'' hcurrent''
      obtain rfl : current' = current'' := by simpa using hcurrent'.symm.trans hcurrent''
      exact ⟨current, hcurrent, hsame⟩
    · exact ⟨rfl, fun current hcurrent => ⟨current, hcurrent, fun _ _ => ⟨rfl, fun _ => rfl⟩⟩⟩
  · rename_i hany
    exact h.append hidem hsound hapart he (by simpa using hany)

/-- The record with the key of an entry is the one with its id. -/
theorem BulkCall.Ready.hits_iff_id (h : b.Ready entries t) (hs : s ∈ t.rows)
    (hhit : (b.spec store).hits e s = true) {r : Stored} (hr : r ∈ t.rows) :
    (b.spec store).hits e r = true ↔ s.id = r.id := by
  constructor
  · intro hr'
    rw [h.unique s hs r hr e.key (hits_iff_rowKey.mp hhit) (hits_iff_rowKey.mp hr')]
  · intro hid
    rwa [← List.inj_on_of_nodup_map h.ids hs hr hid]

/-- A patch of the record with the key of an entry, by its id. -/
theorem BulkCall.Ready.patchId_eq (h : b.Ready entries t) (hs : s ∈ t.rows)
    (hhit : (b.spec store).hits e s = true) (hcurrent : b.current s.serve = some current)
    (hpatch : (b.patchPayload e.desired current).isEmpty = false) :
    patchId store (.int s.id) (b.patchPayload e.desired current) t.rows =
      t.rows.map fun r => if (b.spec store).hits e r then (b.spec store).change e r else r := by
  apply List.map_congr_left
  intro r hr
  have hiff : (Json.int s.id).pyEq (.int r.id) = true ↔ (b.spec store).hits e r = true := by
    rw [h.hits_iff_id hs hhit hr, pyEq_int_iff]
  by_cases hr' : (b.spec store).hits e r = true
  · rw [if_pos (hiff.mpr hr'), if_pos hr']
    obtain rfl : s = r := List.inj_on_of_nodup_map h.ids hs hr ((h.hits_iff_id hs hhit hr).mp hr')
    rw [change_eq hcurrent, hpatch, if_neg (by simp)]
  · rw [if_neg (mt hiff.mp hr'), if_neg hr']

/-- An upsert without a patch changes nothing. -/
theorem BulkCall.Ready.upsert_eq_self (h : b.Ready entries t) (hs : s ∈ t.rows)
    (hhit : (b.spec store).hits e s = true) (hcurrent : b.current s.serve = some current)
    (hpatch : (b.patchPayload e.desired current).isEmpty = true) :
    (b.spec store).upsert t e = t := by
  rw [Upsert.Spec.upsert, if_pos (List.any_eq_true.mpr ⟨s, hs, hhit⟩)]
  have hrows : (t.rows.map fun r =>
      if (b.spec store).hits e r then (b.spec store).change e r else r) = t.rows := by
    refine (List.map_congr_left ?_).trans (List.map_id _)
    intro r hr
    split
    · rename_i hr'
      obtain rfl : s = r :=
        List.inj_on_of_nodup_map h.ids hs hr ((h.hits_iff_id hs hhit hr).mp hr')
      rw [change_eq hcurrent, hpatch]
      rfl
    · rfl
  rw [hrows]

end Upserts

section Single

variable {b store} {failsCreate failsPatch : ℕ → Bool} {e : Entry} {s : Stored} {db : Db}
  {entries : List Entry} (payload : Record)

/-- The records that the lookup of an entry selects. -/
theorem selects_eq (hfilters : Filters b store) (hready : b.Ready entries db.table)
    (hsound : b.Sound e) (he : e ∈ entries) :
    db.table.rows.filter (store.selects ((b.item e.lookup payload true).queryOf e.lookup)) =
      db.table.rows.filter ((b.spec store).hits e) := by
  apply List.filter_congr
  intro s hs
  obtain ⟨source, hdump⟩ := hsound.dumped
  have hselects := hfilters.lookup source e.desired e.key s hdump hsound.key
  rw [← hsound.lookup] at hselects
  have hquery : (b.item e.lookup payload true).queryOf e.lookup =
      (b.item [] e.desired true).queryOf e.lookup := rfl
  rw [hquery, hselects, Bool.eq_iff_iff, hits_iff]
  constructor
  · intro h
    cases hcurrent : b.current s.serve with
    | none => simp [hcurrent] at h
    | some current =>
      rw [hcurrent] at h
      have hkey := hready.exact e he s hs current hcurrent h
      exact ⟨current, rfl, keyOf_eq_some_iff.mp hkey⟩
  · rintro ⟨current, hcurrent, hkey⟩
    rw [hcurrent, Option.map_some, Option.getD_some, hsound.lookup]
    exact agrees_of_key hsound.key hkey

/-- The search for the record of an entry. -/
theorem findExisting_run (hfilters : Filters b store) (hready : b.Ready entries db.table)
    (hsound : b.Sound e) (he : e ∈ entries) :
    (findExisting (b.item e.lookup payload true) e.desired).run
      (answer store failsCreate failsPatch) db =
        (.ok ((db.table.rows.find? ((b.spec store).hits e)).map Stored.serve), db) := by
  rw [← List.head?_filter, ← selects_eq payload hfilters hready hsound he]
  have hcandidates : (b.item e.lookup payload true).candidates e.desired = some [e.lookup] := rfl
  rw [findExisting, hcandidates]
  dsimp only
  rw [findFirst, Prog.run]
  dsimp only [answer, BulkCall.item]
  cases db.table.rows.filter (store.selects _) with
  | nil => rfl
  | cons s rows => rfl

theorem upsert_of_none {t : Upsert.Table Stored}
    (hnone : t.rows.any ((b.spec store).hits e) = false) :
    (b.spec store).upsert t e = create store t e.desired := by
  rw [Upsert.Spec.upsert, hnone]
  rfl

/-- The record of an entry is patched where it differs. -/
theorem reconcileRecord_run (hready : b.Ready entries db.table) (hs : s ∈ db.table.rows)
    (hhit : (b.spec store).hits e s = true) : ∃ record status,
      (reconcileRecord (b.item e.lookup payload true) e.desired s.serve).run
        (answer store failsCreate failsPatch) db =
          (.ok (record, status), { db with table := (b.spec store).upsert db.table e }) := by
  obtain ⟨current, hcurrent, _⟩ := hits_iff.mp hhit
  have hcurrent' : (b.item e.lookup payload true).current s.serve = some current := hcurrent
  have hpatchPayload : (b.item e.lookup payload true).patchPayload e.desired current =
      b.patchPayload e.desired current := rfl
  rw [reconcileRecord, hcurrent']
  dsimp only
  rw [hpatchPayload]
  split
  · rename_i hempty
    rw [hready.upsert_eq_self hs hhit hcurrent hempty]
    exact ⟨s.serve, .unchanged, rfl⟩
  · rename_i hpatch
    have hrows := hready.patchId_eq hs hhit hcurrent (by simpa using hpatch)
    have hupsert : (b.spec store).upsert db.table e = { db.table with
        rows := patchId store (.int s.id) (b.patchPayload e.desired current) db.table.rows } := by
      rw [Upsert.Spec.upsert, if_pos (List.any_eq_true.mpr ⟨s, hs, hhit⟩), hrows]
    rw [hupsert]
    exact ⟨_, .updated, rfl⟩

/-- A payload that is reconciled by its lookup is upserted. -/
theorem reconcile_run (hfilters : Filters b store) (hready : b.Ready entries db.table)
    (hsound : b.Sound e) (he : e ∈ entries) (hdump : b.dump payload = some e.desired) :
    ∃ record status, (reconcile (b.item e.lookup payload true)).run
      (answer store failsCreate failsPatch) db =
        (.ok (record, status), { db with table := (b.spec store).upsert db.table e }) ∧
          (db.table.rows.any ((b.spec store).hits e) = false → status = .created) := by
  rw [reconcile_eq hdump rfl, Prog.run_bind, findExisting_run payload hfilters hready hsound he]
  cases hfind : db.table.rows.find? ((b.spec store).hits e) with
  | none =>
    have hnone : db.table.rows.any ((b.spec store).hits e) = false := by
      rw [List.any_eq_false]
      exact List.find?_eq_none.mp hfind
    rw [upsert_of_none hnone]
    exact ⟨_, .created, rfl, fun _ => rfl⟩
  | some s =>
    have hs := List.mem_of_find?_eq_some hfind
    have hhit := List.find?_some hfind
    obtain ⟨record, status, hrun⟩ := reconcileRecord_run payload hready hs hhit
    refine ⟨record, status, hrun, ?_⟩
    intro hnone
    exact absurd hhit (List.any_eq_false.mp hnone s hs)

end Single

end ProxboxApi.BulkReconcile
