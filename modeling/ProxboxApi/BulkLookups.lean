import ProxboxApi.BulkReconcile

/-! What makes the records of a collection and the entries of a bulk reconciliation match: lookup
keys, and what patches and creations make of them. -/

namespace ProxboxApi.BulkReconcile

open Requests Reconcile
open RestCreate (Query)
open VmQueue (field)

variable (b : BulkCall) (store : Store)

/-- The fields to patch, whatever the lookup of the call. -/
def BulkCall.patchPayload (desired current : Record) : Record :=
  (b.item [] desired true).patchPayload desired current

/-- The record has the values of a lookup. -/
def agrees (lookup : Query) (current : Record) : Bool :=
  lookup.all fun kv => (field kv.1 current).pyEq kv.2

/-- The lookup key of a record; `none` where it has no value of a lookup field, or none that can be
hashed. -/
def BulkCall.keyOf (current : Record) : Option Key :=
  match lookupTuple (buildLookupDictFromFields b.lookupFields current) with
  | .ok key => key
  | .error _ => none

/-- What the schema and the normalizer make of a record that NetBox serves after a write is what
was written. -/
structure Idempotent : Prop where
  keys : ∀ payload desired, b.dump payload = some desired →
    (Dict.keys desired).Nodup ∧ "id" ∉ Dict.keys desired
  nullable : "id" ∉ b.nullableFields
  dump : ∀ payload desired, b.dump payload = some desired → b.dump desired = some desired
  created : ∀ payload desired id, b.dump payload = some desired → ∃ current,
    b.current (Stored.serve ⟨id, store.make desired⟩) = some current ∧
      ∀ k, k ∈ Dict.keys desired ∨ k ∈ b.lookupFields ∨ k ∈ b.nullableFields →
        (field k current).pyEq (field k desired) = true
  patched : ∀ payload desired s current, b.dump payload = some desired →
    b.current (Stored.serve s) = some current → ∃ current',
      b.current (s.patched store (b.patchPayload desired current)).serve = some current' ∧
        ∀ k, match Dict.get k (b.patchPayload desired current) with
          | some v => (field k current').pyEq v = true
          | none => field k current' = field k current

/-- How NetBox filters: by the values of a lookup, under the names of its filters. -/
structure Filters : Prop where
  lookup : ∀ payload desired key s, b.dump payload = some desired →
    lookupTuple (buildLookupDictFromFields b.lookupFields desired) = .ok (some key) →
      store.selects ((b.item [] desired true).queryOf
        (buildLookupDictFromFields b.lookupFields desired)) s =
          ((b.current s.serve).map
            (agrees (buildLookupDictFromFields b.lookupFields desired))).getD false
  base : ∀ s, store.selects b.scanQuery s = true

section Lookups

variable {b} {desired current current' : Record} {key : Key} {k : String}

theorem Scalar.of_pyEq {x y : Json} (h : x.pyEq y = true) :
    x.blank = y.blank ∧ Scalar.ofJson x = Scalar.ofJson y := by
  cases x <;> cases y <;> simp_all [Json.pyEq, Json.blank, Scalar.ofJson, Json.number]

theorem Scalar.pyEq_iff {x y : Json} {v : Scalar} (hy : Scalar.ofJson y = some v) :
    x.pyEq y = true ↔ Scalar.ofJson x = some v := by
  constructor
  · intro h
    rw [(Scalar.of_pyEq h).2, hy]
  · intro hx
    cases x <;> cases y <;>
      simp only [Scalar.ofJson, Json.number, Option.map_some, Option.map_none, Option.some.injEq,
        reduceCtorEq] at hx hy <;>
      subst hy <;> simp_all [Json.pyEq, Json.number]

theorem Scalar.blank_iff {x : Json} {v : Scalar} (hx : Scalar.ofJson x = some v) :
    x.blank = true ↔ v = .text "" := by
  cases x <;>
    simp only [Scalar.ofJson, Json.number, Option.map_some, Option.map_none, Option.some.injEq,
      reduceCtorEq] at hx <;>
    subst hx <;> simp [Json.blank]

theorem pyEq_int_iff {n m : ℤ} : (Json.int n).pyEq (.int m) = true ↔ n = m := by
  simp only [Json.pyEq, Json.number, beq_iff_eq, Option.some.injEq, Rat.intCast_inj]
  exact eq_comm

theorem pyEq_null_iff {x : Json} : x.pyEq .null = true ↔ x = .null := by
  cases x <;> simp [Json.pyEq, Json.number]

/-- The lookup fields that have a value. -/
def named (lookupFields : List String) (payload : Record) : List String :=
  lookupFields.filter fun name => !(field name payload).blank

theorem buildLookup_eq (lookupFields : List String) (payload : Record) :
    buildLookupDictFromFields lookupFields payload =
      (named lookupFields payload).map fun name => (name, field name payload) :=
  rfl

theorem lookupTuple_buildLookup (lookupFields : List String) (payload : Record) :
    lookupTuple (buildLookupDictFromFields lookupFields payload) =
      if named lookupFields payload = [] then .ok none
      else match (named lookupFields payload).mapM fun name =>
          (Scalar.ofJson (field name payload)).map fun value => (name, value) with
        | none => .error .other
        | some key => .ok (some key) := by
  have hfilter : ((named lookupFields payload).map fun name => (name, field name payload)).filter
      (fun kv => !kv.2.blank) =
        (named lookupFields payload).map fun name => (name, field name payload) := by
    rw [List.filter_eq_self]
    intro kv hkv
    obtain ⟨name, hname, rfl⟩ := List.mem_map.mp hkv
    exact (List.mem_filter.mp hname).2
  rw [lookupTuple, buildLookup_eq, hfilter]
  cases hnamed : named lookupFields payload with
  | nil => rfl
  | cons name names =>
    rw [if_neg (by simp), List.map_cons]
    dsimp only
    rw [← List.map_cons (f := fun name => (name, field name payload)), List.mapM_map]
    rfl

theorem lookupTuple_eq_none_iff {lookupFields : List String} :
    lookupTuple (buildLookupDictFromFields lookupFields current) = .ok none ↔
      named lookupFields current = [] := by
  rw [lookupTuple_buildLookup]
  split
  · simpa
  · rename_i hnamed
    split <;> simp [hnamed]

theorem lookupTuple_eq_some_iff {lookupFields : List String} :
    lookupTuple (buildLookupDictFromFields lookupFields current) = .ok (some key) ↔
      key ≠ [] ∧ key.map (·.1) = named lookupFields current ∧
        ∀ kv ∈ key, Scalar.ofJson (field kv.1 current) = some kv.2 := by
  rw [← Outcomes.mapM_pairs_eq_some_iff (f := fun name => Scalar.ofJson (field name current)),
    lookupTuple_buildLookup]
  constructor
  · intro h
    split at h
    · simp at h
    · rename_i hnamed
      split at h
      · simp at h
      · rename_i key' hkey
        simp only [Except.ok.injEq, Option.some.injEq] at h
        subst h
        refine ⟨?_, hkey⟩
        rintro rfl
        exact hnamed (Outcomes.mapM_pairs_eq_some_iff.mp hkey).1.symm
  · rintro ⟨hne, hkey⟩
    have hnamed := (Outcomes.mapM_pairs_eq_some_iff.mp hkey).1
    rw [if_neg (by simpa [← hnamed] using hne), hkey]

/-- The lookup fields of two records have no values in the same places, and equal ones in the
others. -/
def SameLookups (lookupFields : List String) (current current' : Record) : Prop :=
  ∀ k ∈ lookupFields, (field k current).blank = (field k current').blank ∧
    ((field k current).blank = false →
      Scalar.ofJson (field k current) = Scalar.ofJson (field k current'))

theorem SameLookups.named_eq {lookupFields : List String}
    (h : SameLookups lookupFields current current') :
    named lookupFields current = named lookupFields current' := by
  apply List.filter_congr
  intro k hk
  rw [(h k hk).1]

theorem SameLookups.lookupTuple_eq {lookupFields : List String} {key : Option Key}
    (h : SameLookups lookupFields current current')
    (hkey : lookupTuple (buildLookupDictFromFields lookupFields current) = .ok key) :
    lookupTuple (buildLookupDictFromFields lookupFields current') = .ok key := by
  cases key with
  | none =>
    rw [lookupTuple_eq_none_iff] at hkey ⊢
    rw [← h.named_eq, hkey]
  | some key =>
    rw [lookupTuple_eq_some_iff] at hkey ⊢
    obtain ⟨hne, hnames, hvalues⟩ := hkey
    refine ⟨hne, hnames.trans h.named_eq, ?_⟩
    intro kv hkv
    have hnamed : kv.1 ∈ named lookupFields current := by
      rw [← hnames]
      exact List.mem_map_of_mem hkv
    obtain ⟨hfield, hvalue⟩ := List.mem_filter.mp hnamed
    rw [← (h kv.1 hfield).2 (by simpa using hvalue), hvalues kv hkv]

/-- A record has the values of a lookup when its fields have those of the key. -/
theorem agrees_iff {lookupFields : List String}
    (hkey : lookupTuple (buildLookupDictFromFields lookupFields desired) = .ok (some key)) :
    agrees (buildLookupDictFromFields lookupFields desired) current = true ↔
      ∀ kv ∈ key, Scalar.ofJson (field kv.1 current) = some kv.2 := by
  obtain ⟨_, hnames, hvalues⟩ := lookupTuple_eq_some_iff.mp hkey
  rw [agrees, buildLookup_eq, ← hnames, List.map_map, List.all_map, List.all_eq_true]
  refine forall₂_congr fun kv hkv => ?_
  rw [Function.comp_apply, Function.comp_apply]
  exact Scalar.pyEq_iff (hvalues kv hkv)

theorem agrees_of_key {lookupFields : List String}
    (hkey : lookupTuple (buildLookupDictFromFields lookupFields desired) = .ok (some key))
    (hcurrent : lookupTuple (buildLookupDictFromFields lookupFields current) = .ok (some key)) :
    agrees (buildLookupDictFromFields lookupFields desired) current = true :=
  (agrees_iff hkey).mpr (lookupTuple_eq_some_iff.mp hcurrent).2.2

theorem SameLookups.agrees_of_agrees {lookupFields : List String}
    (h : SameLookups lookupFields current current')
    (hkey : lookupTuple (buildLookupDictFromFields lookupFields desired) = .ok (some key))
    (hagrees : agrees (buildLookupDictFromFields lookupFields desired) current' = true) :
    agrees (buildLookupDictFromFields lookupFields desired) current = true := by
  rw [agrees_iff hkey] at hagrees ⊢
  obtain ⟨_, hnames, hvalues⟩ := lookupTuple_eq_some_iff.mp hkey
  intro kv hkv
  have hnamed : kv.1 ∈ named lookupFields desired := by
    rw [← hnames]
    exact List.mem_map_of_mem hkv
  obtain ⟨hfield, hvalue⟩ := List.mem_filter.mp hnamed
  have hnonempty : (field kv.1 current').blank = false := by
    rw [Bool.eq_false_iff, Ne, Scalar.blank_iff (hagrees kv hkv),
      ← Scalar.blank_iff (hvalues kv hkv)]
    simpa using hvalue
  rw [(h kv.1 hfield).2 (by rw [(h kv.1 hfield).1, hnonempty]), hagrees kv hkv]

end Lookups

section Patches

variable {b store} {desired current : Record} {k : String} {v : Json}

theorem field_of_mem {d : Record} (hd : (Dict.keys d).Nodup) (h : (k, v) ∈ d) : field k d = v := by
  rw [field, Dict.get_of_mem hd h]
  rfl

theorem field_of_not_mem {d : Record} (h : k ∉ Dict.keys d) : field k d = .null := by
  rw [field, Dict.get_eq_none_iff.mpr h]
  rfl

def BulkCall.allows (b : BulkCall) (name : String) : Bool :=
  match b.patchableFields with
  | none => true
  | some allowed => allowed.contains name

/-- A patch sets the desired values that differ, and null where nothing is desired. -/
theorem mem_patchPayload : (k, v) ∈ b.patchPayload desired current ↔ b.allows k = true ∧
    ((k, v) ∈ desired ∧ (field k current).pyEq v = false ∨
      v = .null ∧ k ∈ b.nullableFields ∧ (field k current).isNull = false ∧
        k ∉ Dict.keys desired) := by
  have hunfiltered : (k, v) ∈ (desired.filter fun kv => !(field kv.1 current).pyEq kv.2) ++
      (b.nullableFields.filter fun name =>
        !(field name current).isNull && !(Dict.keys desired).contains name).map (fun name =>
          (name, Json.null)) ↔ (k, v) ∈ desired ∧ (field k current).pyEq v = false ∨
      v = .null ∧ k ∈ b.nullableFields ∧ (field k current).isNull = false ∧
        k ∉ Dict.keys desired := by
    simp only [List.mem_append, List.mem_filter, List.mem_map, Prod.mk.injEq, Bool.not_eq_true',
      Bool.and_eq_true, List.contains_eq_mem, decide_eq_false_iff_not]
    refine or_congr_right ?_
    constructor
    · rintro ⟨name, hname, rfl, rfl⟩
      exact ⟨rfl, hname⟩
    · rintro ⟨rfl, hname⟩
      exact ⟨k, hname, rfl, rfl⟩
  unfold BulkCall.patchPayload Call.patchPayload BulkCall.allows
  dsimp only [BulkCall.item]
  cases b.patchableFields with
  | none => simpa using hunfiltered
  | some allowed =>
    dsimp only
    rw [List.mem_filter, hunfiltered, and_comm]

theorem patchPayload_eq_nil (hset : ∀ k v, (k, v) ∈ desired → b.allows k = true →
      (field k current).pyEq v = true)
    (hnull : ∀ k ∈ b.nullableFields, b.allows k = true → k ∉ Dict.keys desired →
      (field k current).isNull = true) : b.patchPayload desired current = [] := by
  rw [List.eq_nil_iff_forall_not_mem]
  rintro ⟨k, v⟩ hmem
  obtain ⟨hallows, ⟨hdesired, hdiffers⟩ | ⟨_, hnullable, hcurrent, hdesired⟩⟩ :=
    mem_patchPayload.mp hmem
  · rw [hset k v hdesired hallows] at hdiffers
    contradiction
  · rw [hnull k hnullable hallows hdesired] at hcurrent
    contradiction

/-- The entry is one of a payload. -/
structure BulkCall.Sound (b : BulkCall) (e : Entry) : Prop where
  dumped : ∃ payload, b.dump payload = some e.desired
  lookup : e.lookup = buildLookupDictFromFields b.lookupFields e.desired
  key : lookupTuple (buildLookupDictFromFields b.lookupFields e.desired) = .ok (some e.key)

variable {e : Entry} {s : Stored}

/-- A lookup field that a patch sets had no value and gets none. -/
theorem blank_of_patch (hidem : Idempotent b store) (he : b.Sound e)
    (hkey : lookupTuple (buildLookupDictFromFields b.lookupFields current) = .ok (some e.key))
    (hk : k ∈ b.lookupFields) (hpatch : (k, v) ∈ b.patchPayload e.desired current) :
    (field k current).blank = true ∧ v.blank = true := by
  obtain ⟨payload, hdump⟩ := he.dumped
  obtain ⟨_, hnames, hvalues⟩ := lookupTuple_eq_some_iff.mp he.key
  obtain ⟨_, hnames', hvalues'⟩ := lookupTuple_eq_some_iff.mp hkey
  have hsame : named b.lookupFields current = named b.lookupFields e.desired :=
    hnames'.symm.trans hnames
  have hiff : (field k current).blank = false ↔ (field k e.desired).blank = false := by
    have hmem : k ∈ named b.lookupFields current ↔ k ∈ named b.lookupFields e.desired := by
      rw [hsame]
    simpa [named, List.mem_filter, hk] using hmem
  obtain ⟨_, ⟨hdesired, hdiffers⟩ | ⟨rfl, _, _, hdesired⟩⟩ := mem_patchPayload.mp hpatch
  · have hv : field k e.desired = v := field_of_mem (hidem.keys payload e.desired hdump).1 hdesired
    suffices hblank : v.blank = true by
      refine ⟨?_, hblank⟩
      rw [← Bool.not_eq_false, hiff, hv, hblank]
      simp
    rw [← Bool.not_eq_false]
    intro hvalue
    -- the value is a part of the key, so the record has it
    have hnamed : k ∈ named b.lookupFields e.desired := by
      simp [named, hk, hv, hvalue]
    rw [← hnames] at hnamed
    obtain ⟨kv, hkv, rfl⟩ := List.mem_map.mp hnamed
    have heq : (field kv.1 current).pyEq v = true := by
      rw [← hv]
      exact (Scalar.pyEq_iff (hvalues kv hkv)).mpr (hvalues' kv hkv)
    rw [heq] at hdiffers
    contradiction
  · refine ⟨?_, rfl⟩
    rw [← Bool.not_eq_false, hiff, field_of_not_mem hdesired]
    simp [Json.blank]

theorem patched_rule (hidem : Idempotent b store) (he : b.Sound e)
    (hcurrent : b.current s.serve = some current)
    (hkey : lookupTuple (buildLookupDictFromFields b.lookupFields current) = .ok (some e.key)) :
    ∃ current',
      b.current (s.patched store (b.patchPayload e.desired current)).serve = some current' ∧
        SameLookups b.lookupFields current current' ∧ b.patchPayload e.desired current' = [] := by
  obtain ⟨payload, hdump⟩ := he.dumped
  have hnodup := (hidem.keys payload e.desired hdump).1
  obtain ⟨current', hcurrent', hfields⟩ := hidem.patched payload e.desired s current hdump hcurrent
  have hkept : ∀ k, Dict.get k (b.patchPayload e.desired current) = none →
      field k current' = field k current := by
    intro k hget
    have hk := hfields k
    rwa [hget] at hk
  have hset : ∀ k v, Dict.get k (b.patchPayload e.desired current) = some v →
      (field k current').pyEq v = true := by
    intro k v hget
    have hk := hfields k
    rwa [hget] at hk
  refine ⟨current', hcurrent', ?_, ?_⟩
  · intro k hk
    cases hget : Dict.get k (b.patchPayload e.desired current) with
    | none =>
      rw [hkept k hget]
      exact ⟨rfl, fun _ => rfl⟩
    | some v =>
      obtain ⟨hblank, hvalue⟩ := blank_of_patch hidem he hkey hk (Dict.mem_of_get hget)
      rw [(Scalar.of_pyEq (hset k v hget)).1, hblank, hvalue]
      exact ⟨rfl, by simp⟩
  · apply patchPayload_eq_nil
    · intro k v hdesired hallows
      cases hget : Dict.get k (b.patchPayload e.desired current) with
      | none =>
        rw [hkept k hget, ← Bool.not_eq_false]
        intro hdiffers
        exact Dict.not_mem_of_get hget (mem_patchPayload.mpr ⟨hallows, .inl ⟨hdesired, hdiffers⟩⟩)
      | some w =>
        have hw : w = v := by
          obtain ⟨_, ⟨hw, _⟩ | ⟨_, _, _, hnot⟩⟩ := mem_patchPayload.mp (Dict.mem_of_get hget)
          · rw [← field_of_mem hnodup hw, field_of_mem hnodup hdesired]
          · exact absurd (List.mem_map_of_mem hdesired) hnot
        rw [← hw]
        exact hset k w hget
    · intro k hnullable hallows hnot
      cases hget : Dict.get k (b.patchPayload e.desired current) with
      | none =>
        rw [hkept k hget, ← Bool.not_eq_false]
        intro hvalue
        exact Dict.not_mem_of_get hget
          (mem_patchPayload.mpr ⟨hallows, .inr ⟨rfl, hnullable, hvalue, hnot⟩⟩)
      | some w =>
        obtain ⟨_, ⟨hw, _⟩ | ⟨rfl, _⟩⟩ := mem_patchPayload.mp (Dict.mem_of_get hget)
        · exact absurd (List.mem_map_of_mem hw) hnot
        · rw [pyEq_null_iff.mp (hset k .null hget)]
          rfl

/-- A record that NetBox made of an entry has its key and needs no patch. -/
theorem created_rule (hidem : Idempotent b store) (he : b.Sound e) (id : ℤ) :
    ∃ current, b.current (Stored.serve ⟨id, store.make e.desired⟩) = some current ∧
      SameLookups b.lookupFields e.desired current ∧ b.patchPayload e.desired current = [] := by
  obtain ⟨payload, hdump⟩ := he.dumped
  obtain ⟨current, hcurrent, hfields⟩ := hidem.created payload e.desired id hdump
  refine ⟨current, hcurrent, ?_, ?_⟩
  · intro k hk
    obtain ⟨hblank, hvalue⟩ := Scalar.of_pyEq (hfields k (.inr (.inl hk)))
    exact ⟨hblank.symm, fun _ => hvalue.symm⟩
  · apply patchPayload_eq_nil
    · intro k v hdesired _
      have hk := hfields k (.inl (List.mem_map_of_mem hdesired))
      rwa [field_of_mem (hidem.keys payload e.desired hdump).1 hdesired] at hk
    · intro k hnullable _ hnot
      have hk := hfields k (.inr (.inr hnullable))
      rw [field_of_not_mem hnot] at hk
      rw [pyEq_null_iff.mp hk]
      rfl

end Patches

end ProxboxApi.BulkReconcile
