import ProxboxApi.Convergence
import ProxboxApi.Outcomes
import ProxboxApi.VmDispatch

/-! What the overwrite flags protect, on every PATCH of the dispatch. -/

namespace ProxboxApi.VmDispatch

open VmQueue (field Record PreparedVMState Flags NetBoxVMOperation VmBody validate relationId
  normalizeCurrentVmPayload sortedSet mem_sortedSet tagsOf)

variable {py : Python} {rs : RustQueue.Rust} {flags : Flags} {r : Record}
variable {patch patch' : Json.Fields}

/-- The fields that the flags protect. -/
def protectedFields : List String :=
  ["role", "virtual_machine_type", "description", "custom_fields", "tags"]

/-- A PATCH that leaves protected fields out is protected too. -/
theorem Protected.of_get (h : Protected flags r patch) (hget : ∀ k ∈ protectedFields,
    Dict.get k patch' = none ∨ Dict.get k patch' = Dict.get k patch) :
    Protected flags r patch' := by
  have hcontains : ∀ k ∈ protectedFields, Dict.get k patch' ≠ none → Dict.get k patch ≠ none := by
    intro k hk hne
    rcases hget k hk with hnone | hsame
    · exact absurd hnone hne
    · rw [← hsame]
      exact hne
  refine ⟨fun hne => h.role (hcontains _ (by decide) hne),
    fun hne => h.virtualMachineType (hcontains _ (by decide) hne),
    fun hne => h.description (hcontains _ (by decide) hne),
    fun hne => h.customFields (hcontains _ (by decide) hne),
    fun hne => h.tags (hcontains _ (by decide) hne), ?_⟩
  intro v hv
  rcases hget "tags" (by decide) with hnone | hsame
  · rw [hnone] at hv
    cases hv
  · exact h.tagsKept v (hsame ▸ hv)

theorem get_legacy {overwrite enabled : Bool} {k : String} {payload : Json.Fields} :
    Dict.get k (legacyCustomFieldsPayload overwrite enabled payload) = none ∨
      Dict.get k (legacyCustomFieldsPayload overwrite enabled payload) = Dict.get k payload := by
  unfold legacyCustomFieldsPayload
  split
  · exact .inr rfl
  · rw [Dict.get_erase]
    split
    · exact .inl rfl
    · exact .inr rfl

/-- The PATCHes of an update write what its patch has, and the disk. -/
theorem sent_update {op : NetBoxVMOperation} {existing : Record} {enabled : Bool}
    {answers : Answers} (hmethod : op.method = .update) (hexisting : op.existingRecord = some existing)
    (h : Protected flags existing op.patchPayload) :
    ∀ x ∈ sent py flags enabled answers op, Protected flags x.1 x.2 := by
  have hlegacy : Protected flags existing
      (legacyCustomFieldsPayload flags.overwriteVmCustomFields enabled op.patchPayload) :=
    h.of_get fun _ _ => get_legacy
  intro x hx
  unfold sent at hx
  rw [hmethod, hexisting] at hx
  dsimp only at hx
  split at hx
  · split at hx
    · simp at hx
    · rcases List.mem_cons.mp hx with rfl | hx
      · exact hlegacy
      · obtain ⟨disk, _, rfl⟩ := List.mem_map.mp hx
        refine hlegacy.of_get fun k hk => .inr ?_
        apply Dict.get_set_of_ne
        rintro rfl
        revert hk
        decide
  · simp at hx

variable (py) in
theorem relationId_rest {v : Json} (h : RestRelation v) (hnone : v ≠ .null) :
    ∃ n, relationId py v = some (some n) := by
  rcases h with rfl | ⟨n, _, rfl⟩ | ⟨fields, n, _, rfl, hid⟩
  · exact absurd rfl hnone
  · exact ⟨n, rfl⟩
  · refine ⟨n, ?_⟩
    unfold VmQueue.relationId
    dsimp only
    rw [hid]
    rfl

theorem mem_tagsOf {v : Json} {n : ℤ} (h : n ∈ tagIds v) : n ∈ tagsOf py v := by
  cases v with
  | arr items =>
    obtain ⟨item, hitem, hid⟩ := List.mem_filterMap.mp h
    unfold VmQueue.tagsOf
    rw [mem_sortedSet, List.mem_filterMap]
    refine ⟨item, hitem, ?_⟩
    split at hid
    · exact hid
    · rename_i fields
      split at hid
      · rename_i m hm
        unfold VmQueue.tagId
        dsimp only
        rw [hm]
        exact hid
      · cases hid
    · cases hid
  | _ => simp [tagIds] at h

theorem tagIds_ints (ids : List ℤ) : tagIds (.arr (ids.map .int)) = ids := by
  unfold tagIds
  dsimp only
  rw [List.filterMap_map]
  exact (List.filterMap_congr fun n _ => rfl).trans List.filterMap_some

theorem emptyTags_of_not_hasTags (hr : RestRecord r) (h : VmQueue.hasTags r = false) :
    emptyTags r := by
  unfold VmQueue.hasTags at h
  rcases hr.tags with hnull | ⟨items, hitems, _⟩
  · exact .inl hnull
  · rw [hitems] at h
    right
    rw [hitems]
    cases items with
    | nil => rfl
    | cons item items => simp at h

theorem tagIds_of_emptyTags (h : emptyTags r) : tagIds (field "tags" r) = [] := by
  rcases h with h | h <;> rw [h] <;> rfl

theorem emptyDescription_of_not (hr : RestRecord r) (h : VmQueue.hasDescription r = false) :
    emptyDescription r := by
  unfold VmQueue.hasDescription at h
  rcases hr.description with hnull | ⟨s, hs⟩
  · exact .inl hnull
  · rw [hs] at h
    right
    rw [hs]
    simpa using h

theorem emptyCustomFields_of_not (hr : RestRecord r) (h : VmQueue.hasCustomFields r = false) :
    emptyCustomFields r := by
  unfold VmQueue.hasCustomFields VmQueue.customFields at h
  rcases hr.customFields with hnull | ⟨fields, hfields⟩
  · exact .inl hnull
  · rw [hfields] at h
    right
    rw [hfields]
    simpa using h

theorem of_guard {a b c : Prop} (h : (¬ a ∨ b) ∨ c) (ha : a) : b ∨ c :=
  (or_assoc.mp h).resolve_left (not_not_intro ha)

/-- A field that is not kept out of the patch is one to overwrite, or the record has none of it. -/
theorem of_not_kept {k : String} (h : VmQueue.kept py flags r k = false) :
    (k = "role" → flags.overwriteVmRole = true ∨ VmQueue.hasRelation py "role" r = false) ∧
    (k = "virtual_machine_type" → flags.overwriteVmType = true ∨
      VmQueue.hasRelation py "virtual_machine_type" r = false) ∧
    (k = "description" → flags.overwriteVmDescription = true ∨
      VmQueue.hasDescription r = false) ∧
    (k = "custom_fields" → flags.overwriteVmCustomFields = true ∨
      VmQueue.hasCustomFields r = false) := by
  simp only [VmQueue.kept, Bool.or_eq_false_iff, Bool.and_eq_false_iff, decide_eq_false_iff_not,
    Bool.not_eq_false'] at h
  obtain ⟨⟨⟨hrole, htype⟩, hdescription⟩, hcustom⟩ := h
  exact ⟨of_guard hrole, of_guard htype, of_guard hdescription, of_guard hcustom⟩

/-- The guards of the queue in Python keep the patch of a record protected. -/
theorem protected_python {p : PreparedVMState} (hr : RestRecord r)
    (h : VmQueue.patchPayload py flags p r = some patch) : Protected flags r patch := by
  have hall := h
  unfold VmQueue.patchPayload at hall
  obtain ⟨d, hd, hall⟩ := Option.bind_eq_some_iff.mp hall
  obtain ⟨c, hc, hall⟩ := Option.bind_eq_some_iff.mp hall
  obtain ⟨patch', hpatch, hspec⟩ :=
    VmQueue.patchPayload_spec py flags hd hc (VmQueue.guardsOk_of_applyGuards py flags hall)
  obtain rfl : patch' = patch := by
    rw [h] at hpatch
    exact (Option.some.inj hpatch).symm
  have hunkept : ∀ k ∈ VmQueue.bodyFields, k ≠ "tags" → Dict.get k patch' ≠ none →
      VmQueue.kept py flags r k = false := by
    intro k hk hne hget
    rw [hspec.value k hk hne] at hget
    by_contra hkept
    rw [Bool.not_eq_false] at hkept
    rw [if_pos hkept] at hget
    exact hget rfl
  have hrelation : ∀ name, RestRelation (field name r) → VmQueue.hasRelation py name r = false →
      emptyRelation name r := by
    intro name hshape hnone
    by_contra hne
    obtain ⟨n, hn⟩ := relationId_rest py hshape hne
    unfold VmQueue.hasRelation at hnone
    rw [hn] at hnone
    cases hnone
  have hfield : field "tags" (normalizeCurrentVmPayload r flags.supportsVirtualMachineTypeField) =
      field "tags" r := by
    rw [field, VmQueue.get_normalizeCurrent (by decide), if_neg (by simp), Option.getD_some]
  have htags := hspec.tags
  rw [hfield] at htags
  unfold VmQueue.tagsPatch at htags
  constructor
  · intro hget
    have hkept := hunkept "role" (by decide) (by decide) hget
    exact ((of_not_kept hkept).1 rfl).imp id (hrelation _ hr.role)
  · intro hget
    have hkept := hunkept "virtual_machine_type" (by decide) (by decide) hget
    exact ((of_not_kept hkept).2.1 rfl).imp id (hrelation _ hr.virtualMachineType)
  · intro hget
    have hkept := hunkept "description" (by decide) (by decide) hget
    exact ((of_not_kept hkept).2.2.1 rfl).imp id (emptyDescription_of_not hr)
  · intro hget
    have hkept := hunkept "custom_fields" (by decide) (by decide) hget
    exact ((of_not_kept hkept).2.2.2 rfl).imp id (emptyCustomFields_of_not hr)
  · intro hget
    cases hflag : flags.overwriteVmTags with
    | true => exact .inl rfl
    | false =>
      right
      cases hhas : VmQueue.hasTags r with
      | false => exact emptyTags_of_not_hasTags hr hhas
      | true =>
        rw [hflag, hhas] at htags
        exact absurd htags hget
  · intro v hv n hn
    rw [hv] at htags
    cases hflag : flags.overwriteVmTags with
    | false =>
      cases hhas : VmQueue.hasTags r with
      | false =>
        rw [tagIds_of_emptyTags (emptyTags_of_not_hasTags hr hhas)] at hn
        cases hn
      | true =>
        rw [hflag, hhas] at htags
        cases htags
    | true =>
      rw [hflag] at htags
      dsimp only at htags
      simp only [Bool.not_true, Bool.false_eq_true, if_false] at htags
      split at htags
      · cases htags
      · rw [Option.some.inj htags, tagIds_ints, mem_sortedSet]
        exact List.mem_append_left _ (mem_tagsOf hn)

/-- The fields that the guards of the queue in Rust keep out of a patch. -/
def keptRust (flags : Flags) (r : Record) (k : String) : Bool :=
  (k = "role" && !flags.overwriteVmRole && (RustQueue.relationId (field "role" r)).isSome) ||
    (k = "virtual_machine_type" && !flags.overwriteVmType &&
      (RustQueue.relationId (field "virtual_machine_type" r)).isSome) ||
    (k = "description" && !flags.overwriteVmDescription && RustQueue.hasDescription r) ||
    (k = "custom_fields" && !flags.overwriteVmCustomFields && RustQueue.hasCustomFields r) ||
    (k = "tags" && !flags.overwriteVmTags && RustQueue.hasTags r)

theorem of_not_keptRust {k : String} (h : keptRust flags r k = false) :
    (k = "role" → flags.overwriteVmRole = true ∨
      (RustQueue.relationId (field "role" r)).isSome = false) ∧
    (k = "virtual_machine_type" → flags.overwriteVmType = true ∨
      (RustQueue.relationId (field "virtual_machine_type" r)).isSome = false) ∧
    (k = "description" → flags.overwriteVmDescription = true ∨
      RustQueue.hasDescription r = false) ∧
    (k = "custom_fields" → flags.overwriteVmCustomFields = true ∨
      RustQueue.hasCustomFields r = false) ∧
    (k = "tags" → flags.overwriteVmTags = true ∨ RustQueue.hasTags r = false) := by
  simp only [keptRust, Bool.or_eq_false_iff, Bool.and_eq_false_iff, decide_eq_false_iff_not,
    Bool.not_eq_false'] at h
  obtain ⟨⟨⟨⟨hrole, htype⟩, hdescription⟩, hcustom⟩, htags⟩ := h
  exact ⟨of_guard hrole, of_guard htype, of_guard hdescription, of_guard hcustom, of_guard htags⟩

theorem get_erase_if {b : Bool} {k name : String} :
    Dict.get k (if b then Dict.erase name patch else patch) =
      if (decide (k = name) && b) = true then none else Dict.get k patch := by
  cases b with
  | false => simp
  | true =>
    rw [if_pos rfl, Dict.get_erase]
    by_cases hk : name = k
    · simp [hk]
    · simp [hk, Ne.symm hk]

theorem get_mergeTags_of_ne {desired current : Json.Fields} {k : String} (hk : k ≠ "tags") :
    Dict.get k (RustQueue.mergeTags desired current patch) = Dict.get k patch := by
  unfold RustQueue.mergeTags
  split
  · rfl
  · dsimp only
    split
    · rw [Dict.get_erase, if_neg (Ne.symm hk)]
    · rw [Dict.get_set_of_ne (Ne.symm hk)]

/-- What a patch has after the rules was there before and is not kept out. -/
theorem get_applyOverwriteRules {desired current : Json.Fields} {k : String}
    (hne : Dict.get k (RustQueue.applyOverwriteRules flags r desired current patch) ≠ none) :
    keptRust flags r k = false := by
  by_contra hkept
  rw [Bool.not_eq_false] at hkept
  apply hne
  unfold RustQueue.applyOverwriteRules
  dsimp only
  simp only [keptRust, Bool.or_eq_true, Bool.and_eq_true, decide_eq_true_eq,
    Bool.not_eq_true'] at hkept
  have hlast : ∀ {k : String} {p : Json.Fields}, k ≠ "tags" → Dict.get k p = none →
      Dict.get k (if !flags.overwriteVmTags then
        if RustQueue.hasTags r then Dict.erase "tags" p else p
        else RustQueue.mergeTags desired current p) = none := by
    intro k p hk hp
    split
    · rw [get_erase_if, hp, ite_self]
    · rw [get_mergeTags_of_ne hk, hp]
  rcases hkept with (((⟨⟨rfl, hflag⟩, hhas⟩ | ⟨⟨rfl, hflag⟩, hhas⟩) | ⟨⟨rfl, hflag⟩, hhas⟩) |
    ⟨⟨rfl, hflag⟩, hhas⟩) | ⟨⟨rfl, hflag⟩, hhas⟩
  · apply hlast (by decide)
    simp only [get_erase_if, hflag, hhas]
    simp
  · apply hlast (by decide)
    simp only [get_erase_if, hflag, hhas]
    simp
  · apply hlast (by decide)
    simp only [get_erase_if, hflag, hhas]
    simp
  · apply hlast (by decide)
    simp only [get_erase_if, hflag, hhas]
    simp
  · rw [hflag]
    simp only [Bool.not_false, if_true, hhas, Dict.get_erase_self]

theorem clamp_of_isId {n : ℤ} (h : IsId n) : RustQueue.clamp n = n := by
  obtain ⟨hpos, hmax⟩ := h
  have hmin : RustQueue.minI64 ≤ n := by
    unfold RustQueue.minI64
    omega
  unfold RustQueue.clamp
  omega

theorem relationId_rust {v : Json} (h : RestRelation v) (hnone : v ≠ .null) :
    (RustQueue.relationId v).isSome = true := by
  rcases h with rfl | ⟨n, _, rfl⟩ | ⟨fields, n, _, rfl, hid⟩
  · exact absurd rfl hnone
  · rfl
  · have hat : RustQueue.relationIdAt "id" fields = some (RustQueue.clamp n) := by
      induction fields with
      | nil => cases hid
      | cons kv fields ih =>
        obtain ⟨k, value⟩ := kv
        rw [RustQueue.relationIdAt]
        by_cases hk : k = "id"
        · have hvalue : value = .int n := by simpa [field, Dict.get, hk] using hid
          rw [if_pos hk, hvalue]
          rfl
        · rw [if_neg hk]
          apply ih
          · simpa [field, Dict.get, hk] using hid
          · simp
    rw [RustQueue.relationId, hat]
    rfl

theorem mem_normalizeTags {v : Json} {n : ℤ} (hshape : ∀ items, v = .arr items →
    ∀ item ∈ items, RestTag item) (h : n ∈ tagIds v) :
    n ∈ RustQueue.normalizeTags v ∧ IsId n := by
  cases v with
  | arr items =>
    obtain ⟨item, hitem, hid⟩ := List.mem_filterMap.mp h
    unfold RustQueue.normalizeTags
    dsimp only
    rw [mem_sortedSet, List.mem_filterMap]
    rcases hshape items rfl item hitem with ⟨m, hm, rfl⟩ | ⟨fields, m, hm, rfl, hfield⟩
    · obtain rfl := Option.some.inj hid
      refine ⟨⟨_, hitem, ?_⟩, hm⟩
      exact congrArg some (clamp_of_isId hm)
    · dsimp only at hid
      rw [hfield] at hid
      obtain rfl := Option.some.inj hid
      refine ⟨⟨_, hitem, ?_⟩, hm⟩
      dsimp only
      rw [hfield]
      exact congrArg some (clamp_of_isId hm)
  | _ => simp [tagIds] at h

theorem field_tags_normalized (object : Json.Fields) (supports : Bool) :
    field "tags" (RustQueue.normalizeVmPayload rs object supports) =
      .arr ((RustQueue.normalizeTags (field "tags" object)).map .int) := by
  have hraw : ∀ name v, name ≠ "tags" → Dict.get "tags" (RustQueue.insertRaw name v) = none := by
    intro name v hname
    unfold RustQueue.insertRaw
    split <;> simp [Dict.get, hname]
  have hrelation : ∀ name v, name ≠ "tags" →
      Dict.get "tags" (RustQueue.insertRelation name v) = none := by
    intro name v hname
    unfold RustQueue.insertRelation
    split
    · split <;> simp [Dict.get, hname]
    · rfl
  have htype : Dict.get "tags" (if supports then RustQueue.insertRelation "virtual_machine_type"
      (field "virtual_machine_type" object) else []) = none := by
    split
    · exact hrelation _ _ (by decide)
    · rfl
  unfold RustQueue.normalizeVmPayload
  rw [field]
  simp only [Dict.get_append, hraw "name" _ (by decide), hrelation "cluster" _ (by decide),
    hrelation "device" _ (by decide), hrelation "site" _ (by decide), htype,
    hrelation "role" _ (by decide)]
  simp [Dict.get, RustQueue.insertVmInt]

/-- The rules of the queue in Rust keep the patch of a record protected. -/
theorem protected_rust (p : PreparedVMState) (hr : RestRecord r) :
    Protected flags r (RustQueue.patchPayload rs flags p r) := by
  have hkept : ∀ k, Dict.get k (RustQueue.patchPayload rs flags p r) ≠ none →
      keptRust flags r k = false := fun k hne => get_applyOverwriteRules hne
  have hrelation : ∀ name, RestRelation (field name r) →
      (RustQueue.relationId (field name r)).isSome = false → emptyRelation name r := by
    intro name hshape hnone
    by_contra hne
    rw [relationId_rust hshape hne] at hnone
    cases hnone
  have htags : ∀ items, field "tags" r = .arr items → ∀ item ∈ items, RestTag item := by
    intro items hitems
    rcases hr.tags with hnull | ⟨items', hitems', hshape⟩
    · rw [hnull] at hitems
      cases hitems
    · rw [hitems', Json.arr.injEq] at hitems
      exact hitems ▸ hshape
  constructor
  · intro hget
    exact ((of_not_keptRust (hkept "role" hget)).1 rfl).imp id (hrelation _ hr.role)
  · intro hget
    exact ((of_not_keptRust (hkept "virtual_machine_type" hget)).2.1 rfl).imp id
      (hrelation _ hr.virtualMachineType)
  · intro hget
    exact ((of_not_keptRust (hkept "description" hget)).2.2.1 rfl).imp id
      (emptyDescription_of_not hr)
  · intro hget
    have hcustom := (of_not_keptRust (hkept "custom_fields" hget)).2.2.2.1 rfl
    refine hcustom.imp id fun hnone => emptyCustomFields_of_not hr ?_
    unfold RustQueue.hasCustomFields at hnone
    unfold VmQueue.hasCustomFields VmQueue.customFields
    rcases hr.customFields with hnull | ⟨fields, hfields⟩
    · rw [hnull]
    · rw [hfields] at hnone ⊢
      exact hnone
  · intro hget
    exact ((of_not_keptRust (hkept "tags" hget)).2.2.2.2 rfl).imp id
      (emptyTags_of_not_hasTags hr)
  · intro v hv n hn
    have hflags := (of_not_keptRust (hkept "tags" (by rw [hv]; simp))).2.2.2.2 rfl
    rcases hflags with hflag | hnone
    · unfold RustQueue.patchPayload RustQueue.applyOverwriteRules at hv
      dsimp only at hv
      rw [hflag] at hv
      simp only [Bool.not_true, Bool.false_eq_true, if_false] at hv
      obtain ⟨hmem, hid⟩ := mem_normalizeTags htags hn
      -- the current tags are the ids of the record, so they are among those that are merged
      have hcurrent : n ∈ RustQueue.normalizeTags (field "tags"
          (RustQueue.normalizeCurrentVmPayload rs r flags.supportsVirtualMachineTypeField)) := by
        unfold RustQueue.normalizeCurrentVmPayload
        rw [field_tags_normalized]
        unfold RustQueue.normalizeTags
        dsimp only
        rw [mem_sortedSet, List.mem_filterMap]
        exact ⟨.int n, List.mem_map_of_mem hmem, congrArg some (clamp_of_isId hid)⟩
      unfold RustQueue.mergeTags at hv
      split at hv
      · rename_i hget
        rw [hget] at hv
        cases hv
      · dsimp only at hv
        split at hv
        · rw [Dict.get_erase_self] at hv
          cases hv
        · rw [Dict.get_set_self] at hv
          rw [← Option.some.inj hv, tagIds_ints, mem_sortedSet]
          exact List.mem_append_left _ hcurrent
    · rw [tagIds_of_emptyTags (emptyTags_of_not_hasTags hr hnone)] at hn
      cases hn

theorem all_add {P : Record → Prop} {index : VmQueue.ScopeIndex} {vmType : Option String}
    {key : Option (ℤ × ℤ)} (hr : P r) (htyped : ∀ kv ∈ index.typed, P kv.2)
    (huntyped : ∀ kv ∈ index.untyped, ∀ r ∈ kv.2, P r) :
    (∀ kv ∈ (index.add vmType r key).typed, P kv.2) ∧
      ∀ kv ∈ (index.add vmType r key).untyped, ∀ r ∈ kv.2, P r := by
  unfold VmQueue.ScopeIndex.add
  cases key with
  | none => exact ⟨htyped, huntyped⟩
  | some key =>
    dsimp only
    constructor
    · intro kv hkv
      cases vmType with
      | none => exact htyped kv hkv
      | some t =>
        dsimp only at hkv
        unfold Dict.setDefault at hkv
        split at hkv
        · exact htyped kv hkv
        · rcases Dict.mem_set hkv with hkv | rfl
          · exact htyped kv hkv
          · exact hr
    · intro kv hkv r' hr'
      rcases Dict.mem_set hkv with hkv | rfl
      · exact huntyped kv hkv r' hr'
      · rcases List.mem_append.mp hr' with hr' | hr'
        · cases hget : Dict.get key index.untyped with
          | none =>
            rw [hget] at hr'
            cases hr'
          | some records =>
            rw [hget] at hr'
            exact huntyped _ (Dict.mem_of_get hget) r' hr'
        · rw [List.mem_singleton.mp hr']
          exact hr

variable (rs) in
/-- The records of the indexes are those of the snapshot. -/
theorem all_indexes {P : Record → Prop} {snapshot : List Record} (h : ∀ r ∈ snapshot, P r) :
    ∀ scope : VmQueue.Scope,
      (∀ kv ∈ ((RustQueue.buildVmSnapshotIdentityIndexes rs snapshot).of scope).typed, P kv.2) ∧
      ∀ kv ∈ ((RustQueue.buildVmSnapshotIdentityIndexes rs snapshot).of scope).untyped,
        ∀ r ∈ kv.2, P r := by
  unfold RustQueue.buildVmSnapshotIdentityIndexes
  apply List.foldlRecOn (motive := fun indexes : VmQueue.Indexes => ∀ scope,
    (∀ kv ∈ (indexes.of scope).typed, P kv.2) ∧
      ∀ kv ∈ (indexes.of scope).untyped, ∀ r ∈ kv.2, P r)
  · intro scope
    cases scope <;> simp [VmQueue.Indexes.empty, VmQueue.Indexes.of]
  · intro indexes hindexes r hr scope
    obtain ⟨htyped, huntyped⟩ := hindexes scope
    cases scope with
    | endpoint => exact all_add (h r hr) htyped huntyped
    | cluster => exact all_add (h r hr) htyped huntyped

theorem select_mem {P : Record → Prop} {index : VmQueue.ScopeIndex} {scopeId vmid : ℤ}
    {vmType : Option String} (htyped : ∀ kv ∈ index.typed, P kv.2)
    (huntyped : ∀ kv ∈ index.untyped, ∀ r ∈ kv.2, P r)
    (h : RustQueue.select rs index scopeId vmid vmType = some r) : P r := by
  have hcandidates : ∀ r', (Dict.get (scopeId, vmid) index.untyped).getD [] = [r'] → P r' := by
    intro r' hone
    cases hget : Dict.get (scopeId, vmid) index.untyped with
    | none =>
      rw [hget] at hone
      cases hone
    | some records =>
      rw [hget, Option.getD_some] at hone
      refine huntyped _ (Dict.mem_of_get hget) r' ?_
      rw [hone]
      exact List.mem_singleton_self _
  unfold RustQueue.select at h
  dsimp only at h
  split at h
  · split at h
    · rename_i record hget
      obtain rfl := Option.some.inj h
      exact htyped _ (Dict.mem_of_get hget)
    · split at h
      · rename_i record hone
        split at h
        · obtain rfl := Option.some.inj h
          exact hcandidates record hone
        · cases h
      · cases h
  · split at h
    · rename_i record hone
      obtain rfl := Option.some.inj h
      exact hcandidates record hone
    · cases h

/-- An update of the queue in Rust: a record of the snapshot, and its patch. -/
theorem update_rust {prepared : List PreparedVMState} {snapshot : List Record}
    {ops : List NetBoxVMOperation} {op : NetBoxVMOperation}
    (h : RustQueue.buildVmOperationQueueWithRust rs py flags prepared snapshot = some ops)
    (hop : op ∈ ops) (hmethod : op.method = .update) :
    ∃ existing ∈ snapshot, op.existingRecord = some existing ∧
      ∃ p, op.patchPayload = RustQueue.patchPayload rs flags p existing := by
  unfold RustQueue.buildVmOperationQueueWithRust at h
  obtain ⟨byKey, _, h⟩ := Option.bind_eq_some_iff.mp h
  obtain ⟨raw, hraw, hadapt⟩ := (Outcomes.mem_mapM_iff h).mp hop
  have hop' : op.method = raw.method ∧ op.existingRecord = raw.existingRecord ∧
      op.patchPayload = raw.patchPayload := by
    unfold RustQueue.adapt at hadapt
    split at hadapt
    · cases hadapt
    · obtain ⟨p, _, rfl⟩ := Option.map_eq_some_iff.mp hadapt
      exact ⟨rfl, rfl, rfl⟩
  obtain ⟨hm, he, hp⟩ := hop'
  obtain ⟨p, _, rfl⟩ := List.mem_map.mp hraw
  rw [hm] at hmethod
  unfold RustQueue.operation at hmethod he hp
  split at hmethod
  · cases hmethod
  · rename_i vmid hvmid
    rw [hvmid] at he hp
    dsimp only at he hp
    split at hmethod
    · cases hmethod
    · rename_i existing hselect
      rw [hselect] at he hp
      refine ⟨existing, ?_, he, p, hp⟩
      have hindexes := all_indexes rs (P := fun r => r ∈ snapshot) fun r hr => hr
      unfold RustQueue.selectExistingVmRecord at hselect
      dsimp only at hselect
      split at hselect
      · exact select_mem (hindexes .endpoint).1 (hindexes .endpoint).2 hselect
      · exact select_mem (hindexes .cluster).1 (hindexes .cluster).2 hselect
      · cases hselect

/-- An update of the queue in Python: a record of the snapshot, and its patch. -/
theorem update_python {prepared : List PreparedVMState} {snapshot : List Record}
    {ops : List NetBoxVMOperation} {op : NetBoxVMOperation}
    (h : VmQueue.buildVmOperationQueuePython py flags prepared snapshot = some ops)
    (hop : op ∈ ops) (hmethod : op.method = .update) :
    ∃ existing ∈ snapshot, op.existingRecord = some existing ∧
      VmQueue.patchPayload py flags op.prepared existing = some op.patchPayload := by
  obtain ⟨indexes, hindexes, h⟩ := Option.bind_eq_some_iff.mp h
  obtain ⟨p, _, hoperation⟩ := (Outcomes.mem_mapM_iff h).mp hop
  obtain ⟨hprepared, hexisting⟩ := VmQueue.operation_matched py flags hindexes hoperation
  have hids := hoperation
  obtain ⟨clusterId, hcluster, hids⟩ := Option.bind_eq_some_iff.mp hids
  obtain ⟨vmid, hvmid, -⟩ := Option.bind_eq_some_iff.mp hids
  rw [VmQueue.operation_eq py flags hindexes hcluster hvmid] at hoperation
  cases hmatched : VmQueue.matched py snapshot p with
  | none =>
    rw [hmatched] at hoperation
    obtain rfl := Option.some.inj hoperation
    cases hmethod
  | some existing =>
    rw [hmatched] at hoperation hexisting
    obtain ⟨patch, hpatch, rfl⟩ := Option.map_eq_some_iff.mp hoperation
    obtain ⟨t, _, hmem, _⟩ := VmQueue.matched_cases py hmatched
    exact ⟨existing, ((VmQueue.mem_candidates py).mp hmem).1, hexisting, hpatch⟩

end ProxboxApi.VmDispatch
