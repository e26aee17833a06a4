import ProxboxApi.OverwriteFlags

/-! The overwrite flags where a new VM turns out to have a record: the generic reconciler patches
it, without the guards of the queue. -/

namespace ProxboxApi.VmDispatch

open VmQueue (field Record PreparedVMState Flags NetBoxVMOperation VmBody validate
  normalizeCurrentVmPayload bodyFields)

variable {py : Python} {rs : RustQueue.Rust} {flags : Flags} {r : Record} {d c : VmBody}

/-- Reconciling the record writes nothing that the flags protect: where it has something and the
flag is off, the payload agrees with it or is silent, and no tag of it is missing. -/
structure Meets (flags : Flags) (r : Record) (d c : VmBody) : Prop where
  role : d.role = none ∨ d.role = c.role ∨ flags.overwriteVmRole = true ∨ emptyRelation "role" r
  virtualMachineType : d.virtualMachineType = none ∨ d.virtualMachineType = c.virtualMachineType ∨
    flags.overwriteVmType = true ∨ emptyRelation "virtual_machine_type" r
  description : d.description = none ∨ d.description = c.description ∨
    flags.overwriteVmDescription = true ∨ emptyDescription r
  customFields : (Json.obj c.customFields).pyEq (.obj d.customFields) = true ∨
    flags.overwriteVmCustomFields = true ∨ emptyCustomFields r
  tags : d.tags = c.tags ∨ ((flags.overwriteVmTags = true ∨ emptyTags r) ∧
    ∀ n ∈ tagIds (field "tags" r), n ∈ d.tags)

/-- The fields of the desired body that differ. -/
def differing (d c : VmBody) : Json.Fields :=
  d.dump.filter fun kv => !(field kv.1 c.dump).pyEq kv.2

theorem get_differing {k : String} : Dict.get k (differing d c) =
    (Dict.get k d.dump).filter fun v => !(field k c.dump).pyEq v := by
  unfold differing
  rw [Dict.get_filter_of_nodup (VmQueue.nodup_keys_dump d)]

theorem get_dump : Dict.get "role" d.dump = VmQueue.relationJson d.role ∧
    Dict.get "virtual_machine_type" d.dump = VmQueue.relationJson d.virtualMachineType ∧
    Dict.get "description" d.dump = d.description.map .str ∧
    Dict.get "custom_fields" d.dump = some (.obj d.customFields) ∧
    Dict.get "tags" d.dump = some (.arr (d.tags.map .int)) := by
  simp [VmBody.dump, Dict.get_append, VmQueue.get_optionalField, Dict.get]

theorem relation_differs {k : String} {x y : Option VmQueue.ObjectId}
    (hd : Dict.get k d.dump = VmQueue.relationJson x)
    (hc : Dict.get k c.dump = VmQueue.relationJson y) :
    Dict.get k (differing d c) ≠ none ↔ x ≠ none ∧ x ≠ y := by
  rw [get_differing, field, hd, hc]
  cases x with
  | none => simp [VmQueue.relationJson]
  | some n =>
    cases y with
    | none => simp [VmQueue.relationJson, Json.pyEq]
    | some m =>
      simp [VmQueue.relationJson, Json.pyEq, Json.number, Option.filter, Subtype.ext_iff]

theorem description_differs : Dict.get "description" (differing d c) ≠ none ↔
    d.description ≠ none ∧ d.description ≠ c.description := by
  rw [get_differing, field, get_dump.2.2.1, get_dump.2.2.1]
  cases d.description with
  | none => simp
  | some s =>
    cases c.description with
    | none => simp [Json.pyEq, Option.filter]
    | some t => simp [Json.pyEq, Option.filter, @eq_comm _ t s]

theorem customFields_differ : Dict.get "custom_fields" (differing d c) ≠ none ↔
    (Json.obj c.customFields).pyEq (.obj d.customFields) = false := by
  rw [get_differing, field, get_dump.2.2.2.1, get_dump.2.2.2.1]
  simp [Option.filter]

theorem get_tags_differing : Dict.get "tags" (differing d c) =
    if d.tags = c.tags then none else some (.arr (d.tags.map .int)) := by
  rw [get_differing, field, get_dump.2.2.2.2, get_dump.2.2.2.2, Option.getD_some]
  by_cases heq : d.tags = c.tags
  · simp [heq, VmQueue.pyEq_ints.mpr, Option.filter]
  · have hne : (Json.arr (c.tags.map .int)).pyEq (.arr (d.tags.map .int)) = false := by
      rw [Bool.eq_false_iff]
      exact fun h => heq (VmQueue.pyEq_ints.mp h).symm
    simp [heq, hne, Option.filter]

/-- The patch of the reconciler is protected exactly where the body meets the record. -/
theorem protected_differing : Protected flags r (differing d c) ↔ Meets flags r d c := by
  constructor
  · intro h
    constructor
    · by_contra hne
      push Not at hne
      rcases h.role ((relation_differs get_dump.1 get_dump.1).mpr ⟨hne.1, hne.2.1⟩) with h | h
      · exact hne.2.2.1 h
      · exact hne.2.2.2 h
    · by_contra hne
      push Not at hne
      rcases h.virtualMachineType ((relation_differs get_dump.2.1 get_dump.2.1).mpr
        ⟨hne.1, hne.2.1⟩) with h | h
      · exact hne.2.2.1 h
      · exact hne.2.2.2 h
    · by_contra hne
      push Not at hne
      rcases h.description (description_differs.mpr ⟨hne.1, hne.2.1⟩) with h | h
      · exact hne.2.2.1 h
      · exact hne.2.2.2 h
    · cases heq : (Json.obj c.customFields).pyEq (.obj d.customFields) with
      | true => exact .inl rfl
      | false => exact .inr (h.customFields (customFields_differ.mpr heq))
    · by_cases heq : d.tags = c.tags
      · exact .inl heq
      · have hget : Dict.get "tags" (differing d c) = some (.arr (d.tags.map .int)) := by
          rw [get_tags_differing, if_neg heq]
        refine .inr ⟨h.tags (by simp [hget]), fun n hn => ?_⟩
        have hkept := h.tagsKept _ hget n hn
        rwa [tagIds_ints] at hkept
  · intro h
    constructor
    · intro hget
      obtain ⟨hne, hdiffer⟩ := (relation_differs get_dump.1 get_dump.1).mp hget
      exact (h.role.resolve_left hne).resolve_left hdiffer
    · intro hget
      obtain ⟨hne, hdiffer⟩ := (relation_differs get_dump.2.1 get_dump.2.1).mp hget
      exact (h.virtualMachineType.resolve_left hne).resolve_left hdiffer
    · intro hget
      obtain ⟨hne, hdiffer⟩ := description_differs.mp hget
      exact (h.description.resolve_left hne).resolve_left hdiffer
    · intro hget
      refine h.customFields.resolve_left ?_
      rw [customFields_differ.mp hget]
      simp
    · intro hget
      rw [get_tags_differing] at hget
      split at hget
      · exact absurd rfl hget
      · rename_i hne
        exact (h.tags.resolve_left hne).1
    · intro v hv n hn
      rw [get_tags_differing] at hv
      split at hv
      · cases hv
      · rename_i hne
        rw [← Option.some.inj hv, tagIds_ints]
        exact (h.tags.resolve_left hne).2 n hn

/-- The body that an operation's payload is reconciled with, where its VM turns out to have the
record. -/
def AdoptionMeets (py : Python) (flags : Flags) (enabled : Bool) (op : NetBoxVMOperation)
    (r : Record) : Prop :=
  ∀ d c, validate py (legacyCustomFieldsPayload flags.overwriteVmCustomFields enabled
      op.prepared.desiredPayload) = some d →
    validate py (normalizeCurrentVmPayload r true) = some c →
    (field "id" r).isNull = false → Meets flags r d c

theorem Protected.nil : Protected flags r [] := by
  constructor <;> simp [Dict.get]

theorem patch_differing {payload : Json.Fields} :
    (vmCall py payload r).patchPayload d.dump c.dump = differing d c := by
  unfold Reconcile.Call.patchPayload vmCall differing
  simp

theorem reconcilePatch_protected {payload : Json.Fields} :
    (∀ patch, reconcilePatch py payload r = some patch → Protected flags r patch) ↔
      ∀ d c, validate py payload = some d → validate py (normalizeCurrentVmPayload r true) = some c →
        (field "id" r).isNull = false → Meets flags r d c := by
  constructor
  · intro h d c hd hc hid
    rw [← protected_differing]
    by_cases hempty : (differing d c).isEmpty = true
    · rw [List.isEmpty_iff.mp hempty]
      exact Protected.nil
    · apply h
      unfold reconcilePatch
      have hdump : (vmCall py payload r).dump payload = some d.dump := by
        change (validate py payload).map VmBody.dump = _
        rw [hd, Option.map_some]
      have hcurrent : (vmCall py payload r).current r = some c.dump := by
        change (validate py (normalizeCurrentVmPayload r true)).map VmBody.dump = _
        rw [hc, Option.map_some]
      rw [hdump, hcurrent]
      change (if (_ || _) = true then none else some _) = _
      rw [patch_differing, hid, Bool.eq_false_iff.mpr hempty]
      simp
  · intro h patch hpatch
    unfold reconcilePatch at hpatch
    obtain ⟨desired, hdesired, hpatch⟩ := Option.bind_eq_some_iff.mp hpatch
    obtain ⟨current, hcurrent, hpatch⟩ := Option.bind_eq_some_iff.mp hpatch
    obtain ⟨d, hd, rfl⟩ := Option.map_eq_some_iff.mp hdesired
    obtain ⟨c, hc, rfl⟩ := Option.map_eq_some_iff.mp hcurrent
    rw [patch_differing] at hpatch
    dsimp only at hpatch
    split at hpatch
    · cases hpatch
    · rename_i hsent
      simp only [Bool.or_eq_true, not_or, Bool.not_eq_true] at hsent
      rw [← Option.some.inj hpatch, protected_differing]
      exact h d c hd hc hsent.2

/-- The dispatch protects the record that a new VM resolves to exactly where the body meets it. -/
theorem sent_create {op : NetBoxVMOperation} {enabled : Bool} {answers : Answers}
    (hmethod : op.method = .create) {existed : Record → Prop} :
    (∀ x ∈ sent py flags enabled answers op, existed x.1 → Protected flags x.1 x.2) ↔
      ∀ r, answers.resolved op = some r → existed r → AdoptionMeets py flags enabled op r := by
  unfold sent
  rw [hmethod]
  dsimp only
  cases hresolved : answers.resolved op with
  | none => simp
  | some r =>
    dsimp only
    have heach : (∀ r', some r = some r' → existed r' → AdoptionMeets py flags enabled op r') ↔
        (existed r → AdoptionMeets py flags enabled op r) := by simp
    rw [heach]
    unfold AdoptionMeets
    rw [← reconcilePatch_protected]
    constructor
    · intro h hexisted patch hpatch
      refine h (r, patch) ?_ hexisted
      simp [hpatch]
    · intro h x hx hexisted
      obtain ⟨patch, hpatch, rfl⟩ := List.mem_map.mp hx
      exact h hexisted patch (Option.mem_toList.mp hpatch)

/-- Every update of either queue is protected. -/
theorem update_protected {engine : Engine} {prepared : List PreparedVMState}
    {snapshot : List Record} {ops : List NetBoxVMOperation} {op : NetBoxVMOperation}
    (enabled : Bool) (answers : Answers)
    (hqueue : queue py rs engine flags prepared snapshot = some ops)
    (hsnapshot : ∀ r ∈ snapshot, RestRecord r) (hop : op ∈ ops) (hmethod : op.method = .update) :
    ∀ x ∈ sent py flags enabled answers op, Protected flags x.1 x.2 := by
  cases engine with
  | python =>
    obtain ⟨existing, hmem, hexisting, hpatch⟩ := update_python hqueue hop hmethod
    exact sent_update hmethod hexisting (protected_python (hsnapshot existing hmem) hpatch)
  | rust =>
    obtain ⟨existing, hmem, hexisting, p, hpatch⟩ := update_rust hqueue hop hmethod
    refine sent_update hmethod hexisting ?_
    rw [hpatch]
    exact protected_rust p (hsnapshot existing hmem)

/-- The PATCHes of a run keep to the flags exactly if those of the new VMs that turn out to have a
record do: the guards of both queues hold, the reconciler has none. -/
theorem patches_protected_iff (engine : Engine) (enabled : Bool) (answers : Answers)
    (existed : Record → Prop) {prepared : List PreparedVMState} {snapshot : List Record}
    {ops : List NetBoxVMOperation} (hqueue : queue py rs engine flags prepared snapshot = some ops)
    (hsnapshot : ∀ r ∈ snapshot, RestRecord r) :
    (∀ op ∈ ops, ∀ x ∈ sent py flags enabled answers op, existed x.1 → Protected flags x.1 x.2) ↔
      ∀ op ∈ ops, op.method = .create → ∀ r, answers.resolved op = some r → existed r →
        AdoptionMeets py flags enabled op r := by
  refine forall₂_congr fun op hop => ?_
  cases hmethod : op.method with
  | get =>
    unfold sent
    rw [hmethod]
    simp
  | create => simpa using sent_create hmethod
  | update =>
    have hprotected := update_protected enabled answers hqueue hsnapshot hop hmethod
    constructor
    · rintro _ ⟨⟩
    · intro _ x hx _
      exact hprotected x hx

def noFlags : Flags := ⟨false, false, false, false, false, true⟩

/-- Guest 100 of endpoint 500, as the sync prepares it. -/
def preparedDb : PreparedVMState where
  clusterName := "lab"
  resource := [("vmid", .int 100)]
  desiredPayload := [("name", .str "db"), ("status", .str "active"), ("cluster", .int 1),
    ("role", .int 20), ("tags", .arr [.int 1]), ("description", .str "Synced"),
    ("custom_fields", .obj [("proxmox_endpoint_id", .int 500), ("proxmox_vm_id", .int 100)])]
  vmType := "qemu"

/-- The VM of that guest, which only its sync state tells. -/
def recordDb : Record :=
  [("id", .int 7), ("name", .str "db"), ("status", .str "active"),
    ("cluster", .obj [("id", .int 1)]), ("role", .obj [("id", .int 30)]),
    ("tags", .arr [.obj [("id", .int 4)]]), ("description", .str "production"),
    ("custom_fields", .obj [])]

theorem restRecord_db : RestRecord recordDb where
  role := .inr (.inr ⟨_, 30, ⟨by decide, by decide⟩, rfl, rfl⟩)
  virtualMachineType := .inl rfl
  description := .inr ⟨_, rfl⟩
  customFields := .inr ⟨_, rfl⟩
  tags := by
    refine .inr ⟨_, rfl, ?_⟩
    intro item hitem
    obtain rfl := List.mem_singleton.mp hitem
    exact .inr ⟨_, 4, ⟨by decide, by decide⟩, rfl, rfl⟩

theorem patches_protected_iff_db : ∃ ops,
    queue .ascii .ascii .python noFlags [preparedDb] [recordDb] = some ops ∧
    ((∀ op ∈ ops, ∀ x ∈ sent .ascii noFlags true ⟨fun _ => some recordDb, fun _ => none⟩ op,
        True → Protected noFlags x.1 x.2) ↔
      ∀ op ∈ ops, op.method = .create → ∀ r, some recordDb = some r → True →
        AdoptionMeets .ascii noFlags true op r) := by
  have hsnapshot : ∀ r ∈ [recordDb], RestRecord r := by simpa using restRecord_db
  have hqueue : queue .ascii .ascii .python noFlags [preparedDb] [recordDb] =
      some [⟨.create, preparedDb, none, []⟩] := rfl
  exact ⟨_, hqueue, patches_protected_iff .python true ⟨fun _ => some recordDb, fun _ => none⟩
    (fun _ => True) hqueue hsnapshot⟩

/-- With all flags off, the role, the description and the tags of a VM of the snapshot are
written over: the queue does not match it, and the dispatch resolves it. -/
theorem adopted_vm_overwritten : ∃ ops,
    queue .ascii .ascii .python noFlags [preparedDb] [recordDb] = some ops ∧
    ¬ ∀ op ∈ ops, ∀ x ∈ sent .ascii noFlags true ⟨fun _ => some recordDb, fun _ => none⟩ op,
      x.1 ∈ [recordDb] → Protected noFlags x.1 x.2 := by
  refine ⟨_, rfl, ?_⟩
  intro h
  have hpatch := h _ List.mem_cons_self (recordDb, [("role", .int 20), ("tags", .arr [.int 1]),
    ("description", .str "Synced")]) List.mem_cons_self (by simp)
  have hrole := hpatch.role (by simp [Dict.get])
  revert hrole
  simp [noFlags, emptyRelation, recordDb, field, Dict.get]

end ProxboxApi.VmDispatch
