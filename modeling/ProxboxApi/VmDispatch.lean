import ProxboxApi.Reconcile
import ProxboxApi.RustQueue

/-! The PATCHes that `_dispatch_vm_operation_queue` sends for the operations of either engine. -/

namespace ProxboxApi.VmDispatch

open Requests (Prog)
open VmQueue (field Record PreparedVMState Flags NetBoxVMOperation VmBody validate relationId
  normalizeCurrentVmPayload)

variable (py : Python) (rs : RustQueue.Rust)

inductive Engine where
  | python
  | rust
  deriving DecidableEq

/-- The queue of an engine; `none` is an exception. -/
def queue (engine : Engine) (flags : Flags) (prepared : List PreparedVMState)
    (snapshot : List Record) : Option (List NetBoxVMOperation) :=
  match engine with
  | .python => VmQueue.buildVmOperationQueuePython py flags prepared snapshot
  | .rust => RustQueue.buildVmOperationQueueWithRust rs py flags prepared snapshot

/-- `legacy_custom_fields_payload`. -/
def legacyCustomFieldsPayload (overwrite enabled : Bool) (payload : Json.Fields) : Json.Fields :=
  if overwrite && enabled then payload else Dict.erase "custom_fields" payload

/-- What NetBox answers: the VM that the identity of a new VM resolves to, and the disk total with
which a rejected PATCH is tried again. -/
structure Answers where
  resolved : NetBoxVMOperation → Option Record
  aggregate : NetBoxVMOperation → Option ℤ

def vmPath : String := "/api/virtualization/virtual-machines/"

/-- The reconciliation of a VM that the identity resolves to. -/
def vmCall (payload : Json.Fields) (existing : Record) : Reconcile.Call where
  path := vmPath
  lookup := []
  payload := payload
  dump payload := (validate py payload).map VmBody.dump
  currentNormalizer record := normalizeCurrentVmPayload record true
  patchableFields := none
  nullableFields := []
  strictLookup := true
  lookupQueryFieldMap := []
  existingRecord := some (some existing)

/-- The PATCH of that reconciliation. -/
def reconcilePatch (payload : Json.Fields) (existing : Record) : Option Json.Fields := do
  let desired ← (vmCall py payload existing).dump payload
  let current ← (vmCall py payload existing).current existing
  let patch := (vmCall py payload existing).patchPayload desired current
  if patch.isEmpty || (field "id" existing).isNull then none else some patch

/-- The PATCHes of an operation, with the records they go to. -/
def sent (flags : Flags) (customFieldsEnabled : Bool) (answers : Answers)
    (op : NetBoxVMOperation) : List (Record × Json.Fields) :=
  match op.method with
  | .get => []
  | .create =>
    match answers.resolved op with
    | none => []
    | some existing =>
      let payload := legacyCustomFieldsPayload flags.overwriteVmCustomFields customFieldsEnabled
        op.prepared.desiredPayload
      (reconcilePatch py payload existing).toList.map fun patch => (existing, patch)
  | .update =>
    match op.existingRecord with
    | none => []
    | some existing =>
      match relationId py (field "id" existing) with
      | some (some _) =>
        let patch := legacyCustomFieldsPayload flags.overwriteVmCustomFields customFieldsEnabled
          op.patchPayload
        if patch.isEmpty then []
        else (existing, patch) :: (answers.aggregate op).toList.map fun disk =>
          (existing, Dict.set "disk" (.int disk) patch)
      | _ => []

/-- The reconciliation of a VM that is resolved asks for nothing but that PATCH. -/
theorem reconcile_asks (payload : Json.Fields) (existing : Record) :
    (Reconcile.reconcile (vmCall py payload existing)).Always (fun _ _ => True)
      (fun _ q => ∃ patch, reconcilePatch py payload existing = some patch ∧
        q = .patch vmPath existing patch) (fun _ _ => True) [] := by
  unfold Reconcile.reconcile
  cases hdump : (vmCall py payload existing).dump (vmCall py payload existing).payload with
  | none => trivial
  | some desired =>
    change (Reconcile.reconcileRecord (vmCall py payload existing) desired existing).Always _ _ _ _
    unfold Reconcile.reconcileRecord
    cases hcurrent : (vmCall py payload existing).current existing with
    | none => trivial
    | some current =>
      dsimp only
      by_cases hempty : ((vmCall py payload existing).patchPayload desired current).isEmpty = true
      · rw [if_pos hempty]
        trivial
      · rw [if_neg hempty, Requests.Prog.always_bind]
        unfold Reconcile.save
        by_cases hid : (field "id" existing).isNull = true
        · rw [if_pos hid]
          trivial
        · rw [if_neg hid]
          refine ⟨⟨_, ?_, rfl⟩, ?_⟩
          · unfold reconcilePatch
            change (vmCall py payload existing).dump payload = some desired at hdump
            rw [hdump, hcurrent]
            rw [List.isEmpty_iff] at hempty
            simp [hempty, hid]
          · rintro (e | record) _ <;> trivial

/-- NetBox's ids. -/
def IsId (n : ℤ) : Prop := 0 < n ∧ n ≤ RustQueue.maxI64

/-- A relation as NetBox's REST API renders it: null, an id, or an object with an id. -/
def RestRelation (v : Json) : Prop :=
  v = .null ∨ (∃ n, IsId n ∧ v = .int n) ∨
    ∃ fields n, IsId n ∧ v = .obj fields ∧ field "id" fields = .int n

def RestTag (v : Json) : Prop :=
  (∃ n, IsId n ∧ v = .int n) ∨ ∃ fields n, IsId n ∧ v = .obj fields ∧ field "id" fields = .int n

/-- A VM as NetBox's REST API renders it. -/
structure RestRecord (r : Record) : Prop where
  role : RestRelation (field "role" r)
  virtualMachineType : RestRelation (field "virtual_machine_type" r)
  description : field "description" r = .null ∨ ∃ s, field "description" r = .str s
  customFields : field "custom_fields" r = .null ∨ ∃ fields, field "custom_fields" r = .obj fields
  tags : field "tags" r = .null ∨ ∃ items, field "tags" r = .arr items ∧ ∀ item ∈ items, RestTag item

/-- The ids of tags that are given as ids or as objects. -/
def tagIds : Json → List ℤ
  | .arr items => items.filterMap fun item => match item with
    | .int n => some n
    | .obj fields => match field "id" fields with
      | .int n => some n
      | _ => none
    | _ => none
  | _ => []

def emptyRelation (name : String) (r : Record) : Prop := field name r = .null

def emptyDescription (r : Record) : Prop :=
  field "description" r = .null ∨ field "description" r = .str ""

def emptyCustomFields (r : Record) : Prop :=
  field "custom_fields" r = .null ∨ field "custom_fields" r = .obj []

def emptyTags (r : Record) : Prop := field "tags" r = .null ∨ field "tags" r = .arr []

/-- A PATCH writes what the flags protect only where the record has nothing, and keeps its tags. -/
structure Protected (flags : Flags) (r : Record) (patch : Json.Fields) : Prop where
  role : Dict.get "role" patch ≠ none → flags.overwriteVmRole = true ∨ emptyRelation "role" r
  virtualMachineType : Dict.get "virtual_machine_type" patch ≠ none →
    flags.overwriteVmType = true ∨ emptyRelation "virtual_machine_type" r
  description : Dict.get "description" patch ≠ none →
    flags.overwriteVmDescription = true ∨ emptyDescription r
  customFields : Dict.get "custom_fields" patch ≠ none →
    flags.overwriteVmCustomFields = true ∨ emptyCustomFields r
  tags : Dict.get "tags" patch ≠ none → flags.overwriteVmTags = true ∨ emptyTags r
  tagsKept : ∀ v, Dict.get "tags" patch = some v → ∀ n ∈ tagIds (field "tags" r), n ∈ tagIds v

end ProxboxApi.VmDispatch
