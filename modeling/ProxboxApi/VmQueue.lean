import ProxboxApi.VmPayload

/-! `build_vm_operation_queue_python`. -/

namespace ProxboxApi.VmQueue

variable (py : Python)

structure Flags where
  overwriteVmRole : Bool
  overwriteVmType : Bool
  overwriteVmTags : Bool
  overwriteVmDescription : Bool
  overwriteVmCustomFields : Bool
  supportsVirtualMachineTypeField : Bool
  deriving DecidableEq, Repr

inductive Method where
  | get
  | create
  | update
  deriving DecidableEq, Repr

structure NetBoxVMOperation where
  method : Method
  prepared : PreparedVMState
  existingRecord : Option Record
  patchPayload : Json.Fields

/-- The fields of the desired payload that differ from the current one. -/
def diffPayload (desired current : Json.Fields) : Json.Fields :=
  desired.filter fun kv => !(field kv.1 current).pyEq kv.2

/-- A relation the operator may keep: dropped from the patch if the record has one. -/
def guardRelation (overwrite : Bool) (name : String) (existing : Record) (patch : Json.Fields) :
    Option Json.Fields :=
  if overwrite then some patch
  else do
    match ← relationId py (field name existing) with
    | some _ => some (Dict.erase name patch)
    | none => some patch

def hasDescription (existing : Record) : Bool :=
  match field "description" existing with
  | .str description => description ≠ ""
  | _ => false

def hasCustomFields (existing : Record) : Bool :=
  match customFields existing with
  | some fields => !fields.isEmpty
  | none => false

def hasTags (existing : Record) : Bool :=
  match field "tags" existing with
  | .arr items => !items.isEmpty
  | _ => false

/-- The tags of the patch: those of the record are kept, whoever set them. -/
def mergeTags (desired current : List ℤ) (patch : Json.Fields) : Json.Fields :=
  match Dict.get "tags" patch with
  | none => patch
  | some _ =>
    let merged := sortedSet (current ++ desired)
    if merged = current then Dict.erase "tags" patch
    else Dict.set "tags" (.arr (merged.map .int)) patch

/-- The overwrite guards, in the order of the source. -/
def applyGuards (flags : Flags) (existing : Record) (desired current : VmBody)
    (patch : Json.Fields) : Option Json.Fields := do
  let patch ← guardRelation py flags.overwriteVmRole "role" existing patch
  let patch ← guardRelation py flags.overwriteVmType "virtual_machine_type" existing patch
  let patch := if !flags.overwriteVmDescription && hasDescription existing
    then Dict.erase "description" patch else patch
  let patch := if !flags.overwriteVmCustomFields && hasCustomFields existing
    then Dict.erase "custom_fields" patch else patch
  if !flags.overwriteVmTags then
    some (if hasTags existing then Dict.erase "tags" patch else patch)
  else some (mergeTags desired.tags current.tags patch)

/-- The desired payload that is compared. -/
def desiredPayload (flags : Flags) (desired : VmBody) : Json.Fields :=
  if flags.supportsVirtualMachineTypeField then desired.dump
  else Dict.erase "virtual_machine_type" desired.dump

/-- The patch for a prepared VM against the record it was matched with. -/
def patchPayload (flags : Flags) (prepared : PreparedVMState) (existing : Record) :
    Option Json.Fields := do
  let desired ← validate py prepared.desiredPayload
  let current ← validate py
    (normalizeCurrentVmPayload existing flags.supportsVirtualMachineTypeField)
  applyGuards py flags existing desired current
    (diffPayload (desiredPayload flags desired) current.dump)

/-- One turn of the loop over the prepared VMs. -/
def operation (flags : Flags) (indexes : Indexes) (prepared : PreparedVMState) :
    Option NetBoxVMOperation := do
  let clusterId ← relationId py (field "cluster" prepared.desiredPayload)
  let endpointId := extractProxmoxEndpointId py prepared.desiredPayload
  let vmid ← relationId py (field "vmid" prepared.resource)
  match selectExistingVmRecord py prepared endpointId clusterId vmid indexes with
  | none => some ⟨.create, prepared, none, []⟩
  | some existing => do
    let patch ← patchPayload py flags prepared existing
    some ⟨if patch.isEmpty then .get else .update, prepared, some existing, patch⟩

/-- `build_vm_operation_queue_python`; `none` is an exception. -/
def buildVmOperationQueuePython (flags : Flags) (prepared : List PreparedVMState)
    (snapshot : List Record) : Option (List NetBoxVMOperation) := do
  let indexes ← buildVmSnapshotIdentityIndexes py snapshot
  prepared.mapM (operation py flags indexes)

end ProxboxApi.VmQueue
