import Mathlib
import ProxboxApi.VmQueue

/-! The queue builder in Rust (`proxbox-reconcile-rs`) and the adaptation of its operations. Integers
that `serde_json` holds as floats stay integers here. -/

namespace ProxboxApi.RustQueue

open VmQueue (field Record PreparedVMState Flags Method NetBoxVMOperation ScopeIndex Indexes sortedSet)

/-- `str::to_lowercase`, `to_string` of a float, and the `f64` nearest to a number. -/
structure Rust where
  toLowercase : String → String
  floatText : ℚ → String
  asF64 : ℚ → ℚ

/-- The operations on ASCII text and on whole numbers up to 2^53. -/
def Rust.ascii : Rust where
  toLowercase := Python.lowerAscii
  floatText q := toString q.num
  asF64 := id

/-- The characters that `str::trim` trims. -/
def isWhitespace (c : Char) : Bool :=
  let n := c.toNat
  (9 ≤ n && n ≤ 13) || n = 32 || n = 0x85 || n = 0xa0 || n = 0x1680 ||
    (0x2000 ≤ n && n ≤ 0x200a) || n = 0x2028 || n = 0x2029 || n = 0x202f || n = 0x205f ||
    n = 0x3000

def trim (s : String) : String := String.ofList (Text.stripChars isWhitespace s.toList)

def minI64 : ℤ := -2 ^ 63

def maxI64 : ℤ := 2 ^ 63 - 1

/-- `number_to_i64` of an integer: one that is no `i64` goes over a float, which saturates. -/
def clamp (n : ℤ) : ℤ := max minI64 (min maxI64 n)

/-- `str::parse::<i64>`. -/
def parseDigits (sign : ℤ) (digits : List Char) : Option ℤ :=
  let n := sign * Python.digitsValue digits
  if Text.isDigits digits && minI64 ≤ n && n ≤ maxI64 then some n else none

/-- `parse_i64`. -/
def parseI64 (text : String) : Option ℤ :=
  match (trim text).toList with
  | '-' :: digits => parseDigits (-1) digits
  | '+' :: digits => parseDigits 1 digits
  | digits => parseDigits 1 digits

/-- `number_to_i64`. -/
def floatToI64 (q : ℚ) : ℤ := clamp (q.num.tdiv q.den)

mutual

/-- `relation_id`. -/
def relationId : Json → Option ℤ
  | .int n => some (clamp n)
  | .float q => some (floatToI64 q)
  | .str s => parseI64 s
  | .obj fields => (relationIdAt "id" fields).or (relationIdAt "value" fields)
  | _ => none

def relationIdAt (key : String) : List (String × Json) → Option ℤ
  | [] => none
  | (k, value) :: rest => if k = key then relationId value else relationIdAt key rest

end

/-- `value_to_i64`. -/
def valueToI64 : Json → Option ℤ
  | .int n => some (clamp n)
  | .float q => some (floatToI64 q)
  | .str s => parseI64 s
  | _ => none

/-- `normalize_tags`. -/
def normalizeTags : Json → List ℤ
  | .arr items => sortedSet (items.filterMap fun item => valueToI64 (match item with
      | .obj fields => field "id" fields
      | other => other))
  | _ => []

variable (rs : Rust)

def nonempty (s : String) : Option String := if s = "" then none else some s

/-- `normalize_proxmox_vm_type`. -/
def normalizeProxmoxVmType (value : Json) : Option String :=
  let candidate := match value with
    | .obj fields => (((Dict.get "value" fields).or (Dict.get "slug" fields)).or
        (Dict.get "name" fields)).or (Dict.get "label" fields)
    | value => some value
  match candidate with
  | some (.str text) => nonempty (rs.toLowercase (trim text))
  | some (.int n) => some (rs.toLowercase (toString n))
  | some (.float q) => some (rs.toLowercase (rs.floatText q))
  | some (.bool b) => some (toString b)
  | _ => none

/-- `insert_raw`. -/
def insertRaw (key : String) (value : Json) : Json.Fields :=
  if value.isNull then [] else [(key, value)]

/-- `insert_relation`. -/
def insertRelation (key : String) (value : Json) : Json.Fields :=
  match relationId value with
  | some n => if 0 < n then [(key, .int n)] else []
  | none => []

/-- `insert_vm_int`. -/
def insertVmInt (key : String) (value : Json) : Json.Fields :=
  [(key, .int ((valueToI64 value).getD 0))]

/-- `insert_custom_fields`. -/
def insertCustomFields (value : Json) : Json.Fields :=
  [("custom_fields", match value with
    | .obj fields => .obj fields
    | _ => .obj [])]

/-- `normalize_status_text`. -/
def normalizeStatusText (raw : String) : String :=
  let text := rs.toLowercase (trim raw)
  if text ∈ ["running", "online", "active"] then "active"
  else if text ∈ ["stopped", "paused", "offline"] then "offline"
  else if text = "planned" then "planned"
  else "active"

/-- `normalize_status`: the JSON text of a value that is no string is none of the words. -/
def normalizeStatus : Json → String
  | .str text => normalizeStatusText rs text
  | _ => "active"

/-- The body that `normalize_current_vm_payload` and `normalize_desired_vm_payload` share. -/
def normalizeVmPayload (object : Json.Fields) (supportsVmType : Bool) : Json.Fields :=
  insertRaw "name" (field "name" object) ++
    [("status", .str (normalizeStatus rs (field "status" object)))] ++
    insertRelation "cluster" (field "cluster" object) ++
    insertRelation "device" (field "device" object) ++
    insertRelation "site" (field "site" object) ++
    (if supportsVmType then
      insertRelation "virtual_machine_type" (field "virtual_machine_type" object) else []) ++
    insertRelation "role" (field "role" object) ++
    insertVmInt "vcpus" (field "vcpus" object) ++
    insertVmInt "memory" (field "memory" object) ++
    insertVmInt "disk" (field "disk" object) ++
    [("tags", .arr ((normalizeTags (field "tags" object)).map .int))] ++
    insertCustomFields (field "custom_fields" object) ++
    insertRaw "description" (field "description" object)

/-- `normalize_current_vm_payload`. -/
def normalizeCurrentVmPayload (record : Record) (supportsVmType : Bool) : Json.Fields :=
  normalizeVmPayload rs record supportsVmType

/-- `normalize_desired_vm_payload`. -/
def normalizeDesiredVmPayload (desiredPayload : Json.Fields) (supportsVmType : Bool) :
    Json.Fields :=
  normalizeVmPayload rs desiredPayload supportsVmType

mutual

/-- `json_eq_loose`. -/
def jsonEqLoose : Json → Json → Bool
  | .null, .null => true
  | .bool a, .bool b => a == b
  | .str a, .str b => a == b
  | .arr left, .arr right => itemsEqLoose left right
  | .obj left, .obj right => left.length == right.length && fieldsEqLoose left right
  | .int a, .int b => rs.asF64 a == rs.asF64 b
  | .int a, .float b => rs.asF64 a == rs.asF64 b
  | .float a, .int b => rs.asF64 a == rs.asF64 b
  | .float a, .float b => rs.asF64 a == rs.asF64 b
  | _, _ => false

def itemsEqLoose : List Json → List Json → Bool
  | [], [] => true
  | x :: xs, y :: ys => jsonEqLoose x y && itemsEqLoose xs ys
  | _, _ => false

def fieldsEqLoose : List (String × Json) → List (String × Json) → Bool
  | [], _ => true
  | (k, x) :: xs, right => (match Dict.get k right with
    | some y => jsonEqLoose x y
    | none => false) && fieldsEqLoose xs right

end

/-- `diff_payloads`. -/
def diffPayloads (desired current : Json.Fields) : Json.Fields :=
  desired.filter fun kv => match Dict.get kv.1 current with
    | some value => !jsonEqLoose rs kv.2 value
    | none => true

def hasDescription (existing : Record) : Bool :=
  match field "description" existing with
  | .str description => description ≠ ""
  | _ => false

def hasCustomFields (existing : Record) : Bool :=
  match field "custom_fields" existing with
  | .obj fields => !fields.isEmpty
  | _ => false

def hasTags (existing : Record) : Bool :=
  match field "tags" existing with
  | .arr tags => !tags.isEmpty
  | _ => false

/-- The tags of `apply_overwrite_rules`, where they may be overwritten. -/
def mergeTags (desired current patch : Json.Fields) : Json.Fields :=
  match Dict.get "tags" patch with
  | none => patch
  | some _ =>
    let existing := normalizeTags (field "tags" current)
    let merged := sortedSet (existing ++ normalizeTags (field "tags" desired))
    if merged = existing then Dict.erase "tags" patch
    else Dict.set "tags" (.arr (merged.map .int)) patch

/-- `apply_overwrite_rules`. -/
def applyOverwriteRules (flags : Flags) (existing : Record) (desired current patch : Json.Fields) :
    Json.Fields :=
  let patch := if !flags.overwriteVmRole && (relationId (field "role" existing)).isSome
    then Dict.erase "role" patch else patch
  let patch := if !flags.overwriteVmType &&
      (relationId (field "virtual_machine_type" existing)).isSome
    then Dict.erase "virtual_machine_type" patch else patch
  let patch := if !flags.overwriteVmDescription && hasDescription existing
    then Dict.erase "description" patch else patch
  let patch := if !flags.overwriteVmCustomFields && hasCustomFields existing
    then Dict.erase "custom_fields" patch else patch
  if !flags.overwriteVmTags then
    if hasTags existing then Dict.erase "tags" patch else patch
  else mergeTags desired current patch

/-- The custom fields of a record or a payload. -/
def customFields (record : Record) : Option Json.Fields :=
  match field "custom_fields" record with
  | .obj fields => some fields
  | _ => none

/-- `extract_proxmox_endpoint_id`. -/
def extractProxmoxEndpointId (record : Record) : Option ℤ :=
  ((relationId (field "cf_proxmox_endpoint_id" record)).or
    (relationId (field "proxmox_endpoint_id" record))).or
      ((customFields record).bind fun fields =>
        (relationId (field "proxmox_endpoint_id" fields)).or
          (relationId (field "cf_proxmox_endpoint_id" fields)))

def storedVmid (record : Record) : Option ℤ :=
  (customFields record).bind fun fields => relationId (field "proxmox_vm_id" fields)

/-- `extract_cluster_and_proxmox_vmid`. -/
def extractClusterAndProxmoxVmid (record : Record) : Option (ℤ × ℤ) := do
  let clusterId ← relationId (field "cluster" record)
  let vmid ← storedVmid record
  some (clusterId, vmid)

/-- `extract_endpoint_and_proxmox_vmid`. -/
def extractEndpointAndProxmoxVmid (record : Record) : Option (ℤ × ℤ) := do
  let endpointId ← extractProxmoxEndpointId record
  let vmid ← storedVmid record
  some (endpointId, vmid)

/-- `extract_proxmox_vm_type`. -/
def extractProxmoxVmType (record : Record) : Option String :=
  (customFields record).bind fun fields =>
    normalizeProxmoxVmType rs (field "proxmox_vm_type" fields)

/-- `build_vm_snapshot_identity_indexes`. -/
def buildVmSnapshotIdentityIndexes (snapshot : List Record) : Indexes :=
  snapshot.foldl (fun indexes record =>
    let vmType := extractProxmoxVmType rs record
    ⟨indexes.endpoint.add vmType record (extractEndpointAndProxmoxVmid record),
      indexes.cluster.add vmType record (extractClusterAndProxmoxVmid record)⟩) Indexes.empty

/-- The choice of `select_existing_vm_record` in the scope that it has taken. -/
def select (index : ScopeIndex) (scopeId vmid : ℤ) (vmType : Option String) : Option Record :=
  let candidates := (Dict.get (scopeId, vmid) index.untyped).getD []
  match vmType with
  | some t => match Dict.get (scopeId, vmid, t) index.typed with
    | some record => some record
    | none => match candidates with
      | [record] => if extractProxmoxVmType rs record = none then some record else none
      | _ => none
  | none => match candidates with
    | [record] => some record
    | _ => none

/-- `select_existing_vm_record`. -/
def selectExistingVmRecord (prepared : PreparedVMState) (endpointId clusterId : Option ℤ)
    (vmid : ℤ) (indexes : Indexes) : Option Record :=
  let vmType := normalizeProxmoxVmType rs (.str prepared.vmType)
  match endpointId, clusterId with
  | some endpointId, _ => select rs indexes.endpoint endpointId vmid vmType
  | none, some clusterId => select rs indexes.cluster clusterId vmid vmType
  | none, none => none

/-- A `VmOperation`, without the desired payload, which is not read. -/
structure VmOperation where
  method : Method
  clusterName : String
  vmid : ℤ
  vmType : String
  existingRecord : Option Record
  patchPayload : Json.Fields

/-- `create_op`. -/
def createOp (prepared : PreparedVMState) (vmid : ℤ) : VmOperation where
  method := .create
  clusterName := prepared.clusterName
  vmid := vmid
  vmType := prepared.vmType
  existingRecord := none
  patchPayload := []

/-- The patch for a prepared VM against the record it was matched with. -/
def patchPayload (flags : Flags) (prepared : PreparedVMState) (existing : Record) : Json.Fields :=
  let desired := normalizeDesiredVmPayload rs prepared.desiredPayload
    flags.supportsVirtualMachineTypeField
  let current := normalizeCurrentVmPayload rs existing flags.supportsVirtualMachineTypeField
  applyOverwriteRules flags existing desired current (diffPayloads rs desired current)

/-- One turn of the loop of `build_vm_operation_queue`. -/
def operation (flags : Flags) (indexes : Indexes) (prepared : PreparedVMState) : VmOperation :=
  match relationId (field "vmid" prepared.resource) with
  | none => createOp prepared 0
  | some vmid =>
    match selectExistingVmRecord rs prepared (extractProxmoxEndpointId prepared.desiredPayload)
        (relationId (field "cluster" prepared.desiredPayload)) vmid indexes with
    | none => createOp prepared vmid
    | some existing =>
      let patch := patchPayload rs flags prepared existing
      { method := if patch.isEmpty then .get else .update
        clusterName := prepared.clusterName
        vmid := vmid
        vmType := prepared.vmType
        existingRecord := some existing
        patchPayload := patch }

/-- `build_vm_operation_queue`. -/
def buildVmOperationQueue (flags : Flags) (prepared : List PreparedVMState)
    (snapshot : List Record) : List VmOperation :=
  prepared.map (operation rs flags (buildVmSnapshotIdentityIndexes rs snapshot))

variable (py : Python)

abbrev ResultKey := String × ℤ × String

/-- `prepared_vm_result_key`; `none` is an exception. -/
def preparedVmResultKey (prepared : PreparedVMState) : Option ResultKey := do
  let raw := field "vmid" prepared.resource
  let vmid ← if Python.truthy raw then py.int raw else some 0
  some (prepared.clusterName, vmid,
    (VmQueue.normalizeProxmoxVmType py (.str prepared.vmType)).getD "")

/-- `_prepared_by_result_key`; `none` is an exception. -/
def preparedByResultKey : List PreparedVMState → Option (List (ResultKey × PreparedVMState))
  | [] => some []
  | prepared :: rest => do
    let key ← preparedVmResultKey py prepared
    let byKey ← preparedByResultKey rest
    if (Dict.get key byKey).isSome then none else some ((key, prepared) :: byKey)

/-- An operation of `_adapt_to_dataclasses`; `none` is an exception. -/
def adapt (byKey : List (ResultKey × PreparedVMState)) (raw : VmOperation) :
    Option NetBoxVMOperation :=
  if raw.clusterName = "" then none
  else
    let key := (raw.clusterName, raw.vmid,
      (VmQueue.normalizeProxmoxVmType py (.str raw.vmType)).getD "")
    (Dict.get key byKey).map fun prepared =>
      ⟨raw.method, prepared, raw.existingRecord, raw.patchPayload⟩

/-- `_build_vm_operation_queue_with_rust`; `none` is an exception. -/
def buildVmOperationQueueWithRust (flags : Flags) (prepared : List PreparedVMState)
    (snapshot : List Record) : Option (List NetBoxVMOperation) := do
  let byKey ← preparedByResultKey py prepared
  (buildVmOperationQueue rs flags prepared snapshot).mapM (adapt py byKey)

end ProxboxApi.RustQueue
