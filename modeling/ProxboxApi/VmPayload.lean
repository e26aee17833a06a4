import Mathlib.Data.List.Dedup
import Mathlib.Data.List.Sort
import ProxboxApi.VmIdentity

/-! The body that NetBox VM payloads are validated into before they are compared
(`NetBoxVirtualMachineCreateBody`), and the payload it dumps to. -/

namespace ProxboxApi.VmQueue

variable (py : Python)

/-- `ProxmoxToNetBoxVMStatus`. -/
inductive VmStatus where
  | active
  | offline
  | planned
  deriving DecidableEq, Repr

def VmStatus.text : VmStatus → String
  | .active => "active"
  | .offline => "offline"
  | .planned => "planned"

def VmStatus.ofText (text : String) : VmStatus :=
  if text ∈ ["running", "online", "active"] then .active
  else if text ∈ ["stopped", "paused", "offline"] then .offline
  else if text = "planned" then .planned
  else .active

/-- `from_proxmox`: a nested choice is read by its value, or by its label if it has none. -/
def fromProxmox (raw : Json) : VmStatus :=
  let raw := match raw with
    | .obj fields => (Dict.get "value" fields).getD (field "label" fields)
    | raw => raw
  .ofText (py.lower (Text.strip (if Python.truthy raw then py.str raw else "active")))

/-- `normalize_status`. -/
def normalizeStatus (value : Json) : VmStatus :=
  fromProxmox py (if Python.truthy value then value else .str "active")

/-- A positive NetBox object id. -/
abbrev ObjectId := { n : ℤ // 0 < n }

/-- The fields after validation. -/
structure VmBody where
  name : String
  status : VmStatus
  cluster : Option ObjectId
  device : Option ObjectId
  site : Option ObjectId
  virtualMachineType : Option ObjectId
  role : Option ObjectId
  vcpus : Option { n : ℤ // n ≠ 0 }
  memory : ℤ
  disk : ℤ
  tags : List ℤ
  customFields : Json.Fields
  description : Option String
  tags_sorted : tags.Pairwise (· < ·)

/-- What a Pydantic `int` field makes of a value. -/
def laxInt : Json → Option ℤ
  | .int n => some n
  | .bool b => some (if b then 1 else 0)
  | .float q => py.laxFloat q
  | .str s => py.laxInt s
  | _ => none

/-- `normalize_relations`, the `int | None` field after it, and its test for a positive id;
`none` is a validation error. -/
def relationField (name : String) (payload : Json.Fields) : Option (Option ObjectId) :=
  let value := match field name payload with
    | .obj fields => field "id" fields
    | value => value
  match value with
  | .null => some none
  | value => do
    let n ← laxInt py value
    if h : 0 < n then some (some ⟨n, h⟩) else none

/-- `coerce_optional_vcpus`. -/
def coerceOptionalVcpus (value : Json) : Option { n : ℤ // n ≠ 0 } := do
  let n ← py.int value
  if h : n ≠ 0 then some ⟨n, h⟩ else none

/-- `coerce_nullable_vm_ints`. -/
def coerceNullableVmInts (value : Json) : ℤ := (py.int value).getD 0

/-- A tag given as an object or as an id. -/
def tagId (item : Json) : Option ℤ :=
  py.int (match item with
    | .obj fields => field "id" fields
    | item => item)

/-- `sorted(set(...))`. -/
def sortedSet (ids : List ℤ) : List ℤ := ids.dedup.insertionSort (· ≤ ·)

theorem sortedSet_sorted (ids : List ℤ) : (sortedSet ids).Pairwise (· < ·) := by
  have hle : (sortedSet ids).Pairwise (· ≤ ·) := List.pairwise_insertionSort _ _
  have hnodup : (sortedSet ids).Nodup :=
    (List.perm_insertionSort _ _).nodup_iff.mpr ids.nodup_dedup
  exact hle.imp₂ (fun _ _ hle hne => lt_of_le_of_ne hle hne) hnodup

theorem mem_sortedSet {ids : List ℤ} {n : ℤ} : n ∈ sortedSet ids ↔ n ∈ ids := by
  rw [sortedSet, (List.perm_insertionSort _ _).mem_iff, List.mem_dedup]

theorem sortedSet_of_sorted {ids : List ℤ} (h : ids.Pairwise (· < ·)) : sortedSet ids = ids := by
  have hnodup : ids.Nodup := h.imp ne_of_lt
  rw [sortedSet, hnodup.dedup]
  exact (h.imp le_of_lt).insertionSort_eq

theorem sortedSet_congr {ids ids' : List ℤ} (h : ∀ n, n ∈ ids ↔ n ∈ ids') :
    sortedSet ids = sortedSet ids' := by
  have hdedup : ids.dedup.Perm ids'.dedup := by
    rw [List.perm_ext_iff_of_nodup ids.nodup_dedup ids'.nodup_dedup]
    intro n
    rw [List.mem_dedup, List.mem_dedup, h n]
  have hperm : (sortedSet ids).Perm (sortedSet ids') :=
    (List.perm_insertionSort _ _).trans (hdedup.trans (List.perm_insertionSort _ _).symm)
  exact hperm.eq_of_pairwise' ((sortedSet_sorted ids).imp le_of_lt)
    ((sortedSet_sorted ids').imp le_of_lt)

/-- The items `normalize_tags` goes through; `none` is the `TypeError` of a value that cannot
be iterated. -/
def tagItems : Json → Option (List Json)
  | .null => some []
  | .arr items => some items
  | .str s => some (s.toList.map fun ch => .str (String.singleton ch))
  | .obj fields => some (fields.map fun kv => .str kv.1)
  | _ => none

def bodyFields : List String :=
  ["name", "status", "cluster", "device", "site", "virtual_machine_type", "role", "vcpus",
    "memory", "disk", "tags", "custom_fields", "description"]

def nameField : Json → Option String
  | .str name => some name
  | _ => none

def descriptionField : Json → Option (Option String)
  | .null => some none
  | .str description => some (some description)
  | _ => none

def customFieldsField (payload : Json.Fields) : Option Json.Fields :=
  match Dict.get "custom_fields" payload with
  | none => some []
  | some (.obj fields) => some fields
  | some _ => none

/-- `NetBoxVirtualMachineCreateBody.model_validate`; `none` is an exception. -/
def validate (payload : Json.Fields) : Option VmBody := do
  guard (payload.all fun kv => decide (kv.1 ∈ bodyFields))
  let name ← nameField (field "name" payload)
  let status ← Dict.get "status" payload
  let cluster ← relationField py "cluster" payload
  let device ← relationField py "device" payload
  let site ← relationField py "site" payload
  let virtualMachineType ← relationField py "virtual_machine_type" payload
  let role ← relationField py "role" payload
  let items ← tagItems (field "tags" payload)
  let customFields ← customFieldsField payload
  let description ← descriptionField (field "description" payload)
  some
    { name, cluster, device, site, virtualMachineType, role, customFields, description
      status := normalizeStatus py status
      vcpus := coerceOptionalVcpus py (field "vcpus" payload)
      memory := coerceNullableVmInts py (field "memory" payload)
      disk := coerceNullableVmInts py (field "disk" payload)
      tags := sortedSet (items.filterMap (tagId py))
      tags_sorted := sortedSet_sorted _ }

def optionalField (name : String) (value : Option Json) : Json.Fields :=
  match value with
  | some value => [(name, value)]
  | none => []

theorem keys_optionalField (name : String) (value : Option Json) :
    (Dict.keys (optionalField name value)).Sublist [name] := by
  cases value <;> simp [optionalField, Dict.keys]

/-- A dump has no other fields than those of its schema. -/
theorem field_eq_null {names : List String} {fields : Json.Fields} {key : String}
    (hkeys : (Dict.keys fields).Sublist names) (h : key ∉ names) : field key fields = .null := by
  have hnone : Dict.get key fields = none :=
    Dict.get_eq_none_iff.mpr fun hkey => h (hkeys.subset hkey)
  rw [field, hnone, Option.getD_none]

def relationJson (relation : Option ObjectId) : Option Json := relation.map fun n => .int n.1

/-- `model_dump(exclude_none=True)`. -/
def VmBody.dump (b : VmBody) : Json.Fields :=
  [("name", .str b.name), ("status", .str b.status.text)] ++
    optionalField "cluster" (relationJson b.cluster) ++
    optionalField "device" (relationJson b.device) ++
    optionalField "site" (relationJson b.site) ++
    optionalField "virtual_machine_type" (relationJson b.virtualMachineType) ++
    optionalField "role" (relationJson b.role) ++
    optionalField "vcpus" (b.vcpus.map fun n => .int n.1) ++
    [("memory", .int b.memory), ("disk", .int b.disk), ("tags", .arr (b.tags.map .int)),
      ("custom_fields", .obj b.customFields)] ++
    optionalField "description" (b.description.map .str)

/-- `normalize_current_vm_payload`. -/
def normalizeCurrentVmPayload (record : Record) (supportsVirtualMachineTypeField : Bool) :
    Json.Fields :=
  (["name", "status", "cluster", "device", "site", "role", "vcpus", "memory", "disk", "tags",
    "custom_fields", "description"].map fun name => (name, field name record)) ++
    if supportsVirtualMachineTypeField then
      [("virtual_machine_type", field "virtual_machine_type" record)]
    else []

end ProxboxApi.VmQueue
