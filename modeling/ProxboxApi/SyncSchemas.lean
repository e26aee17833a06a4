import ProxboxApi.VmPayload
import ProxboxApi.VmidHelpers

/-! The schemas that VM interfaces and IP addresses are reconciled under: what
`model_validate` makes of a payload, and what `model_dump(exclude_none=True, by_alias=True)` dumps. -/

namespace ProxboxApi.SyncSchemas

open VmQueue Vmid

variable (py : Python)

/-- `s or None`. -/
def orNone (s : String) : Option String := if s = "" then none else some s

/-- `NetBoxTagRef`. -/
structure TagRef where
  name : Option String
  slug : String
  color : Option String
  deriving DecidableEq, Repr

/-- An item of `_normalized_tag_list`, as the fields of a tag; `none` is left out. -/
def tagFields : Json → Option Json.Fields
  | .obj fields => some fields
  | item =>
    (orNone (Text.strip (if Python.truthy item then py.str item else ""))).map fun text =>
      [("slug", .str text)]

/-- `str(tag.get("slug") or tag.get("name") or "")`. -/
def tagKey (tag : Json.Fields) : String :=
  if Python.truthy (field "slug" tag) then py.str (field "slug" tag)
  else if Python.truthy (field "name" tag) then py.str (field "name" tag)
  else ""

/-- The validation of an item; the texts go through `normalize_text`. -/
def tagRef (tag : Json.Fields) : Option TagRef :=
  (textOrNone py (field "slug" tag)).map fun slug =>
    ⟨textOrNone py (field "name" tag), slug, textOrNone py (field "color" tag)⟩

/-- `_normalized_tag_list` and the validation of its items. -/
def tagsField (payload : Json.Fields) : Option (List TagRef) := do
  let items ← tagItems (field "tags" payload)
  ((items.filterMap (tagFields py)).insertionSort fun tag tag' =>
    tagKey py tag ≤ tagKey py tag').mapM (tagRef py)

def TagRef.dump (tag : TagRef) : Json :=
  .obj (optionalField "name" (tag.name.map .str) ++ [("slug", .str tag.slug)] ++
    optionalField "color" (tag.color.map .str))

/-- `_relation_id`. -/
def relationId : Json → Json
  | .obj fields => field "id" fields
  | value => value

def requiredInt (value : Json) : Option ℤ := laxInt py (relationId value)

/-- An `int | None` field. -/
def optionalInt (value : Json) : Option (Option ℤ) :=
  match relationId value with
  | .null => some none
  | value => (laxInt py value).map some

/-- What a Pydantic `bool` field makes of a value that is not null. -/
def laxBool : Json → Option Bool
  | .bool b => some b
  | .int n => if n = 0 then some false else if n = 1 then some true else none
  | .float q => if q = 0 then some false else if q = 1 then some true else none
  | .str s =>
    if Python.lowerAscii s ∈ ["0", "off", "f", "false", "n", "no"] then some false
    else if Python.lowerAscii s ∈ ["1", "on", "t", "true", "y", "yes"] then some true
    else none
  | _ => none

def optionalBool : Json → Option (Option Bool)
  | .null => some none
  | value => (laxBool value).map some

/-- `_choice_value`. -/
def choiceValue : Json → Json
  | .obj fields =>
    if Python.truthy (field "value" fields) then field "value" fields else field "label" fields
  | value => value

/-- `normalize_mode`, and `normalize_type` before it is put in lower case. -/
def choiceText (value : Json) : Option String :=
  if (choiceValue value).blank then none else some (Text.strip (py.str (choiceValue value)))

/-- `NetBoxVirtualMachineInterfaceSyncState`. -/
structure VmInterfaceState where
  virtualMachine : ℤ
  name : String
  enabled : Option Bool
  type : Option String
  description : Option String
  bridge : Option ℤ
  untaggedVlan : Option ℤ
  mode : Option String
  tags : List TagRef
  customFields : Json.Fields

def vmInterfaceFields : List String :=
  ["virtual_machine", "name", "enabled", "type", "description", "bridge", "untagged_vlan", "mode",
    "tags", "custom_fields"]

/-- `model_validate`; `none` is an exception. -/
def VmInterfaceState.validate (payload : Json.Fields) : Option VmInterfaceState := do
  guard (payload.all fun kv => decide (kv.1 ∈ vmInterfaceFields))
  let virtualMachine ← requiredInt py (field "virtual_machine" payload)
  let name ← nameField (field "name" payload)
  let enabled ← optionalBool (field "enabled" payload)
  let description ← descriptionField (field "description" payload)
  let bridge ← optionalInt py (field "bridge" payload)
  let untaggedVlan ← optionalInt py (field "untagged_vlan" payload)
  let tags ← tagsField py payload
  let customFields ← customFieldsField payload
  some
    { virtualMachine, name, enabled, description, bridge, untaggedVlan, tags, customFields
      type := (choiceText py (field "type" payload)).bind fun type => orNone (py.lower type)
      mode := (choiceText py (field "mode" payload)).bind orNone }

def VmInterfaceState.dump (s : VmInterfaceState) : Json.Fields :=
  [("virtual_machine", .int s.virtualMachine), ("name", .str s.name)] ++
    optionalField "enabled" (s.enabled.map .bool) ++
    optionalField "type" (s.type.map .str) ++
    optionalField "description" (s.description.map .str) ++
    optionalField "bridge" (s.bridge.map .int) ++
    optionalField "untagged_vlan" (s.untaggedVlan.map .int) ++
    optionalField "mode" (s.mode.map .str) ++
    [("tags", .arr (s.tags.map TagRef.dump)), ("custom_fields", .obj s.customFields)]

def dumpVmInterface (payload : Json.Fields) : Option Json.Fields :=
  (VmInterfaceState.validate py payload).map VmInterfaceState.dump

/-- `NetBoxIpAddressSyncState`. -/
structure IpAddressState where
  address : String
  assignedObjectType : Option String
  assignedObjectId : Option ℤ
  status : String
  dnsName : String
  tags : List TagRef
  customFields : Json.Fields

def ipAddressFields : List String :=
  ["address", "assigned_object_type", "assigned_object_id", "status", "dns_name", "tags",
    "custom_fields"]

/-- `normalize_status`. -/
def statusText (value : Json) : String :=
  let value := choiceValue value
  let text := py.lower (Text.strip (if Python.truthy value then py.str value else "active"))
  if text = "" then "active" else text

/-- `normalize_dns_name`. -/
def dnsText (value : Json) : String :=
  if value.blank then ""
  else
    let stripped := (Text.strip (py.str value)).toList.reverse.dropWhile (· = '.')
    let text := py.lower (String.ofList stripped.reverse)
    if text = "" || text = "localhost" || text.startsWith "localhost." then ""
    else String.ofList (text.toList.take 255)

/-- `model_validate`; `none` is an exception. -/
def IpAddressState.validate (payload : Json.Fields) : Option IpAddressState := do
  guard (payload.all fun kv => decide (kv.1 ∈ ipAddressFields))
  let address ← nameField (field "address" payload)
  let assignedObjectType ← descriptionField (field "assigned_object_type" payload)
  let assignedObjectId ← optionalInt py (field "assigned_object_id" payload)
  let tags ← tagsField py payload
  let customFields ← customFieldsField payload
  some
    { address, assignedObjectType, assignedObjectId, tags, customFields
      status := statusText py (field "status" payload)
      dnsName := dnsText py (field "dns_name" payload) }

def IpAddressState.dump (s : IpAddressState) : Json.Fields :=
  [("address", .str s.address)] ++
    optionalField "assigned_object_type" (s.assignedObjectType.map .str) ++
    optionalField "assigned_object_id" (s.assignedObjectId.map .int) ++
    [("status", .str s.status), ("dns_name", .str s.dnsName),
      ("tags", .arr (s.tags.map TagRef.dump)), ("custom_fields", .obj s.customFields)]

def dumpIpAddress (payload : Json.Fields) : Option Json.Fields :=
  (IpAddressState.validate py payload).map IpAddressState.dump

end ProxboxApi.SyncSchemas
