import Mathlib.Data.Set.Basic
import ProxboxApi.Reconcile
import ProxboxApi.SyncSchemas

/-! How the interfaces of a VM are reconciled: `_reconcile_vm_interface_record` and the loop of
`sync_vm_interfaces`, and what NetBox answers to their requests. -/

namespace ProxboxApi.VmInterfaces

open Requests Reconcile SyncSchemas
open VmQueue (field)

/-- `NETBOX_VM_INTERFACE_NAME_MAX_LENGTH`. -/
def nameMaxLength : ℕ := 64

/-- `_sanitize`. -/
def sanitize (value : String) : String :=
  Text.strip (String.ofList ((Text.strip value).toList.filter fun ch =>
    decide (32 ≤ ch.toNat) && decide (ch.toNat ≠ 127)))

def sanitizedName (interfaceName fallback : String) : String :=
  if sanitize interfaceName ≠ "" then sanitize interfaceName
  else if sanitize fallback ≠ "" then sanitize fallback
  else "net0"

/-- `normalize_vm_interface_name`. -/
def normalizeVmInterfaceName (interfaceName fallback : String) : String :=
  String.ofList ((sanitizedName interfaceName fallback).toList.take nameMaxLength)

/-- Tags as NetBox has them: no slug is blank. -/
abbrev Tags := { tags : List TagRef // ∀ tag ∈ tags, Text.strip tag.slug ≠ "" }

def Tags.json (tags : Tags) : Json := .arr (tags.1.map TagRef.dump)

/-- An interface of a VM in NetBox. -/
structure Interface where
  id : ℤ
  name : String
  virtualMachine : ℤ
  enabled : Bool
  description : String
  bridge : Option ℤ
  untaggedVlan : Option ℤ
  mode : Option String
  tags : Tags
  customFields : Json.Fields

/-- A nested object; NetBox adds its name and url. -/
def nested (id : ℤ) : Json := .obj [("id", .int id)]

/-- The record that NetBox serves for an interface. -/
def Interface.serialize (i : Interface) : Record :=
  [("id", .int i.id), ("virtual_machine", nested i.virtualMachine), ("name", .str i.name),
    ("enabled", .bool i.enabled), ("bridge", (i.bridge.map nested).getD .null),
    ("mode", (i.mode.map fun mode => .obj [("value", .str mode)]).getD .null),
    ("description", .str i.description),
    ("untagged_vlan", (i.untaggedVlan.map nested).getD .null), ("tags", i.tags.json),
    ("custom_fields", .obj i.customFields)]

/-- The `current_normalizer` of both callers. -/
def currentNormalizer (record : Record) : Record :=
  ["name", "virtual_machine", "enabled", "type", "description", "bridge", "untagged_vlan", "mode",
    "tags", "custom_fields"].map fun name => (name, field name record)

/-- What the payload says besides the VM and the name; the custom fields are left out where
`legacy_custom_fields_payload` drops them. -/
structure Settings where
  untaggedVlan : Option ℤ
  tags : Tags
  customFields : Option Json.Fields

def Settings.fields (s : Settings) : Json.Fields :=
  [("enabled", .bool true), ("bridge", .null),
    ("untagged_vlan", (s.untaggedVlan.map .int).getD .null),
    ("mode", if s.untaggedVlan.isSome then .str "access" else .null), ("tags", s.tags.json)] ++
    VmQueue.optionalField "custom_fields" (s.customFields.map .obj)

variable (py : Python)

/-- The call of `rest_reconcile_async` for an interface. -/
def interfaceCall (lookup payload : Json.Fields) : Call where
  path := "/api/virtualization/interfaces/"
  lookup := lookup
  payload := payload
  dump := dumpVmInterface py
  currentNormalizer := currentNormalizer
  patchableFields := none
  nullableFields := ["bridge"]
  strictLookup := false
  lookupQueryFieldMap := []
  existingRecord := none

/-- An interface of a VM to reconcile: the name that is resolved for it, the fallback of that name,
and its settings. -/
structure Network where
  resolvedName : String
  interfaceName : String
  settings : Settings

def Network.name (net : Network) : String :=
  normalizeVmInterfaceName net.resolvedName net.interfaceName

/-- `_reconcile_vm_interface_record`. -/
def reconcileVmInterfaceRecord (vmId : ℤ) (net : Network) : NetBoxProg (Record × Status) :=
  reconcile (interfaceCall py [("name", .str net.name), ("virtual_machine_id", .int vmId)]
    ([("name", Json.str net.name)] ++ net.settings.fields ++
      [("virtual_machine", Json.int vmId)]))

/-- The call that `sync_vm_interfaces` makes for an interface. -/
def syncVmInterface (vmId : ℤ) (net : Network) : NetBoxProg (Record × Status) :=
  reconcile (interfaceCall py [("virtual_machine_id", .int vmId), ("name", .str net.name)]
    ([("virtual_machine", Json.int vmId), ("name", Json.str net.name)] ++ net.settings.fields))

/-- The loop of `sync_vm_interfaces` over the interfaces. -/
def syncVmInterfaces (vmId : ℤ) : List Network → NetBoxProg (List Record)
  | [] => .ret (.ok [])
  | net :: nets => (syncVmInterface py vmId net).bind fun
    | .error e => .ret (.error e)
    | .ok (record, _) => (syncVmInterfaces vmId nets).bind fun
      | .error e => .ret (.error e)
      | .ok records => .ret (.ok (record :: records))

/-- What a query of interfaces admits: NetBox filters by `name` and `virtual_machine_id`
exactly. -/
structure Filters where
  admits : Json.Fields → Interface → Bool
  exact : ∀ q i, (∀ key ∈ Dict.keys q, key ∈ ["name", "virtual_machine_id", "limit"]) →
    (admits q i = true ↔ (∀ x, Dict.get "name" q = some x → x = .str i.name) ∧
      ∀ x, Dict.get "virtual_machine_id" q = some x → x = .int i.virtualMachine)

variable (filters : Filters)

/-- The replies of a NetBox whose interfaces go through the given contents while other calls
write to it: each read is answered on one of these or fails, and a write is answered or fails.
The VM exists, so no filter value is rejected. -/
def Answers (contents : Set (List Interface)) : (q : Request) → Reply q → Prop
  | .list _ query, .ok records => ∃ interfaces ∈ contents,
      records = (interfaces.filter (filters.admits query)).map Interface.serialize
  | .list _ _, .error e => e.invalidChoice = false
  | .scan _ _, .ok records => ∃ interfaces ∈ contents, records = interfaces.map Interface.serialize
  | _, _ => True

/-- A record of an interface of the VM with one of the names. -/
def Owns (vmId : ℤ) (names : List String) (record : Record) : Prop :=
  (relationId (field "virtual_machine" record)).pyEq (.int vmId) = true ∧
    ∃ name ∈ names, field "name" record = .str name

/-- A request that stays inside the VM: what is patched is an interface of it with one of the
names, and what is created is one, too. -/
def Inside (vmId : ℤ) (names : List String) : Request → Prop
  | .patch _ target _ => Owns vmId names target
  | .create _ payload => Owns vmId names payload
  | _ => True

/-- All requests of all runs stay inside the VM. -/
def StaysInside (contents : Set (List Interface)) (vmId : ℤ) (names : List String) {α : Type}
    (p : Prog Request Reply α) : Prop :=
  p.Always (Answers filters contents) (fun _ => Inside vmId names) (fun _ _ => True) []

/-- The VM has an interface of that name all the time, or no other VM's interface is ever the
first of that name. -/
def Unshadowed (contents : Set (List Interface)) (vmId : ℤ) (name : String) : Prop :=
  (∀ interfaces ∈ contents, ∃ i ∈ interfaces, i.name = name ∧ i.virtualMachine = vmId) ∨
    ∀ interfaces ∈ contents, ∀ i, interfaces.find? (fun i => i.name = name) = some i →
      i.virtualMachine = vmId

end ProxboxApi.VmInterfaces
