import ProxboxApi.InterfaceIps
import ProxboxApi.GuestInterfaces
import ProxboxApi.Requests

/-! `reconcile_guest_vm_interfaces`: the interfaces that the guest OS reports, as rows of the plugin
with links to the IP addresses of the core interfaces. -/

namespace ProxboxApi.GuestRows

open Requests (Prog)
open InterfaceIps (Host cleanAddress)
open GuestAgent (either iterate)
open VmQueue (field Record relationId)

inductive Path where
  | interfaces
  | addresses
  deriving DecidableEq

/-- `rest_first_async`, `rest_create_async` and `rest_patch_async`. -/
inductive Request where
  | first (path : Path) (query : Json.Fields)
  | create (path : Path) (payload : Json.Fields)
  | patch (path : Path) (id : ℤ) (payload : Json.Fields)

abbrev Reply : Request → Type
  | .first .. => Except Unit (Option Record)
  | .create .. | .patch .. => Except Unit Record

variable (py : Python) (parse : String → Option Host)

/-- `normalized_mac`. -/
def normalizedMac (value : Json) : String :=
  py.lower (Text.strip (py.str (either value (.str ""))))

/-- `_relation_id`, as a value; the outer `none` is an exception. -/
def idOrNull (value : Json) : Option Json := (relationId py value).map fun n => n.elim .null .int

/-- `_current_guest_interface`. -/
def currentGuestInterface (record : Record) : Option Json.Fields := do
  let virtualMachine ← idOrNull py (field "virtual_machine" record)
  let vmInterface ← idOrNull py (field "vm_interface" record)
  some [("virtual_machine", virtualMachine), ("vm_interface", vmInterface),
    ("name", field "name" record),
    ("mac_address", .str (normalizedMac py (field "mac_address" record))),
    ("enabled", field "enabled" record), ("mtu", field "mtu" record),
    ("tags", field "tags" record), ("custom_fields", field "custom_fields" record)]

/-- `_current_guest_interface_address`. -/
def currentGuestInterfaceAddress (record : Record) : Option Json.Fields := do
  let guestInterface ← idOrNull py (field "guest_interface" record)
  let ipAddress ← idOrNull py (field "ip_address" record)
  some [("guest_interface", guestInterface), ("ip_address", ipAddress)]

/-- One turn of `_lookup_matches`. -/
def keyMatches (current : Json.Fields) (key : String) (expected : Json) : Option Bool := do
  let value ← if key.endsWith "_id" then idOrNull py (field key current)
    else some (field key current)
  let currentId ← relationId py value
  let expectedId ← relationId py expected
  if currentId.isSome || expectedId.isSome then some (decide (currentId = expectedId))
  else some (value.pyEq expected)

/-- `_lookup_matches`; `none` is an exception. -/
def lookupMatches (current : Json.Fields) : Json.Fields → Option Bool
  | [] => some true
  | (key, expected) :: rest => do
    if ← keyMatches py current key expected then lookupMatches current rest else some false

/-- `_build_patch_payload`, from the normalized payload. -/
def buildPatchPayload (current desired normalized : Json.Fields) (nullable : List String) :
    Json.Fields :=
  let patch := desired.filter fun kv => !(field kv.1 normalized).pyEq (field kv.1 current)
  nullable.foldl (fun patch name =>
    if (Dict.get name desired).any Json.isNull && !(field name current).isNull
    then Dict.set name .null patch else patch) patch

/-- What a reconciliation is about. -/
structure Target where
  path : Path
  currentNormalizer : Record → Option Json.Fields
  nullableFields : List String
  lookupQueryFieldMap : List (String × String)

def Target.query (t : Target) (lookup : Json.Fields) : Json.Fields :=
  Dict.set "limit" (.int 2) (Dict.update [] ((lookup.filter fun kv => !kv.2.blank).map fun kv =>
    ((Dict.get kv.1 t.lookupQueryFieldMap).getD kv.1, kv.2)))

/-- The patch of a row that is found, and the id it goes to; `none` ends the reconciliation. -/
def Target.patch (t : Target) (lookup payload : Json.Fields) (existing : Record) :
    Option Json.Fields := do
  let current ← t.currentNormalizer existing
  if ← lookupMatches py current lookup then
    let normalized ← t.currentNormalizer payload
    some (buildPatchPayload current payload normalized t.nullableFields)
  else none

/-- The record that a write returns. -/
def written : Except Unit Record → Prog Request Reply (Option Record)
  | .error () => .ret none
  | .ok record => .ret (some record)

/-- `_best_effort_reconcile` of a row that is found. -/
def Target.settle (t : Target) (existing : Record) :
    Option Json.Fields → Prog Request Reply (Option Record)
  | none => .ret none
  | some [] => .ret (some existing)
  | some patch => match relationId py (.obj existing) with
    | some (some id) => .ask (.patch t.path id patch) written
    | _ => .ret none

/-- `_best_effort_reconcile`. -/
def bestEffortReconcile (t : Target) (lookup payload : Json.Fields) :
    Prog Request Reply (Option Record) :=
  .ask (.first t.path (t.query lookup)) fun
    | .error () => .ret none
    | .ok none => .ask (.create t.path payload) written
    | .ok (some existing) => t.settle py existing (t.patch py lookup payload existing)

/-- A reference to a tag, as the syncs build it. -/
structure TagRef where
  name : String
  slug : String
  color : Json

def TagRef.json (ref : TagRef) : Json :=
  .obj [("name", .str ref.name), ("slug", .str ref.slug), ("color", ref.color)]

/-- An interface with a name, as the loop reads it. -/
structure Guest where
  name : String
  name_ne : name ≠ ""
  mac : String
  mtu : Option ℤ
  ipAddresses : Json

/-- What the loop reads of an interface, unless it goes on to the next one. -/
def Guest.read : Json → Option Guest
  | .obj guestIface =>
    let name := Text.strip (py.str (either (field "name" guestIface) (.str "")))
    if h : name = "" then none
    else some ⟨name, h, normalizedMac py (field "mac_address" guestIface),
      py.int (field "mtu" guestIface), field "ip_addresses" guestIface⟩
  | _ => none

/-- The address that `_guest_ip_keys` reads of an entry. -/
def ipKey : Json → Option String
  | .obj address =>
    let ipText := Text.strip (py.str (either (field "ip_address" address) (.str "")))
    if ipText = "" then none
    else
      let candidate := match field "prefix" address with
        -- a `bool` is an `int`, and both lie between 0 and 128
        | .bool b => ipText ++ "/" ++ py.str (.bool b)
        | .int n => if 0 ≤ n ∧ n ≤ 128 then ipText ++ "/" ++ toString n else ipText
        | _ => ipText
      cleanAddress parse false (Text.strip candidate)
  | _ => none

/-- `_guest_ip_keys`; `none` is an exception. -/
def guestIpKeys (ipAddresses : Json) : Option (List String) :=
  (iterate (either ipAddresses (.arr []))).map fun items =>
    (items.filterMap (ipKey py parse)).foldl
      (fun keys key => if key = "" ∨ key ∈ keys then keys else keys ++ [key]) []

structure Args where
  vmId : ℤ
  guestInterfaces : List Json
  coreInterfaceIdByMac : List (String × ℤ)
  ipIdsByInterfaceId : List (ℤ × List (String × ℤ))
  tagRefs : List TagRef
  strategy : Json

/-- `normalize_vm_interface_sync_strategy` is not `guest_os_model`. -/
def Args.legacy (a : Args) : Bool :=
  py.lower (Text.strip (py.str (either a.strategy (.str "guest_os_model")))) = "legacy_rename"

/-- `_normalize_core_interface_id_by_mac`. -/
def Args.coreIds (a : Args) : List (String × ℤ) :=
  Dict.update [] ((a.coreInterfaceIdByMac.map fun kv => (normalizedMac py (.str kv.1), kv.2)).filter
    fun kv => kv.1 ≠ "")

/-- `_normalize_ip_ids_by_interface_id`. -/
def Args.ipIds (a : Args) : List (ℤ × List (String × ℤ)) :=
  Dict.update [] (a.ipIdsByInterfaceId.map fun kv =>
    (kv.1, Dict.update [] (kv.2.filterMap fun address =>
      (cleanAddress parse false (Text.strip address.1)).map fun key => (key, address.2))))

def Args.coreInterfaceId (a : Args) (g : Guest) : Option ℤ := Dict.get g.mac (a.coreIds py)

/-- `guest_payload`. -/
def Args.payload (a : Args) (g : Guest) : Json.Fields :=
  [("virtual_machine", .int a.vmId), ("vm_interface", (a.coreInterfaceId py g).elim .null .int),
    ("name", .str g.name), ("mac_address", .str g.mac), ("enabled", .bool true),
    ("mtu", g.mtu.elim .null .int), ("tags", .arr (a.tagRefs.map TagRef.json)),
    ("custom_fields", .obj [])]

def Args.lookup (a : Args) (g : Guest) : Json.Fields :=
  [("virtual_machine", .int a.vmId), ("name", .str g.name)]

def interfaceTarget : Target where
  path := .interfaces
  currentNormalizer := currentGuestInterface py
  nullableFields := ["vm_interface", "mtu"]
  lookupQueryFieldMap := [("virtual_machine", "virtual_machine_id")]

def addressTarget : Target where
  path := .addresses
  currentNormalizer := currentGuestInterfaceAddress py
  nullableFields := []
  lookupQueryFieldMap := [("guest_interface", "guest_interface_id"), ("ip_address", "ip_address_id")]

def linkPayload (guestId ipId : ℤ) : Json.Fields :=
  [("guest_interface", .int guestId), ("ip_address", .int ipId)]

/-- The links of an interface to its addresses. -/
def linkAddresses (guestId : ℤ) : List ℤ → Prog Request Reply Unit
  | [] => .ret ()
  | ipId :: rest => (bestEffortReconcile py (addressTarget py) (linkPayload guestId ipId)
      (linkPayload guestId ipId)).bind fun _ => linkAddresses guestId rest

/-- The ids of the addresses of an interface; `none` is an exception. -/
def Args.addressIds (a : Args) (g : Guest) (coreId : ℤ) : Option (List ℤ) :=
  (guestIpKeys py parse g.ipAddresses).map fun keys => keys.filterMap fun key =>
    Dict.get key ((Dict.get coreId (a.ipIds parse)).getD [])

/-- What follows the reconciliation of an interface; `none` is an exception. -/
def Args.link (a : Args) (g : Guest) (record : Record) : Prog Request Reply (Option Unit) :=
  match relationId py (.obj record), a.coreInterfaceId py g with
  | none, _ => .ret none
  | some (some guestId), some coreId => match a.addressIds py parse g coreId with
    | none => .ret none
    | some ids => (linkAddresses py guestId ids).bind fun _ => .ret (some ())
  | _, _ => .ret (some ())

/-- The loop, from the records so far; `none` is an exception. -/
def Args.loop (a : Args) (records : List Record) : List Guest →
    Prog Request Reply (Option (List Record))
  | [] => .ret (some records)
  | g :: rest => (bestEffortReconcile py (interfaceTarget py) (a.lookup g) (a.payload py g)).bind fun
    | none | some [] => a.loop records rest
    | some record => (a.link py parse g record).bind fun
      | none => .ret none
      | some () => a.loop (records ++ [record]) rest

/-- The interfaces that the loop reconciles. -/
def Args.guests (a : Args) : List Guest :=
  if a.legacy py || a.vmId = 0 then [] else a.guestInterfaces.filterMap (Guest.read py)

/-- `reconcile_guest_vm_interfaces`; `none` is an exception. -/
def reconcileGuestVmInterfaces (a : Args) : Prog Request Reply (Option (List Record)) :=
  a.loop py parse [] (a.guests py)

end ProxboxApi.GuestRows
