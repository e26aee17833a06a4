import ProxboxApi.GuestRows

/-! A NetBox that stores the rows of `reconcile_guest_vm_interfaces` and returns them in its REST
shape, and what one reconciliation does there. -/

namespace ProxboxApi.GuestRows

open Requests (Prog)
open InterfaceIps (Host)
open VmQueue (field Record relationId digitsId)

variable {py : Python} {parse : String → Option Host}

/-- A NetBox with the plugin: the further fields of its objects, the tag that a reference resolves
to, the custom fields that are defined for the interfaces, with their defaults, the payloads that it
accepts, and how it writes a MAC address. -/
structure NetBox (py : Python) where
  extra : String → ℤ → Json.Fields
  findTag : Json → Option ℤ
  customFields : Json.Fields
  accepts : Path → Json.Fields → Bool
  macText : String → String
  macText_eq : ∀ s, py.lower (Text.strip (macText s)) = py.lower (Text.strip s)

structure InterfaceRow where
  id : ℤ
  virtualMachine : ℤ
  vmInterface : Option ℤ
  name : String
  macAddress : Option String
  enabled : Bool
  mtu : Option ℤ
  tags : List ℤ
  customFields : Json.Fields

structure AddressRow where
  id : ℤ
  guestInterface : ℤ
  ipAddress : ℤ

structure Store where
  interfaces : List InterfaceRow
  addresses : List AddressRow
  next : ℤ

variable (nb : NetBox py)

/-- A related object. -/
def NetBox.nested (kind : String) (id : ℤ) : Json := .obj (("id", .int id) :: nb.extra kind id)

def InterfaceRow.record (r : InterfaceRow) : Record :=
  [("id", .int r.id), ("virtual_machine", nb.nested "virtual-machines" r.virtualMachine),
    ("vm_interface", r.vmInterface.elim .null (nb.nested "interfaces")), ("name", .str r.name),
    ("mac_address", r.macAddress.elim .null fun mac => .str (nb.macText mac)),
    ("enabled", .bool r.enabled), ("mtu", r.mtu.elim .null .int),
    ("tags", .arr (r.tags.map (nb.nested "tags"))), ("custom_fields", .obj r.customFields)] ++
  nb.extra "guest-vm-interfaces" r.id

def AddressRow.record (r : AddressRow) : Record :=
  [("id", .int r.id), ("guest_interface", nb.nested "guest-vm-interfaces" r.guestInterface),
    ("ip_address", nb.nested "ip-addresses" r.ipAddress)] ++
  nb.extra "guest-vm-interface-addresses" r.id

/-- A filter of a query on an id. -/
def idFilter (name : String) (query : Json.Fields) (id : ℤ) : Bool :=
  match Dict.get name query with
  | some (.int n) => id = n
  | _ => true

def InterfaceRow.passes (query : Json.Fields) (r : InterfaceRow) : Bool :=
  idFilter "virtual_machine_id" query r.virtualMachine && match Dict.get "name" query with
    | some (.str name) => r.name = name
    | _ => true

def AddressRow.passes (query : Json.Fields) (r : AddressRow) : Bool :=
  idFilter "guest_interface_id" query r.guestInterface && idFilter "ip_address_id" query r.ipAddress

/-- A relation or a number in a payload. -/
def idIn (name : String) (payload : Json.Fields) (old : ℤ) : ℤ :=
  match Dict.get name payload with
  | some (.int n) => n
  | _ => old

/-- One that may be null. -/
def optionIn (name : String) (payload : Json.Fields) (old : Option ℤ) : Option ℤ :=
  match Dict.get name payload with
  | some (.int n) => some n
  | some _ => none
  | none => old

/-- The tags of a payload replace those of the row; `none` is a tag that NetBox does not have. -/
def NetBox.tagsIn (payload : Json.Fields) (old : List ℤ) : Option (List ℤ) :=
  match Dict.get "tags" payload with
  | some (.arr refs) => refs.mapM nb.findTag
  | _ => some old

/-- The custom fields of a payload are merged into those of the row. -/
def customFieldsIn (payload old : Json.Fields) : Json.Fields :=
  match Dict.get "custom_fields" payload with
  | some (.obj given) => Dict.update old given
  | _ => old

/-- A row with the fields of a payload. -/
def InterfaceRow.apply (r : InterfaceRow) (payload : Json.Fields) : Option InterfaceRow :=
  (nb.tagsIn payload r.tags).map fun tags =>
    { id := r.id
      virtualMachine := idIn "virtual_machine" payload r.virtualMachine
      vmInterface := optionIn "vm_interface" payload r.vmInterface
      name := match Dict.get "name" payload with
        | some (.str name) => name
        | _ => r.name
      macAddress := match Dict.get "mac_address" payload with
        | some (.str mac) => some mac
        | some _ => none
        | none => r.macAddress
      enabled := match Dict.get "enabled" payload with
        | some (.bool enabled) => enabled
        | _ => r.enabled
      mtu := optionIn "mtu" payload r.mtu
      tags
      customFields := customFieldsIn payload r.customFields }

def AddressRow.apply (r : AddressRow) (payload : Json.Fields) : AddressRow where
  id := r.id
  guestInterface := idIn "guest_interface" payload r.guestInterface
  ipAddress := idIn "ip_address" payload r.ipAddress

/-- A new row, before the fields of its payload. -/
def NetBox.blank (id : ℤ) : InterfaceRow := ⟨id, 0, none, "", none, false, none, [], nb.customFields⟩

def Store.addInterface (s : Store) (r : InterfaceRow) : Store :=
  { s with interfaces := s.interfaces ++ [r], next := s.next + 1 }

def Store.setInterface (s : Store) (r : InterfaceRow) : Store :=
  { s with interfaces := s.interfaces.map fun r' => if r'.id = r.id then r else r' }

def Store.addAddress (s : Store) (r : AddressRow) : Store :=
  { s with addresses := s.addresses ++ [r], next := s.next + 1 }

def Store.setAddress (s : Store) (r : AddressRow) : Store :=
  { s with addresses := s.addresses.map fun r' => if r'.id = r.id then r else r' }

/-- A row is stored, or the request is rejected. -/
def settled {ρ : Type} (record : ρ → Record) (put : Store → ρ → Store) (s : Store) :
    Option ρ → Except Unit Record × Store
  | none => (.error (), s)
  | some r => (.ok (record r), put s r)

/-- The row of a creation or of a PATCH that NetBox accepts. -/
def NetBox.stored {ρ : Type} (path : Path) (payload : Json.Fields) (row : Option ρ) : Option ρ :=
  if nb.accepts path payload then row else none

/-- What NetBox does with a request. -/
def NetBox.serve : (q : Request) → Store → Reply q × Store
  | .first .interfaces query, s =>
    (.ok ((s.interfaces.find? (InterfaceRow.passes query)).map (InterfaceRow.record nb)), s)
  | .first .addresses query, s =>
    (.ok ((s.addresses.find? (AddressRow.passes query)).map (AddressRow.record nb)), s)
  | .create .interfaces payload, s => settled (InterfaceRow.record nb) Store.addInterface s
    (nb.stored .interfaces payload ((nb.blank s.next).apply nb payload))
  | .create .addresses payload, s => settled (AddressRow.record nb) Store.addAddress s
    (nb.stored .addresses payload (some ((AddressRow.mk s.next 0 0).apply payload)))
  | .patch .interfaces id payload, s => settled (InterfaceRow.record nb) Store.setInterface s
    (nb.stored .interfaces payload ((s.interfaces.find? fun r => r.id = id).bind fun r =>
      r.apply nb payload))
  | .patch .addresses id payload, s => settled (AddressRow.record nb) Store.setAddress s
    (nb.stored .addresses payload ((s.addresses.find? fun r => r.id = id).map fun r =>
      r.apply payload))

/-- A request may be refused, and its reply may be lost. -/
inductive Fault where
  | none
  | refused
  | lost

/-- No request fails on the way. -/
def never : ℕ → Fault := fun _ => .none

def unavailable : (q : Request) → Reply q
  | .first .. | .create .. | .patch .. => .error ()

/-- The answers of a NetBox with faults, by the number of the request. -/
def NetBox.answer (fault : ℕ → Fault) (q : Request) (s : Store × ℕ) : Reply q × Store × ℕ :=
  let served := nb.serve q s.1
  match fault s.2 with
  | .none => (served.1, served.2, s.2 + 1)
  | .refused => (unavailable q, s.1, s.2 + 1)
  | .lost => (unavailable q, served.2, s.2 + 1)

def Request.isWrite : Request → Bool
  | .first .. => false
  | .create .. | .patch .. => true

/-- A request has failed. -/
def Failed : (q : Request) → Reply q → Prop
  | .first .., reply => reply = .error ()
  | .create .., reply | .patch .., reply => reply = .error ()

end ProxboxApi.GuestRows
