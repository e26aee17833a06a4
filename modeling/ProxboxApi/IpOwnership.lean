import ProxboxApi.Reconcile
import ProxboxApi.Runs
import ProxboxApi.SyncSchemas

/-! How IP addresses are given to interfaces: `_reconcile_interface_ip`, `ensure_ip_assigned_to_vm`
and `set_primary_ip`, in turns on one NetBox whose reads may be served from a cache. -/

namespace ProxboxApi.IpOwnership

open Requests Reconcile SyncSchemas
open VmQueue (field)

def ipPath : String := "/api/ipam/ip-addresses/"

def interfacePath : String := "/api/virtualization/interfaces/"

def vmPath : String := "/api/virtualization/virtual-machines/"

/-- The kinds of interfaces that get an address. -/
inductive InterfaceKind where
  | vmInterface
  | nodeInterface
  deriving DecidableEq, Repr

/-- `assigned_object_type`. -/
def InterfaceKind.objectType : InterfaceKind → String
  | .vmInterface => "virtualization.vminterface"
  | .nodeInterface => "dcim.interface"

/-- `interface_lookup_field`. -/
def InterfaceKind.lookupField : InterfaceKind → String
  | .vmInterface => "vminterface_id"
  | .nodeInterface => "interface_id"

variable (py : Python)

/-- `_ip_address_current_normalizer`. -/
def ipAddressCurrentNormalizer (record : Record) : Record :=
  ["address", "assigned_object_type", "assigned_object_id", "status", "dns_name", "tags"].map
    fun name => (name, field name record)

/-- `_relation_id_or_none`. -/
def relationIdOrNone (value : Json) : Option ℤ := py.int (relationId value)

/-- An address and the interface that it is for. -/
structure InterfaceIp where
  address : String
  kind : InterfaceKind
  interfaceId : ℤ
  dnsName : Option String
  tagRefs : Json
  lastUpdated : String

def InterfaceIp.payload (ip : InterfaceIp) : Record :=
  [("address", .str ip.address), ("assigned_object_type", .str ip.kind.objectType),
    ("assigned_object_id", .int ip.interfaceId), ("status", .str "active"),
    ("dns_name", .str (ip.dnsName.getD "")), ("tags", ip.tagRefs),
    ("custom_fields", .obj [("proxmox_last_updated", .str ip.lastUpdated)])]

/-- The record is assigned to the interface. -/
def InterfaceIp.owns (ip : InterfaceIp) (record : Record) : Bool :=
  (field "assigned_object_type" record).pyEq (.str ip.kind.objectType) &&
    relationIdOrNone py (field "assigned_object_id" record) = some ip.interfaceId

/-- The record is assigned to nothing. -/
def adoptable (record : Record) : Bool :=
  (field "assigned_object_type" record).blank &&
    relationIdOrNone py (field "assigned_object_id" record) = none

/-- The loop over the records of the address. -/
def InterfaceIp.target (ip : InterfaceIp) (existing : List Record) : Option Record :=
  (existing.find? (ip.owns py)).or (existing.find? (adoptable py))

def InterfaceIp.call (ip : InterfaceIp) (lookup : Record) : Call where
  path := ipPath
  lookup := lookup
  payload := ip.payload
  dump := dumpIpAddress py
  currentNormalizer := ipAddressCurrentNormalizer
  patchableFields := none
  nullableFields := []
  strictLookup := true
  lookupQueryFieldMap := []
  existingRecord := none

/-- The lookup of the reconciliation: the record that is chosen, or the address on the
interface. -/
def InterfaceIp.lookup (ip : InterfaceIp) (existing : List Record) : Record :=
  match (ip.target py existing).bind fun record => relationIdOrNone py (field "id" record) with
  | some recordId => [("id", .int recordId)]
  | none => [("address", .str ip.address), (ip.kind.lookupField, .int ip.interfaceId)]

/-- `_reconcile_interface_ip`. -/
def reconcileInterfaceIp (ip : InterfaceIp) : Prog Request Reply (Option ℤ) :=
  .ask (.list ipPath [("address", .str ip.address), ("limit", .int 50)]) fun reply =>
    let existing := match reply with
      | .ok records => records
      | .error _ => []
    (reconcile (ip.call py (ip.lookup py existing))).bind fun
      | .error _ => .ret none
      | .ok (record, _) => .ret (relationIdOrNone py (field "id" record))

/-- What the parsing of addresses and of error texts comes to: the version of an interface
address or of a plain one, and the disk size that a failure asks for. -/
structure Parsers where
  interfaceVersion : String → Option ℕ
  addressVersion : String → Option ℕ
  aggregateDisk : Failure → Option ℤ

variable (parsers : Parsers) (maxRetries : ℕ)

/-- `ensure_ip_assigned_to_vm`, without the reason. -/
def ensureIpAssignedToVm (ipId vmId : ℤ) : Prog Request Reply Bool :=
  .ask (.list ipPath [("id", .int ipId)]) fun
    | .error _ => .ret false
    | .ok [] => .ret false
    | .ok (ipRecord :: _) =>
      let assignedObjectId := relationId (field "assigned_object_id" ipRecord)
      let assignedObjectType := field "assigned_object_type" ipRecord
      .ask (.list interfacePath [("virtual_machine_id", .int vmId), ("limit", .int 50)]) fun
        | .error _ => .ret false
        | .ok [] => .ret false
        | .ok (first :: rest) =>
          if assignedObjectType.pyEq (.str "virtualization.vminterface") &&
              (first :: rest).any fun iface => (field "id" iface).pyEq assignedObjectId then
            .ret true
          else if !assignedObjectId.isNull && !assignedObjectType.isNull then .ret false
          else (restPatch ipPath (.int ipId)
              [("assigned_object_type", .str "virtualization.vminterface"),
                ("assigned_object_id", field "id" first)] maxRetries).bind fun
            | .error _ => .ret false
            | .ok patched => .ret
              ((field "assigned_object_type" patched).pyEq (.str "virtualization.vminterface") &&
                (relationId (field "assigned_object_id" patched)).pyEq (field "id" first))

/-- `_primary_field_from_ip_address`. -/
def primaryFieldFromIpAddress (address : Json) : Option String :=
  let text := Text.strip (if Python.truthy address then py.str address else "")
  if text = "" then none
  else
    ((parsers.interfaceVersion text).or
      (parsers.addressVersion (String.ofList (text.toList.takeWhile (· ≠ '/'))))).map fun version =>
        if version = 4 then "primary_ip4" else "primary_ip6"

/-- The end of `set_primary_ip`, for an address that is assigned to the VM. -/
def patchPrimaryIp (virtualMachine : Record) (vmId primaryIpId : ℤ) : Prog Request Reply Bool :=
  .ask (.list ipPath [("id", .int primaryIpId)]) fun
    | .error _ => .ret false
    | .ok [] => .ret false
    | .ok (ipRecord :: _) =>
      match primaryFieldFromIpAddress py parsers (field "address" ipRecord) with
      | none => .ret false
      | some primaryField =>
        if !(field primaryField virtualMachine).isNull then .ret false
        else (restPatch vmPath (.int vmId) [(primaryField, .int primaryIpId)] maxRetries).bind fun
          | .ok _ => .ret true
          | .error e => match parsers.aggregateDisk e with
            | none => .ret false
            | some disk =>
              if 0 < disk then
                (restPatch vmPath (.int vmId)
                  [("disk", .int disk), (primaryField, .int primaryIpId)] maxRetries).bind fun
                    | .ok _ => .ret true
                    | .error _ => .ret false
              else .ret false

/-- `set_primary_ip`. -/
def setPrimaryIp (virtualMachine : Record) (vmId : ℤ) (primaryIpId : Option ℤ) :
    Prog Request Reply Bool :=
  match primaryIpId with
  | none => .ret false
  | some ipId =>
    if vmId = 0 ∨ ipId = 0 then .ret false
    else (ensureIpAssignedToVm maxRetries ipId vmId).bind fun assigned =>
      if assigned then patchPrimaryIp py parsers maxRetries virtualMachine vmId ipId
      else (ensureIpAssignedToVm maxRetries ipId vmId).bind fun assigned =>
        if assigned then patchPrimaryIp py parsers maxRetries virtualMachine vmId ipId
        else .ret false

/-- The calls that take turns. -/
inductive Job where
  | reconcileInterfaceIp (ip : InterfaceIp)
  | ensureIpAssignedToVm (ipId vmId : ℤ)
  | setPrimaryIp (virtualMachine : Record) (vmId : ℤ) (primaryIpId : Option ℤ)

def Job.prog : Job → Prog Request Reply Unit
  | .reconcileInterfaceIp ip => (IpOwnership.reconcileInterfaceIp py ip).bind fun _ => .ret ()
  | .ensureIpAssignedToVm ipId vmId =>
    (IpOwnership.ensureIpAssignedToVm maxRetries ipId vmId).bind fun _ => .ret ()
  | .setPrimaryIp virtualMachine vmId primaryIpId =>
    (IpOwnership.setPrimaryIp py parsers maxRetries virtualMachine vmId primaryIpId).bind
      fun _ => .ret ()

/-- An IP address in NetBox: what it is assigned to, and its other fields. -/
structure IpAddress where
  id : ℤ
  assigned : Option (String × ℤ)
  fields : Record

/-- The record that NetBox serves for it. -/
def IpAddress.serialize (ip : IpAddress) : Record :=
  [("id", Json.int ip.id),
    ("assigned_object_type", (ip.assigned.map fun a => Json.str a.1).getD .null),
    ("assigned_object_id", (ip.assigned.map fun a => Json.int a.2).getD .null)] ++ ip.fields

def strOf : Json → Option String
  | .str s => some s
  | _ => none

def intOf : Json → Option ℤ
  | .int n => some n
  | _ => none

/-- An assignment with both of its parts. -/
def assignment (objectType : Option String) (objectId : Option ℤ) : Option (String × ℤ) :=
  objectType.bind fun objectType => objectId.map fun objectId => (objectType, objectId)

/-- What a record says of the assignment. -/
def assignedOf (record : Record) : Option (String × ℤ) :=
  assignment (strOf (field "assigned_object_type" record))
    (intOf (field "assigned_object_id" record))

/-- The assignment after a PATCH, which may name the type or the id alone. -/
def patchedAssignment (payload : Record) (old : Option (String × ℤ)) : Option (String × ℤ) :=
  assignment ((strOf (field "assigned_object_type" payload)).or (old.map Prod.fst))
    ((intOf (field "assigned_object_id" payload)).or (old.map Prod.snd))

/-- The filters of `/api/ipam/ip-addresses/` by id and by interface. -/
structure IpFilters where
  admits : Record → IpAddress → Bool
  byId : ∀ q ip id, Dict.get "id" q = some (.int id) → admits q ip = true → ip.id = id
  byInterface : ∀ (kind : InterfaceKind) q ip id,
    Dict.get kind.lookupField q = some (.int id) → admits q ip = true →
      ip.assigned = some (kind.objectType, id)

/-- A call with the requests it has made and what it will do next. -/
structure Running where
  log : List (Prog.Exchange Request Reply)
  prog : Prog Request Reply Unit

/-- The IP addresses, what they were after each earlier step, and the calls. -/
structure State where
  ips : List IpAddress
  past : List (List IpAddress)
  calls : List Running

/-- How a request is answered: it fails without effect; or it is served the content before the
last `age` steps; or, of the interfaces of a VM, these ids; or NetBox stores these other fields
(under the id, in a new address), and the answer may be lost. -/
inductive Answer where
  | failed (e : Failure)
  | served (age : ℕ)
  | interfaces (ids : List ℤ)
  | stored (id : ℤ) (fields : Record) (lost : Option Failure)

structure Label where
  call : ℕ
  answer : Answer

/-- The answer to a write. -/
def answered (lost : Option Failure) (record : Record) : Except Failure Record :=
  match lost with
  | none => .ok record
  | some e => .error e

variable (filters : IpFilters)

/-- The reply to a request and the addresses after it; `none` where the answer does not fit. -/
def respond (s : State) : (q : Request) → Answer → Option (Reply q × List IpAddress)
  | .list _ _, .failed e => some (.error e, s.ips)
  | .list path query, .served age =>
    if path = ipPath then (s.ips :: s.past)[age]?.map fun ips =>
      (.ok ((ips.filter (filters.admits query)).map IpAddress.serialize), s.ips)
    else none
  | .list path _, .interfaces ids =>
    if path = interfacePath then some (.ok (ids.map fun id => [("id", .int id)]), s.ips) else none
  | .scan _ _, .failed e => some (.error e, s.ips)
  | .scan path _, .served age =>
    if path = ipPath then (s.ips :: s.past)[age]?.map fun ips =>
      (.ok (ips.map IpAddress.serialize), s.ips)
    else none
  | .create _ _, .failed e => some (.error e, s.ips)
  | .create path payload, .stored id fields lost =>
    if path = ipPath ∧ ∀ ip ∈ s.ips, ip.id ≠ id then
      let ip : IpAddress := ⟨id, patchedAssignment payload none, fields⟩
      some (answered lost ip.serialize, s.ips ++ [ip])
    else none
  | .patch _ _ _, .failed e => some (.error e, s.ips)
  | .patch path target payload, .stored _ fields lost =>
    if path = ipPath then
      (s.ips.find? fun ip => (field "id" target).pyEq (.int ip.id)).map fun old =>
        let ip : IpAddress := ⟨old.id, patchedAssignment payload old.assigned, fields⟩
        (answered lost ip.serialize, s.ips.map fun other => if other.id = old.id then ip else other)
    else some (answered lost fields, s.ips)
  | _, _ => none

/-- The next request of a call is answered. -/
def step (s : State) (l : Label) : Option State :=
  match s.calls[l.call]? with
  | none => none
  | some running => match running.prog with
    | .ret _ => none
    | .ask q next => (respond filters s q l.answer).map fun (reply, ips) =>
      { ips
        past := s.ips :: s.past
        calls := s.calls.set l.call ⟨running.log ++ [⟨q, reply⟩], next reply⟩ }

/-- The jobs at their start. -/
def start (ips : List IpAddress) (past : List (List IpAddress)) (jobs : List Job) : State :=
  ⟨ips, past, jobs.map fun job => ⟨[], job.prog py parsers maxRetries⟩⟩

/-- The PATCH of an IP address that a call is about to issue: the requests it has made before, the
id and the payload. -/
def pendingPatch (s : State) (l : Label) :
    Option (List (Prog.Exchange Request Reply) × ℤ × Record) :=
  match s.calls[l.call]? with
  | some ⟨log, .ask (.patch path target payload) _⟩ =>
    match field "id" target with
    | .int id => if path = ipPath then some (log, id, payload) else none
    | _ => none
  | _ => none

/-- The PATCH changes what an address is assigned to that is assigned to an object. -/
def steals (s : State) (l : Label) : Bool :=
  match pendingPatch s l with
  | none => false
  | some (_, id, payload) => s.ips.any fun ip => ip.id = id && ip.assigned.isSome &&
    decide (patchedAssignment payload ip.assigned ≠ ip.assigned)

/-- The assignments of an address that the reads of a call have shown. -/
def shown (id : ℤ) (log : List (Prog.Exchange Request Reply)) : List (Option (String × ℤ)) :=
  log.flatMap fun ⟨q, reply⟩ => match q, reply with
    | .list path _, .ok records =>
      if path = ipPath then
        (records.filter fun record => (field "id" record).pyEq (.int id)).map assignedOf
      else []
    | _, _ => []

/-- No read that the call has made of the address it patches is out of date: the address is
assigned as every read has shown it, or as the PATCH leaves it. -/
def upToDate (s : State) (l : Label) : Bool :=
  match pendingPatch s l with
  | none => true
  | some (log, id, payload) => s.ips.all fun ip => ip.id ≠ id ||
    (shown id log).all fun assigned =>
      decide (ip.assigned = assigned ∨ ip.assigned = patchedAssignment payload assigned)

end ProxboxApi.IpOwnership
