import ProxboxApi.InterfaceIpAgreement

/-! `create_only_vm_ip_addresses`: the addresses of all guests are reconciled in bulk, the stale ones
of their interfaces are deleted, and then each guest's first address of a family is made the primary
address of its VM. The requests succeed. -/

namespace ProxboxApi.PrimaryIps

open InterfaceIps

/-- The two primary addresses of a VM. -/
inductive PrimaryField
  | primaryIp4
  | primaryIp6
  deriving DecidableEq

structure Primaries where
  primaryIp4 : Option ℕ
  primaryIp6 : Option ℕ

def Primaries.get (p : Primaries) : PrimaryField → Option ℕ
  | .primaryIp4 => p.primaryIp4
  | .primaryIp6 => p.primaryIp6

def Primaries.set (p : Primaries) (field : PrimaryField) (id : ℕ) : Primaries :=
  match field with
  | .primaryIp4 => { p with primaryIp4 := some id }
  | .primaryIp6 => { p with primaryIp6 := some id }

/-- NetBox clears a primary address that is deleted. -/
def Primaries.without (p : Primaries) (ids : List ℕ) : Primaries where
  primaryIp4 := p.primaryIp4.filter (· ∉ ids)
  primaryIp6 := p.primaryIp6.filter (· ∉ ids)

/-- The IP records, the interfaces of each VM in the order of their listing, and the primary
addresses of each VM. -/
structure NetBox where
  ips : IpTable
  interfaces : ℕ → List ℕ
  primaries : ℕ → Primaries

/-- Host addresses as `ipaddress` parses them, the texts of addresses that `ip_interface` makes the
same, `_primary_field_from_ip_address`, and NetBox's filter of an address by a text. -/
structure Addresses where
  parse : String → Option Host
  normalized : String → String
  primaryFieldFromIpAddress : String → Option PrimaryField
  found : String → String → Bool

variable (py : Python) (ipam : Addresses)

/-- An interface of a VM, with the addresses that the guest reports on it, in the order of
`preferred_primary_ip_order`. -/
structure Report where
  iface : Interface
  addresses : List String

/-- A guest, with the id of its VM. -/
structure Guest where
  vm : ℕ
  reports : List Report

/-- An entry of `first_ips`: `snapshot` is read of the VM before the run. The source does not keep
the interface. -/
structure FirstIp where
  vm : ℕ
  snapshot : Primaries
  address : String
  interfaceId : ℕ

structure Collected where
  ipPayloads : List Payload
  firstIps : List FirstIp

def isIpv6 (address : String) : Bool := ':' ∈ address.toList

/-- One address of the loop of `_sync_vm_ips`. -/
def collectAddress (snapshot : Primaries) (vm : ℕ) (iface : Interface) (acc : Collected)
    (address : String) : Collected :=
  if address = "dhcp" then acc
  else match buildVmInterfaceIpPayload py ipam.parse iface address with
    | none => acc
    | some payload =>
      let familyTracked := acc.firstIps.any fun e => isIpv6 e.address = isIpv6 address
      { ipPayloads := acc.ipPayloads ++ [payload]
        firstIps := if familyTracked then acc.firstIps
          else acc.firstIps ++ [⟨vm, snapshot, address, iface.id⟩] }

def collectReport (snapshot : Primaries) (vm : ℕ) (acc : Collected) (report : Report) :
    Collected :=
  report.addresses.foldl (collectAddress py ipam snapshot vm report.iface) acc

/-- `_sync_vm_ips`. -/
def syncVmIps (primaries : ℕ → Primaries) (g : Guest) : Collected :=
  g.reports.foldl (collectReport py ipam (primaries g.vm) g.vm) ⟨[], []⟩

/-- The records that `cleanup_stale_ips_for_interface` deletes. -/
def staleIds (tagSlug : String) (interfaceId : ℕ) (currentIps : List String)
    (rows : List IpRecord) : List ℕ :=
  (rows.filter fun r => r.assigned = some (vmInterface, interfaceId) &&
    r.tags.any (fun tag => tag.slug = tagSlug) &&
    !(currentIps.map ipam.normalized).contains (ipam.normalized r.address)).map IpRecord.id

/-- `cleanup_stale_ips_for_interface`. -/
def cleanupStaleIpsForInterface (tagSlug : String) (payloads : List Payload) (interfaceId : ℕ)
    (s : NetBox) : NetBox :=
  let currentIps := (payloads.filter fun p => p.interfaceId = interfaceId).map Payload.address
  let ids := staleIds ipam tagSlug interfaceId currentIps s.ips.rows
  { s with
    ips := { s.ips with rows := s.ips.rows.filter fun r => r.id ∉ ids }
    primaries := fun vm => (s.primaries vm).without ids }

/-- The reconciliation of all payloads and the cleanup of their interfaces. -/
def reconcilePhase (enabled : Bool) (flags : Option OverwriteFlags) (payloads : List Payload)
    (s : NetBox) : NetBox :=
  (payloads.map Payload.interfaceId).eraseDups.foldl
    (fun s interfaceId => cleanupStaleIpsForInterface ipam "proxbox" payloads interfaceId s)
    { s with ips := bulkReconcileVmInterfaceIps py enabled flags payloads s.ips }

/-- What a step does: the record that it attaches, with the interface, and the one that it makes
primary. -/
structure Outcome where
  attached : Option (ℕ × ℕ)
  made : Option (PrimaryField × ℕ)

/-- The record is assigned to the interface. -/
def NetBox.attach (s : NetBox) (ipId interfaceId : ℕ) : NetBox :=
  { s with ips := { s.ips with
    rows := s.ips.rows.map fun r =>
      if r.id = ipId then { r with assigned := some (vmInterface, interfaceId) } else r } }

/-- `ensure_ip_assigned_to_vm`: whether the address is assigned to the VM, and what was attached. -/
def ensureIpAssignedToVm (ipId vmId : ℕ) (s : NetBox) : Bool × Option (ℕ × ℕ) × NetBox :=
  match s.ips.rows.find? fun r => r.id = ipId with
  | none => (false, none, s)
  | some r =>
    match s.interfaces vmId with
    | [] => (false, none, s)
    | first :: rest =>
      match r.assigned with
      | some (objectType, objectId) =>
        (objectType = vmInterface && (first :: rest).contains objectId, none, s)
      | none => (true, some (ipId, first), s.attach ipId first)

def NetBox.makePrimary (s : NetBox) (vm : ℕ) (field : PrimaryField) (id : ℕ) : NetBox :=
  { s with primaries := fun vm' =>
    if vm' = vm then (s.primaries vm').set field id else s.primaries vm' }

/-- `set_primary_ip`, which tries the assignment twice. -/
def setPrimaryIp (e : FirstIp) (primaryIpId : ℕ) (s : NetBox) : Outcome × NetBox :=
  let (assigned, attached, s) := match ensureIpAssignedToVm primaryIpId e.vm s with
    | (true, attached, s) => (true, attached, s)
    | (false, _, s) => ensureIpAssignedToVm primaryIpId e.vm s
  if assigned then
    match s.ips.rows.find? fun r => r.id = primaryIpId with
    | none => (⟨attached, none⟩, s)
    | some r =>
      match ipam.primaryFieldFromIpAddress r.address with
      | none => (⟨attached, none⟩, s)
      | some field =>
        if (e.snapshot.get field).isSome then (⟨attached, none⟩, s)
        else (⟨attached, some (field, primaryIpId)⟩, s.makePrimary e.vm field primaryIpId)
  else (⟨attached, none⟩, s)

/-- One entry of the last loop of `create_only_vm_ip_addresses`. -/
def setPrimary (e : FirstIp) (s : NetBox) : Outcome × NetBox :=
  match s.ips.rows.find? fun r => ipam.found e.address r.address with
  | none => (⟨none, none⟩, s)
  | some r => setPrimaryIp ipam e r.id s

/-- The entries, each with the state before its step. -/
def trace : List FirstIp → NetBox → List (FirstIp × NetBox)
  | [], _ => []
  | e :: es, s => (e, s) :: trace es (setPrimary ipam e s).2

def allPayloads (guests : List Guest) (s : NetBox) : List Payload :=
  guests.flatMap fun g => (syncVmIps py ipam s.primaries g).ipPayloads

def vmsWithFirstIps (guests : List Guest) (s : NetBox) : List FirstIp :=
  guests.flatMap fun g => (syncVmIps py ipam s.primaries g).firstIps

/-- The steps that make addresses primary, in a run of `create_only_vm_ip_addresses`; `enabled` is
the setting `custom_fields_enabled`. -/
def primarySteps (enabled : Bool) (flags : Option OverwriteFlags) (guests : List Guest)
    (s : NetBox) : List (FirstIp × NetBox) :=
  trace ipam (vmsWithFirstIps py ipam guests s)
    (reconcilePhase py ipam enabled flags (allPayloads py ipam guests s) s)

/-- `create_only_vm_ip_addresses`. -/
def createOnlyVmIpAddresses (enabled : Bool) (flags : Option OverwriteFlags)
    (guests : List Guest) (s : NetBox) : NetBox :=
  (vmsWithFirstIps py ipam guests s).foldl (fun s e => (setPrimary ipam e s).2)
    (reconcilePhase py ipam enabled flags (allPayloads py ipam guests s) s)

end ProxboxApi.PrimaryIps
