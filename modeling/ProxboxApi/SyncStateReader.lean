import Mathlib.Data.List.Dedup
import Mathlib.Data.Int.Basic

/-! How a NetBox VM is found by its Proxmox identity: the typed sidecar rows first, then the legacy
custom fields, over reads that may fail. -/

namespace ProxboxApi.SyncState

/-- A NetBox VM, with its legacy custom fields. -/
structure VirtualMachine where
  id : ℤ
  cluster : Option ℤ
  cfProxmoxVmId : Option ℤ
  cfProxmoxEndpointId : Option ℤ
  deriving DecidableEq, Repr

structure SidecarRow where
  virtualMachine : Option ℤ
  proxmoxVmId : Option ℤ
  proxmoxEndpointRawId : Option ℤ
  deriving DecidableEq, Repr

/-- The VMs of NetBox and the rows of the optional sidecar route. -/
structure NetBox where
  vms : List VirtualMachine
  rows : List SidecarRow
  sidecarInstalled : Bool
  distinct : (vms.map (·.id)).Nodup
  installed : sidecarInstalled = false → rows = []

/-- A query of the VMs by their custom fields or cluster; a filter that is `none` is left out. -/
structure LegacyQuery where
  cfProxmoxVmId : Option ℤ
  cfProxmoxEndpointId : Option ℤ
  clusterId : Option ℤ
  deriving DecidableEq, Repr

/-- What a VM is looked for by; the id of an endpoint is positive. -/
structure Identity where
  proxmoxVmId : ℤ
  endpointId : Option ℤ
  clusterId : Option ℤ
  fallbackQuery : Option LegacyQuery
  endpoint_pos : ∀ e ∈ endpointId, 0 < e

/-- Which of the reads fail: the sidecar list, the custom-field list, the VM of the sidecar row
with an index, and the VM that is fetched in the end. -/
structure Failures where
  sidecars : Bool
  customFields : Bool
  verify : ℕ → Bool
  fetch : Bool

/-- A filter of NetBox on one field. -/
def admits (filter value : Option ℤ) : Bool :=
  match filter with
  | none => true
  | some _ => value = filter

variable (nb : NetBox)

def NetBox.find (id : ℤ) : Option VirtualMachine := nb.vms.find? (·.id = id)

/-- NetBox's answer to the sidecar query; the limit of a query is only the size of its pages. -/
def NetBox.sidecarRows (identity : Identity) : List SidecarRow :=
  nb.rows.filter fun row => row.proxmoxVmId = some identity.proxmoxVmId &&
    admits identity.endpointId row.proxmoxEndpointRawId

def LegacyQuery.admits (q : LegacyQuery) (vm : VirtualMachine) : Bool :=
  SyncState.admits q.cfProxmoxVmId vm.cfProxmoxVmId &&
    SyncState.admits q.cfProxmoxEndpointId vm.cfProxmoxEndpointId &&
    SyncState.admits q.clusterId vm.cluster

/-- The query of the custom-field lookup: the caller's, or one by vmid and by endpoint or else
cluster. -/
def Identity.legacyQuery (identity : Identity) : LegacyQuery :=
  identity.fallbackQuery.getD
    { cfProxmoxVmId := some identity.proxmoxVmId
      cfProxmoxEndpointId := identity.endpointId
      clusterId := if identity.endpointId.isSome then none else identity.clusterId }

def NetBox.legacyVms (identity : Identity) : List VirtualMachine :=
  nb.vms.filter identity.legacyQuery.admits

inductive Source where
  | sidecar
  | customFields
  deriving DecidableEq, Repr

/-- `_VMIdentityCandidate`. -/
structure Candidate where
  recordId : ℤ
  source : Source
  record : Option VirtualMachine
  deriving DecidableEq, Repr

/-- `SyncStateVMResolution`. -/
structure Resolution where
  record : VirtualMachine
  recordId : ℤ
  source : Source
  deriving DecidableEq, Repr

/-- `_fetch_vm_by_id`. -/
def fetchVmById (fails : Bool) (id : ℤ) : Option VirtualMachine :=
  if fails then none else nb.find id

/-- What a sidecar row comes to. -/
inductive RowOutcome where
  | ignored
  | refused
  | candidate (c : Candidate)

def asPositive (n : ℤ) : Option ℤ := if 0 < n then some n else none

/-- The row is not ignored for its endpoint. -/
def SidecarRow.endpointMatches (identity : Identity) (row : SidecarRow) : Bool :=
  match identity.endpointId with
  | none => true
  | some e => row.proxmoxEndpointRawId.bind asPositive = some e

/-- The body of the loop of `_list_sidecar_vm_identity_candidates`. -/
def rowOutcome (identity : Identity) (fails : Bool) (row : SidecarRow) : RowOutcome :=
  if !row.endpointMatches identity then .ignored
  else match row.virtualMachine with
    | none => .ignored
    | some vmId => match identity.clusterId with
      | none => .candidate ⟨vmId, .sidecar, none⟩
      | some clusterId => match fetchVmById nb fails vmId with
        | none => .refused
        | some vm => match vm.cluster with
          | none => .refused
          | some resolved =>
            if resolved = clusterId then .candidate ⟨vmId, .sidecar, some vm⟩ else .ignored

def RowOutcome.candidate? : RowOutcome → Option Candidate
  | .candidate c => some c
  | _ => none

def RowOutcome.isRefused : RowOutcome → Bool
  | .refused => true
  | _ => false

/-- `_list_sidecar_vm_identity_candidates`; a route that is not installed is no failure. -/
def listSidecarVmIdentityCandidates (failures : Failures) (identity : Identity) :
    Option (List Candidate) × Bool :=
  if !nb.sidecarInstalled then (none, false)
  else if failures.sidecars then (none, true)
  else
    let outcomes := (nb.sidecarRows identity).mapIdx fun i row =>
      rowOutcome nb identity (failures.verify i) row
    (some (outcomes.filterMap RowOutcome.candidate?), outcomes.any RowOutcome.isRefused)

/-- `_list_custom_field_vm_identity_candidates`. -/
def listCustomFieldVmIdentityCandidates (failures : Failures) (identity : Identity) :
    Option (List Candidate) × Bool :=
  if failures.customFields then (none, true)
  else
    (some ((nb.legacyVms identity).map fun vm => ⟨vm.id, .customFields, some vm⟩), false)

/-- The record of the only candidate id: from the custom fields, from a verified sidecar row, or
fetched. -/
def candidateRecord (failures : Failures) (candidates : List Candidate) (recordId : ℤ) :
    Option VirtualMachine :=
  ((candidates.find? fun c => c.source = .customFields).bind (·.record)).or
    ((candidates.findSome? (·.record)).or (fetchVmById nb failures.fetch recordId))

/-- `_resolve_unique_vm_identity_candidate`, on from the two lists of candidates; the flag of the
result reports ambiguity. -/
def decideCandidate (failures : Failures) (candidates : List Candidate)
    (customFieldReadFailed : Bool) : Option Resolution × Bool :=
  match (candidates.map (·.recordId)).dedup with
  | [] => (none, customFieldReadFailed)
  | [recordId] => match candidateRecord nb failures candidates recordId with
    | none => (none, false)
    | some record =>
      (some ⟨record, recordId, (candidates.head?.map (·.source)).getD .customFields⟩, false)
  | _ => (none, true)

/-- `_resolve_unique_vm_identity_candidate`. -/
def resolveUniqueVmIdentityCandidate (failures : Failures) (legacyEnabled : Bool)
    (identity : Identity) : Option Resolution × Bool :=
  let (sidecars, refused) := listSidecarVmIdentityCandidates nb failures identity
  let (customFields, customFieldReadFailed) :=
    if legacyEnabled then listCustomFieldVmIdentityCandidates nb failures identity
    else (none, false)
  if !legacyEnabled && sidecars.isNone then (none, true)
  else if refused && (customFields.getD []).isEmpty then (none, true)
  else decideCandidate nb failures (sidecars.getD [] ++ customFields.getD []) customFieldReadFailed

/-- `resolve_virtual_machine_by_sync_state`, of a vmid that is positive; `none` is the refusal of a
caller that fails on ambiguity. -/
def resolveVirtualMachineBySyncState (failures : Failures) (legacyEnabled failOnAmbiguous : Bool)
    (identity : Identity) : Option (Option Resolution) :=
  let (resolution, ambiguous) := resolveUniqueVmIdentityCandidate nb failures legacyEnabled identity
  if ambiguous && failOnAmbiguous then none else some resolution

variable (legacyEnabled : Bool) (failures : Failures) (identity : Identity)

/-- A sidecar row, or a custom-field value where these are enabled, binds the VM to the
identity. -/
def Binds (id : ℤ) : Prop :=
  ∃ vm ∈ nb.vms, vm.id = id ∧
    ((∃ row ∈ nb.sidecarRows identity, row.virtualMachine = some id ∧
        admits identity.clusterId vm.cluster = true) ∨
      (legacyEnabled = true ∧ vm ∈ nb.legacyVms identity))

/-- A verdict is right: absent means that no VM is bound, and a record is the only one bound. -/
def Right : Option Resolution × Bool → Prop
  | (some r, _) => r.record ∈ nb.vms ∧ r.record.id = r.recordId ∧
      ∀ id, Binds nb legacyEnabled identity id ↔ id = r.recordId
  | (none, false) => ∀ id, ¬ Binds nb legacyEnabled identity id
  | (none, true) => True

/-- A row that is read, for a VM. -/
structure RowRead (i : ℕ) (row : SidecarRow) (id : ℤ) : Prop where
  installed : nb.sidecarInstalled = true
  read : failures.sidecars = false
  listed : (nb.sidecarRows identity)[i]? = some row
  endpoint : row.endpointMatches identity = true
  vm : row.virtualMachine = some id

/-- A sidecar row for the VM has been read and, where a cluster is asked for, its VM has been
verified to be in it. -/
def SidecarRead (id : ℤ) : Prop :=
  ∃ i row, RowRead nb failures identity i row id ∧ ∀ c, identity.clusterId = some c →
    failures.verify i = false ∧ ∃ vm, nb.find id = some vm ∧ vm.cluster = some c

/-- The custom fields have been read and bind the VM. -/
def LegacyRead (id : ℤ) : Prop :=
  legacyEnabled = true ∧ failures.customFields = false ∧
    ∃ vm ∈ nb.legacyVms identity, vm.id = id

def Read (id : ℤ) : Prop :=
  SidecarRead nb failures identity id ∨ LegacyRead nb legacyEnabled failures identity id

/-- The sidecar list cannot be read, or the cluster of the VM of a row cannot be verified. -/
def Unverified : Prop :=
  (nb.sidecarInstalled = true ∧ failures.sidecars = true) ∨
    ∃ i row id, RowRead nb failures identity i row id ∧ identity.clusterId.isSome = true ∧
      (failures.verify i = true ∨ ∀ vm, nb.find id = some vm → vm.cluster = none)

/-- The reads name one VM at most, and they name one where the sidecar rows are not verified (by
custom fields) or the custom fields are not read. -/
structure Decided : Prop where
  readable : legacyEnabled = true ∨ (nb.sidecarInstalled = true ∧ failures.sidecars = false)
  verified : Unverified nb failures identity →
    ∃ id, LegacyRead nb legacyEnabled failures identity id
  single : ∀ id id', Read nb legacyEnabled failures identity id →
    Read nb legacyEnabled failures identity id' → id = id'
  legacy : legacyEnabled = true → failures.customFields = true →
    ∃ id, Read nb legacyEnabled failures identity id

/-- Every VM that is bound has been read, and a VM that only a sidecar row names is fetched. -/
structure Complete : Prop where
  read : ∀ id, Binds nb legacyEnabled identity id → Read nb legacyEnabled failures identity id
  fetched : ∀ id, identity.clusterId = none → SidecarRead nb failures identity id →
    ¬ LegacyRead nb legacyEnabled failures identity id → failures.fetch = true →
      nb.find id = none

/-- The only VM that is named is named by sidecar rows alone, without a cluster to verify, and the
fetch of it comes back empty. -/
def EmptyFetch : Prop :=
  identity.clusterId = none ∧ ∃ id, SidecarRead nb failures identity id ∧
    ¬ LegacyRead nb legacyEnabled failures identity id ∧ fetchVmById nb failures.fetch id = none

/-- The custom fields are enabled and cannot be read. -/
def LegacyUnread : Prop := legacyEnabled = true ∧ failures.customFields = true

/-- Both sources are read and verified. -/
structure AllRead : Prop where
  verified : ¬ Unverified nb failures identity
  legacy : ¬ LegacyUnread legacyEnabled failures

/-- What a verdict says by design.  A record is bound, and is the only one that was read: sidecar
rows stand in for custom fields that cannot be read, and custom fields for sidecar rows that
cannot be verified.  Absence is reported only where all sources were read and verified, and read
nothing (or where the last fetch comes back empty). -/
def AsDesigned : Option Resolution × Bool → Prop
  | (some r, ambiguous) => ambiguous = false ∧ r.record ∈ nb.vms ∧ r.record.id = r.recordId ∧
      Binds nb legacyEnabled identity r.recordId ∧
      (∀ id, Read nb legacyEnabled failures identity id ↔ id = r.recordId) ∧
      (Unverified nb failures identity →
        LegacyRead nb legacyEnabled failures identity r.recordId) ∧
      (LegacyUnread legacyEnabled failures → SidecarRead nb failures identity r.recordId) ∧
      (AllRead nb legacyEnabled failures identity →
        ∀ id, Binds nb legacyEnabled identity id ↔ id = r.recordId)
  | (none, false) => EmptyFetch nb legacyEnabled failures identity ∨
      ((∀ id, ¬ Read nb legacyEnabled failures identity id) ∧ ¬ Unverified nb failures identity ∧
        ¬ LegacyUnread legacyEnabled failures ∧ ∀ id, ¬ Binds nb legacyEnabled identity id)
  | (none, true) => True

end ProxboxApi.SyncState
