import ProxboxApi.NameUniqueness
import ProxboxApi.QueueMatching
import ProxboxApi.SidecarHydration

/-! The name that the individual sync of a VM leaves in its payload, and the name that the pre-pass
gives the same guest. -/

namespace ProxboxApi.VmNames

open ProxboxApi.VmQueue

variable (py : Python)

/-- `_sidecar_text`. -/
def sidecarText (value : Json) : String :=
  Text.strip (if Python.truthy value then py.str value else "")

/-- `_collapse_vm_last_synced_name`: the value, if there is one only. -/
def collapseVmLastSyncedName (values : List String) : Option String :=
  match values.dedup with
  | [name] => some name
  | _ => none

/-- The names that the rows of a VM record. -/
def syncedNames (rows : List SyncStateRow) (vmId : ℤ) : List String :=
  ((rows.filter (·.virtualMachine = some vmId)).map fun row =>
    sidecarText py row.proxmoxVmName).filter (· ≠ "")

/-- `load_vm_last_synced_name`. -/
def loadVmLastSyncedName (rows : List SyncStateRow) (vmId : ℤ) : Option String :=
  if 0 < vmId then collapseVmLastSyncedName (syncedNames py rows vmId) else none

/-- A row enters the names by VM. -/
def addSyncedName (names : List (ℤ × List String)) (row : SyncStateRow) :
    List (ℤ × List String) :=
  match row.virtualMachine with
  | none => names
  | some parentId =>
    let name := sidecarText py row.proxmoxVmName
    if name = "" then names
    else Dict.set parentId ((Dict.get parentId names).getD [] ++ [name]) names

/-- `load_vm_last_synced_names`. -/
def loadVmLastSyncedNames (rows : List SyncStateRow) : List (ℤ × String) :=
  (rows.foldl (addSyncedName py) []).filterMap fun x =>
    (collapseVmLastSyncedName x.2).map (x.1, ·)

/-- `int(str(cf.get("proxmox_vm_id") or 0).strip())`, where it is not zero. -/
def rawVmid (record : Record) : Option ℤ :=
  match customFields record with
  | none => none
  | some fields =>
    let value := field "proxmox_vm_id" fields
    (stripInt py (if Python.truthy value then value else .int 0)).filter (· ≠ 0)

/-- One record of `_build_cluster_vm_name_state`. -/
def addClusterVm (s : Finset String × List (ℤ × Record)) (record : Record) :
    Finset String × List (ℤ × Record) :=
  (match snapshotName record with
    | some name => insert name s.1
    | none => s.1,
   match rawVmid py record with
    | some vmid => Dict.set vmid record s.2
    | none => s.2)

/-- `_build_cluster_vm_name_state`. -/
def buildClusterVmNameState (clusterVms : List Record) : Finset String × List (ℤ × Record) :=
  clusterVms.foldl (addClusterVm py) (∅, [])

/-- The used names without the name of a record. -/
def discardName (existing : Option Record) (used : Finset String) : Finset String :=
  match existing with
  | some existing => match field "name" existing with
    | .str name => used.erase name
    | _ => used
  | none => used

/-- `str(payload.get("name") or "")`. -/
def payloadName (payload : Json.Fields) : String :=
  let name := field "name" payload
  if Python.truthy name then py.str name else ""

variable {py} (inv : Inventory py) (legacyEnabled : Bool)

/-- NetBox's answer to the list of the VMs of a cluster. -/
def clusterVms (clusterId : ℤ) : List (StoredVm py) :=
  inv.vms.filter (·.cluster = some clusterId)

/-- `_resolve_sidecar_existing_vm_for_name_collision`. -/
def resolveSidecarExistingVm (clusterId vmid : ℤ) (payload : Json.Fields) : Option Record :=
  let lookedUp := if (extractProxmoxEndpointId py payload).isSome then none else some clusterId
  ((resolvePayload inv legacyEnabled payload vmid lookedUp (some clusterId)).bind fun r =>
    inv.find r.recordId).map (·.record)

/-- The record that is taken for the VM's: the sidecar's before that of the vmid. -/
def existingVm (clusterId vmid : ℤ) (payload : Json.Fields)
    (existingByVmid : List (ℤ × Record)) : Option Record :=
  Dict.get vmid (match resolveSidecarExistingVm inv legacyEnabled clusterId vmid payload with
    | some existing => Dict.set vmid existing existingByVmid
    | none => existingByVmid)

variable (py) in
/-- `record_id` of a record or `None`; the outer `none` is an exception. -/
def existingVmId (existing : Option Record) : Option (Option ℤ) :=
  match existing with
  | some existing => recordId py existing
  | none => some none

/-- `_apply_name_collision_resolution`: the payload after it, `none` where it raises. -/
def applyNameCollisionResolution (clusterId vmid : ℤ) (payload : Json.Fields) :
    Option Json.Fields := do
  let (used, existingByVmid) :=
    buildClusterVmNameState py ((clusterVms inv clusterId).map (·.record))
  let existing := existingVm inv legacyEnabled clusterId vmid payload existingByVmid
  let used := discardName existing used
  let vmId ← existingVmId py existing
  let lastSynced := vmId.bind (loadVmLastSyncedName py inv.rows)
  let candidate := payloadName py payload
  if candidate = "" then some payload
  else
    let (resolution, _) :=
      resolveUniqueVmName py (some clusterId) candidate used existing lastSynced
    if resolution.resolvedName ≠ candidate then
      some (Dict.set "name" (.str resolution.resolvedName) payload)
    else some payload

variable (g : Guest)

/-- The name that the individual sync leaves in the payload of the guest. -/
def individualName : Option String :=
  (applyNameCollisionResolution inv legacyEnabled g.clusterId g.vmid
    g.prepared.desiredPayload).map (payloadName py)

/-- The snapshot, hydrated for the guest. -/
def hydratedFor : Option (List Record) :=
  (hydrateVmSnapshotWithSidecarIdentity inv legacyEnabled inv.snapshot [g.prepared]).map Prod.fst

/-- The name that the pre-pass gives the guest, prepared alone. -/
def prePassName : Option String := do
  let snapshot ← hydratedFor inv legacyEnabled g
  let (after, _) ← resolveVmNamesPrePass py snapshot (loadVmLastSyncedNames py inv.rows) [g.prepared]
  some (nameAt py after 0)

/-- The guest's own record: the one that its identity matches in the hydrated snapshot. -/
def ownRecord : Option Record :=
  (hydratedFor inv legacyEnabled g).bind fun snapshot => matched py snapshot g.prepared

/-- The VM is not the guest's own record. -/
def IsOther (vm : StoredVm py) : Prop :=
  ∀ own, ownRecord inv legacyEnabled g = some own → field "id" own ≠ .int vm.id

/-- Both syncs give the guest the same name, which no other VM of the cluster has, up to case. -/
structure NamesAlike : Prop where
  same : ∃ name, individualName inv legacyEnabled g = some name ∧
    prePassName inv legacyEnabled g = some name
  free : ∀ name, individualName inv legacyEnabled g = some name →
    ∀ vm ∈ clusterVms inv g.clusterId, IsOther inv legacyEnabled g vm →
      py.casefold vm.name ≠ py.casefold name

/-- The names of the VMs are distinct within each cluster, up to case. -/
def DistinctVmNames : Prop :=
  ∀ c, ((clusterVms inv c).map fun vm => py.casefold vm.name).Nodup

end ProxboxApi.VmNames
