import Mathlib
import ProxboxApi.VmidHelpers
import ProxboxApi.VmPayload

/-! The virtual-disk sync: which Proxmox guest's config it reads for a NetBox VM, and what it
writes to the disks of the VM from that config. -/

namespace ProxboxApi.VirtualDisks

open ProxboxApi.VmQueue (Record field relationId extractProxmoxEndpointId sortedSet)
open ProxboxApi.Vmid

/-- An entry of `ProxmoxVmConfigInput.disks`. -/
structure DiskEntry where
  name : String
  sizeMb : ℤ
  storageName : Option String
  storage : String
  description : String

/-- The config of one guest, in the cluster where the guest lives. -/
structure GuestConfig where
  cluster : String
  disks : List DiskEntry

/-- What `get_vm_config` ends in: a config, a `ProxboxException`, or what ends the search without
a config (another error, or a config whose dump is empty). -/
inductive ConfigAnswer where
  | config (guest : GuestConfig)
  | refused
  | broken

/-- A Proxmox session: its fields, and its answers by node, type and vmid. -/
structure Session where
  fields : SessionFields
  getVmConfig : String → String → String → ConfigAnswer

structure VmConfigTarget where
  node : Option String
  vmType : String
  clusterName : Option String
  endpointId : Option ℤ

variable (py : Python)

/-- `_proxmox_node_custom_field`. -/
def proxmoxNodeCustomField (vm : Record) : Option String :=
  firstField (textOrNone py) ["proxmox_node", "cf_proxmox_node"]
    ["proxmox_node", "cf_proxmox_node"] vm

/-- `_iter_cluster_vm_resources`: the resources with this vmid, under the text of their
cluster key. -/
def iterClusterVmResources (clusterResources : List Json) (vmid : String) :
    List (Option String × Json.Fields) :=
  clusterResources.flatMap fun
    | .obj clusters => clusters.flatMap fun (key, resources) => match resources with
      | .arr items => items.filterMap fun
        | .obj resource =>
          if normalizeVmid py (field "vmid" resource) = some vmid then
            some (textOrNone py (.str key), resource)
          else none
        | _ => none
      | _ => []
    | _ => []

/-- The cluster key, node and type of a resource that `_cluster_resource_target` considers. -/
def targetCandidate (vmType : String) (allowTypeOverride : Bool)
    (entry : Option String × Json.Fields) : Option (Option String × String × String) := do
  let text := py.lower ((textOrNone py (field "type" entry.2)).getD "")
  let resourceType := if text = "qemu" ∨ text = "lxc" then text else ""
  if resourceType ≠ "" ∧ resourceType ≠ vmType ∧ !allowTypeOverride then none
  else do
    let node ← textOrNone py (field "node" entry.2)
    some (entry.1, node, if resourceType = "" then vmType else resourceType)

/-- `_cluster_resource_target`: the resource of the cluster, or the only one. -/
def clusterResourceTarget (clusterResources : List Json) (vmid vmType : String)
    (clusterName : Option String) (allowTypeOverride : Bool) :
    Option (Option String × String × String) :=
  let candidates := (iterClusterVmResources py clusterResources vmid).filterMap
    (targetCandidate py vmType allowTypeOverride)
  let named := clusterName.bind fun name => candidates.find? (·.1 = some name)
  named.or (match candidates with
    | [candidate] => some candidate
    | _ => none)

/-- `_resolve_vm_config_target`. -/
def resolveVmConfigTarget (vm : Record) (vmid vmType : String) (vmTypeWasExplicit : Bool)
    (clusterName : Option String) (clusterResources : List Json) : VmConfigTarget :=
  let endpointId := extractProxmoxEndpointId py vm
  match clusterResourceTarget py clusterResources vmid vmType clusterName !vmTypeWasExplicit with
  | some (targetCluster, node, targetType) =>
    ⟨some node, targetType, targetCluster.or clusterName, endpointId⟩
  | none =>
    ⟨(proxmoxNodeCustomField py vm).or (relationName py (field "device" vm)), vmType,
      clusterName, endpointId⟩

/-- The cluster a VM is recorded in. -/
def recordedCluster (vm : Record) : Option String :=
  match field "cluster" vm with
  | .obj cluster => textOrNone py (field "name" cluster)
  | _ => none

/-- `_resolve_cluster_name`; a status is given by its `name`. -/
def resolveClusterName (vm : Record) (clusterStatus : List Json) : Option String :=
  (recordedCluster py vm).or (clusterStatus.findSome? (textOrNone py))

/-- `select_proxmox_sessions_by_endpoint`. -/
def selectProxmoxSessionsByEndpoint (sessions : List Session) (endpointId : Option ℤ) :
    List Session :=
  match endpointId with
  | none => sessions
  | some id => sessions.filter fun s => extractProxmoxSessionEndpointId py s.fields = some id

/-- `resolve_vm_config`, for the sessions that are left; `none` where it raises. -/
def resolveVmConfig (node vmType vmid : String) : List Session → Option GuestConfig
  | [] => none
  | px :: pxs => match px.getVmConfig node vmType vmid with
    | .config guest => some guest
    | .refused => resolveVmConfig node vmType vmid pxs
    | .broken => none

/-- The target of a VM with a vmid. -/
def configTarget (vm : Record) (vmid : String) (clusterStatus clusterResources : List Json) :
    VmConfigTarget :=
  let extracted := extractProxmoxVmType py vm
  resolveVmConfigTarget py vm vmid (extracted.getD "qemu") extracted.isSome
    (resolveClusterName py vm clusterStatus) clusterResources

/-- `VmDiskFetchResult`, of a VM whose config has been read. -/
structure VmDiskFetchResult where
  vm : Record
  clusterName : Option String
  vmConfig : GuestConfig

/-- `_fetch_virtual_disk_vm_config`; `none` is a result with a failure message. -/
def fetchVirtualDiskVmConfig (pxs : List Session) (clusterStatus clusterResources : List Json)
    (vm : Record) : Option VmDiskFetchResult := do
  let vmid ← extractProxmoxVmid py vm
  let target := configTarget py vm vmid clusterStatus clusterResources
  let node ← target.node
  let sessions := selectProxmoxSessionsByEndpoint py pxs target.endpointId
  let vmConfig ← resolveVmConfig node target.vmType vmid sessions
  some ⟨vm, target.clusterName, vmConfig⟩

structure DiskPayload where
  virtualMachine : Json
  name : String
  size : ℤ
  storage : Json
  description : String

/-- A write to NetBox that the sync of one VM makes. -/
inductive DiskCommand where
  | reconcile (payloads : List DiskPayload)
  | delete (ids : List ℤ)
  | patchParent (vmId : ℤ) (disk : ℤ)

abbrev StorageIndex := List ((String × String) × Record)

/-- `storage_name_from_volume_id`. -/
def storageNameFromVolumeId (volumeId : String) : Option String :=
  textOrNone py (.str (String.ofList ((Text.strip volumeId).toList.takeWhile (· ≠ ':'))))

/-- `find_storage_record`. -/
def findStorageRecord (index : StorageIndex) (clusterName storageName : Option String) :
    Option Record := do
  let name ← storageName.bind fun s => textOrNone py (.str s)
  let exact := (clusterName.bind fun s => textOrNone py (.str s)).bind fun cluster =>
    Dict.get (cluster, name) index
  exact.or (match index.filter (·.1.2 = name) with
    | [entry] => some entry.2
    | _ => none)

def diskPayload (index : StorageIndex) (result : VmDiskFetchResult) (disk : DiskEntry) :
    DiskPayload :=
  let storageName := (disk.storageName.filter (· ≠ "")).or
    (storageNameFromVolumeId py disk.storage)
  { virtualMachine := field "id" result.vm
    name := disk.name
    size := disk.sizeMb
    storage := ((findStorageRecord py index result.clusterName storageName).map
      (field "id")).getD .null
    description := disk.description }

/-- The name, id and size of a disk record that has a name and an id. -/
def existingDisk (record : Record) : Option (Option (String × ℤ × ℤ)) := do
  let value := field "name" record
  let name := if Python.truthy value then Text.strip (py.str value) else ""
  let id ← relationId py (field "id" record)
  let size := field "size" record
  let size := if Python.truthy size then (py.int size).getD 0 else 0
  some (if name = "" then none else id.map fun id => (name, id, size))

/-- The ids that `_delete_stale_virtual_disks` deletes. -/
def staleDiskIds (existing : List Record) (desired : List (String × ℤ)) : Option (List ℤ) := do
  let disks := (← existing.mapM (existingDisk py)).filterMap id
  let surplus := (disks.map (·.1)).flatMap fun name =>
    match Dict.get name desired, disks.filter (·.1 = name) with
    | some size, first :: second :: others =>
      let records := first :: second :: others
      let kept := (records.find? (·.2.2 = size)).getD first
      (records.filter (·.2.1 ≠ kept.2.1)).map (·.2.1)
    | some _, _ => []
    | none, records => records.map (·.2.1)
  some (sortedSet surplus)

/-- `_sync_parent_vm_disk_total`. -/
def syncParentVmDiskTotal (vm : Record) (total : ℤ) : Option (List DiskCommand) :=
  match Dict.get "disk" vm with
  | none => some []
  | some disk => do
    let vmId ← relationId py (field "id" vm)
    let current := if Python.truthy disk then (py.int disk).getD 0 else 0
    some (match vmId with
      | some vmId => if current = total then [] else [.patchParent vmId total]
      | none => [])

/-- How the awaits of the sync of one VM end. -/
structure DiskStore where
  reconciles : Bool
  existing : Option (List Record)
  deletes : Bool

/-- The commands of `_delete_stale_virtual_disks` and of what comes after it. -/
def deleteAndTotal (store : DiskStore) (vm : Record) (desired : List (String × ℤ)) (total : ℤ) :
    List DiskCommand :=
  match store.existing.bind (staleDiskIds py · desired) with
  | none => []
  | some [] => (syncParentVmDiskTotal py vm total).getD []
  | some ids =>
    .delete ids :: if store.deletes then (syncParentVmDiskTotal py vm total).getD [] else []

/-- `_sync_virtual_disks_for_vm`: the commands it issues, up to its first exception. -/
def syncVirtualDisksForVm (index : StorageIndex) (store : DiskStore)
    (result : VmDiskFetchResult) : List DiskCommand :=
  let payloads := result.vmConfig.disks.map (diskPayload py index result)
  let desired := Dict.update [] (payloads.map fun p => (p.name, p.size))
  let total := (payloads.map (·.size)).sum
  let later := match relationId py (field "id" result.vm) with
    | some (some _) => deleteAndTotal py store result.vm desired total
    | _ => []
  if payloads.isEmpty then later
  else .reconcile payloads :: if store.reconciles then later else []

/-- A command, the VM it is for and the config it is made from. -/
structure DiskWrite where
  vm : Record
  source : GuestConfig
  command : DiskCommand

/-- What the sync has read and written. -/
structure DiskRun where
  reads : List (Record × GuestConfig)
  writes : List DiskWrite

/-- `create_virtual_disks`, on from the VMs of NetBox. -/
def createVirtualDisks (index : StorageIndex) (store : Record → DiskStore) (pxs : List Session)
    (clusterStatus clusterResources : List Json) (vms : List Record) : DiskRun :=
  let results := vms.filterMap (fetchVirtualDiskVmConfig py pxs clusterStatus clusterResources)
  { reads := results.map fun r => (r.vm, r.vmConfig)
    writes := results.flatMap fun r =>
      (syncVirtualDisksForVm py index (store r.vm) r).map (⟨r.vm, r.vmConfig, ·⟩) }

/-- The guest lives in the cluster the VM is recorded in, if it is recorded in one. -/
def Own (vm : Record) (guest : GuestConfig) : Prop :=
  ∀ cluster, recordedCluster py vm = some cluster → guest.cluster = cluster

/-- The sync reads no config of a guest in another cluster, and writes nothing from one. -/
structure OwnDisksOnly (run : DiskRun) : Prop where
  reads : ∀ read ∈ run.reads, Own py read.1 read.2
  writes : ∀ write ∈ run.writes, Own py write.vm write.source

/-- The session may be asked for the config of the VM: it has the VM's stored endpoint id, if the
VM stores one. -/
def Eligible (vm : Record) (px : Session) : Prop :=
  ∀ id, extractProxmoxEndpointId py vm = some id →
    extractProxmoxSessionEndpointId py px.fields = some id

/-- The resources with the vmid and, where the VM has one, the type of the VM. -/
def candidatesOf (clusterResources : List Json) (vm : Record) (vmid : String) :
    List (Option String × String × String) :=
  (iterClusterVmResources py clusterResources vmid).filterMap
    (targetCandidate py ((extractProxmoxVmType py vm).getD "qemu")
      !(extractProxmoxVmType py vm).isSome)

/-- The node and type at which the guest of a VM is looked for: those of the first resource with
its vmid in its cluster, else those of the only resource with its vmid, else those of the
record. -/
inductive Target (clusterStatus clusterResources : List Json) (vm : Record) (vmid : String) :
    String → String → Prop where
  | cluster (name : String) (c : Option String × String × String) :
    resolveClusterName py vm clusterStatus = some name →
    (candidatesOf py clusterResources vm vmid).find? (·.1 = some name) = some c →
    Target clusterStatus clusterResources vm vmid c.2.1 c.2.2
  | only (c : Option String × String × String) :
    (∀ name, resolveClusterName py vm clusterStatus = some name → c.1 ≠ some name) →
    candidatesOf py clusterResources vm vmid = [c] →
    Target clusterStatus clusterResources vm vmid c.2.1 c.2.2
  | stored (node : String) :
    (∀ name, resolveClusterName py vm clusterStatus = some name →
      ∀ c ∈ candidatesOf py clusterResources vm vmid, c.1 ≠ some name) →
    (candidatesOf py clusterResources vm vmid).length ≠ 1 →
    (proxmoxNodeCustomField py vm).or (relationName py (field "device" vm)) = some node →
    Target clusterStatus clusterResources vm vmid node ((extractProxmoxVmType py vm).getD "qemu")

/-- Where a VM has a vmid and a target, the first eligible session that does not refuse the target
answers with a guest of the VM's cluster, or with no config. -/
def OwnGuestFirst (pxs : List Session) (clusterStatus clusterResources : List Json)
    (vm : Record) : Prop :=
  ∀ vmid node vmType, extractProxmoxVmid py vm = some vmid →
    Target py clusterStatus clusterResources vm vmid node vmType →
    ∀ before px after guest, pxs = before ++ px :: after →
      (∀ s ∈ before, Eligible py vm s → s.getVmConfig node vmType vmid = .refused) →
      Eligible py vm px → px.getVmConfig node vmType vmid = .config guest → Own py vm guest

variable {pxs : List Session} {clusterStatus clusterResources : List Json}

/-- The config that is read is that of the first eligible session which does not refuse. -/
theorem resolveVmConfig_eq_some_iff {vm : Record} {node vmType vmid : String}
    {guest : GuestConfig} : resolveVmConfig node vmType vmid
        (selectProxmoxSessionsByEndpoint py pxs (extractProxmoxEndpointId py vm)) = some guest ↔
      ∃ before px after, pxs = before ++ px :: after ∧
        (∀ s ∈ before, Eligible py vm s → s.getVmConfig node vmType vmid = .refused) ∧
          Eligible py vm px ∧ px.getVmConfig node vmType vmid = .config guest := by
  classical
  have hselect : ∀ sessions, selectProxmoxSessionsByEndpoint py sessions
      (extractProxmoxEndpointId py vm) = sessions.filter (Eligible py vm ·) := by
    intro sessions
    unfold selectProxmoxSessionsByEndpoint Eligible
    cases extractProxmoxEndpointId py vm with
    | none => simp
    | some id => simp
  rw [hselect]
  induction pxs with
  | nil => simp [resolveVmConfig]
  | cons px pxs ih =>
    constructor
    · intro h
      have hlater : resolveVmConfig node vmType vmid (pxs.filter (Eligible py vm ·)) = some guest →
          (Eligible py vm px → px.getVmConfig node vmType vmid = .refused) →
          ∃ before px' after, px :: pxs = before ++ px' :: after ∧
            (∀ s ∈ before, Eligible py vm s → s.getVmConfig node vmType vmid = .refused) ∧
              Eligible py vm px' ∧ px'.getVmConfig node vmType vmid = .config guest := by
        intro h hpx
        obtain ⟨before, px', after, rfl, hbefore, hrest⟩ := ih.mp h
        refine ⟨px :: before, px', after, rfl, ?_, hrest⟩
        intro s hs
        rcases List.mem_cons.mp hs with rfl | hs
        · exact hpx
        · exact hbefore s hs
      by_cases he : Eligible py vm px
      · rw [List.filter_cons_of_pos (by simpa using he), resolveVmConfig] at h
        split at h
        · cases h
          exact ⟨[], px, pxs, rfl, by simp, he, ‹_›⟩
        · exact hlater h fun _ => ‹_›
        · contradiction
      · rw [List.filter_cons_of_neg (by simpa using he)] at h
        exact hlater h fun h' => absurd h' he
    · rintro ⟨before, px', after, heq, hbefore, he, hpx'⟩
      cases before with
      | nil =>
        cases heq
        rw [List.filter_cons_of_pos (by simpa using he), resolveVmConfig, hpx']
      | cons first before =>
        cases heq
        have hrest := ih.mpr ⟨before, px', after, rfl,
          fun s hs => hbefore s (List.mem_cons_of_mem _ hs), he, hpx'⟩
        by_cases hfirst : Eligible py vm px
        · rw [List.filter_cons_of_pos (by simpa using hfirst), resolveVmConfig,
            hbefore px (List.mem_cons_self ..) hfirst]
          exact hrest
        · rw [List.filter_cons_of_neg (by simpa using hfirst)]
          exact hrest

/-- The first candidate that is in the cluster of the VM. -/
def namedCandidate (clusterStatus clusterResources : List Json) (vm : Record) (vmid : String) :
    Option (Option String × String × String) :=
  (resolveClusterName py vm clusterStatus).bind fun name =>
    (candidatesOf py clusterResources vm vmid).find? (·.1 = some name)

theorem namedCandidate_eq_none_iff {vm : Record} {vmid : String} :
    namedCandidate py clusterStatus clusterResources vm vmid = none ↔
      ∀ name, resolveClusterName py vm clusterStatus = some name →
        ∀ c ∈ candidatesOf py clusterResources vm vmid, c.1 ≠ some name := by
  unfold namedCandidate
  cases resolveClusterName py vm clusterStatus <;> simp

def onlyCandidate (clusterResources : List Json) (vm : Record) (vmid : String) :
    Option (Option String × String × String) :=
  match candidatesOf py clusterResources vm vmid with
  | [c] => some c
  | _ => none

theorem configTarget_eq (vm : Record) (vmid : String) :
    configTarget py vm vmid clusterStatus clusterResources =
      match (namedCandidate py clusterStatus clusterResources vm vmid).or
        (onlyCandidate py clusterResources vm vmid) with
      | some c => ⟨some c.2.1, c.2.2, c.1.or (resolveClusterName py vm clusterStatus),
        extractProxmoxEndpointId py vm⟩
      | none => ⟨(proxmoxNodeCustomField py vm).or (relationName py (field "device" vm)),
        (extractProxmoxVmType py vm).getD "qemu", resolveClusterName py vm clusterStatus,
        extractProxmoxEndpointId py vm⟩ := by
  have htarget : clusterResourceTarget py clusterResources vmid
      ((extractProxmoxVmType py vm).getD "qemu") (resolveClusterName py vm clusterStatus)
        (!(extractProxmoxVmType py vm).isSome) =
      (namedCandidate py clusterStatus clusterResources vm vmid).or
        (onlyCandidate py clusterResources vm vmid) := rfl
  unfold configTarget resolveVmConfigTarget
  dsimp only
  rw [htarget]
  cases (namedCandidate py clusterStatus clusterResources vm vmid).or
    (onlyCandidate py clusterResources vm vmid) <;> rfl

theorem configTarget_of_named {vm : Record} {vmid : String}
    {c : Option String × String × String}
    (h : namedCandidate py clusterStatus clusterResources vm vmid = some c) :
    (configTarget py vm vmid clusterStatus clusterResources).node = some c.2.1 ∧
      (configTarget py vm vmid clusterStatus clusterResources).vmType = c.2.2 := by
  rw [configTarget_eq, h]
  exact ⟨rfl, rfl⟩

theorem configTarget_of_only {vm : Record} {vmid : String}
    {c : Option String × String × String}
    (h : namedCandidate py clusterStatus clusterResources vm vmid = none)
    (hc : candidatesOf py clusterResources vm vmid = [c]) :
    (configTarget py vm vmid clusterStatus clusterResources).node = some c.2.1 ∧
      (configTarget py vm vmid clusterStatus clusterResources).vmType = c.2.2 := by
  rw [configTarget_eq, h, onlyCandidate, hc]
  exact ⟨rfl, rfl⟩

theorem configTarget_of_stored {vm : Record} {vmid : String}
    (h : namedCandidate py clusterStatus clusterResources vm vmid = none)
    (hc : (candidatesOf py clusterResources vm vmid).length ≠ 1) :
    (configTarget py vm vmid clusterStatus clusterResources).node =
        (proxmoxNodeCustomField py vm).or (relationName py (field "device" vm)) ∧
      (configTarget py vm vmid clusterStatus clusterResources).vmType =
        (extractProxmoxVmType py vm).getD "qemu" := by
  have honly : onlyCandidate py clusterResources vm vmid = none := by
    unfold onlyCandidate
    split
    · rename_i c heq
      simp [heq] at hc
    · rfl
  rw [configTarget_eq, h, honly]
  exact ⟨rfl, rfl⟩

/-- The target of the code is the one described. -/
theorem configTarget_iff {vm : Record} {vmid node vmType : String} :
    (configTarget py vm vmid clusterStatus clusterResources).node = some node ∧
        (configTarget py vm vmid clusterStatus clusterResources).vmType = vmType ↔
      Target py clusterStatus clusterResources vm vmid node vmType := by
  constructor
  · rintro ⟨hnode, rfl⟩
    cases hnamed : namedCandidate py clusterStatus clusterResources vm vmid with
    | some c =>
      obtain ⟨hnode', htype⟩ := configTarget_of_named py hnamed
      obtain ⟨name, hname, hfind⟩ := Option.bind_eq_some_iff.mp hnamed
      rw [htype, ← Option.some.inj (hnode'.symm.trans hnode)]
      exact .cluster name c hname hfind
    | none =>
      have hother := (namedCandidate_eq_none_iff py).mp hnamed
      by_cases hlength : (candidatesOf py clusterResources vm vmid).length = 1
      · obtain ⟨c, hc⟩ := List.length_eq_one_iff.mp hlength
        obtain ⟨hnode', htype⟩ := configTarget_of_only py hnamed hc
        rw [htype, ← Option.some.inj (hnode'.symm.trans hnode)]
        exact .only c (fun name hname => hother name hname c (by simp [hc])) hc
      · obtain ⟨hnode', htype⟩ := configTarget_of_stored py hnamed hlength
        rw [htype]
        exact .stored node hother hlength (hnode'.symm.trans hnode)
  · intro h
    cases h with
    | cluster name c hname hfind =>
      exact configTarget_of_named py (Option.bind_eq_some_iff.mpr ⟨name, hname, hfind⟩)
    | only c hother hc =>
      refine configTarget_of_only py ((namedCandidate_eq_none_iff py).mpr ?_) hc
      intro name hname c' hc'
      rw [hc, List.mem_singleton] at hc'
      exact hc' ▸ hother name hname
    | stored node hother hlength hstored =>
      obtain ⟨hnode, htype⟩ := configTarget_of_stored py
        ((namedCandidate_eq_none_iff py).mpr hother) hlength
      exact ⟨hnode.trans hstored, htype⟩

theorem configTarget_endpointId {vm : Record} {vmid : String} :
    (configTarget py vm vmid clusterStatus clusterResources).endpointId =
      extractProxmoxEndpointId py vm := by
  unfold configTarget resolveVmConfigTarget
  dsimp only
  split <;> rfl

theorem fetch_eq_some_iff {vm : Record} {r : VmDiskFetchResult} :
    fetchVirtualDiskVmConfig py pxs clusterStatus clusterResources vm = some r ↔
      ∃ vmid node, extractProxmoxVmid py vm = some vmid ∧
        (configTarget py vm vmid clusterStatus clusterResources).node = some node ∧
        r.vm = vm ∧
        r.clusterName = (configTarget py vm vmid clusterStatus clusterResources).clusterName ∧
        resolveVmConfig node (configTarget py vm vmid clusterStatus clusterResources).vmType vmid
          (selectProxmoxSessionsByEndpoint py pxs (extractProxmoxEndpointId py vm)) =
          some r.vmConfig := by
  unfold fetchVirtualDiskVmConfig
  simp only [Option.bind_eq_bind, Option.bind_eq_some_iff, configTarget_endpointId]
  constructor
  · rintro ⟨vmid, hvmid, node, hnode, guest, hguest, heq⟩
    cases heq
    exact ⟨vmid, node, hvmid, hnode, rfl, rfl, hguest⟩
  · rintro ⟨vmid, node, hvmid, hnode, hvm, hcluster, hguest⟩
    refine ⟨vmid, hvmid, node, hnode, r.vmConfig, hguest, ?_⟩
    rw [← hcluster, ← hvm]

/-- A VM is synced from its own cluster exactly if its own guest answers first. -/
theorem own_fetch_iff {vm : Record} :
    (∀ r, fetchVirtualDiskVmConfig py pxs clusterStatus clusterResources vm = some r →
      Own py vm r.vmConfig) ↔ OwnGuestFirst py pxs clusterStatus clusterResources vm := by
  constructor
  · intro h vmid node vmType hvmid htarget before px after guest hsplit hbefore he hpx
    obtain ⟨hnode, rfl⟩ := (configTarget_iff py).mpr htarget
    have hguest := (resolveVmConfig_eq_some_iff py).mpr ⟨before, px, after, hsplit, hbefore, he, hpx⟩
    exact h ⟨vm, _, guest⟩ ((fetch_eq_some_iff py).mpr ⟨vmid, node, hvmid, hnode, rfl, rfl, hguest⟩)
  · intro h r hr
    obtain ⟨vmid, node, hvmid, hnode, -, -, hguest⟩ := (fetch_eq_some_iff py).mp hr
    obtain ⟨before, px, after, hsplit, hbefore, he, hpx⟩ :=
      (resolveVmConfig_eq_some_iff py).mp hguest
    exact h vmid node _ hvmid ((configTarget_iff py).mp ⟨hnode, rfl⟩) before px after _ hsplit
      hbefore he hpx

/-- Sessions that serve one cluster only keep a VM recorded there to its own guest. -/
theorem ownGuestFirst_of_sessions {vm : Record} {cluster : String}
    (hcluster : recordedCluster py vm = some cluster)
    (hown : ∀ px ∈ pxs, Eligible py vm px → ∀ node vmType vmid guest,
      px.getVmConfig node vmType vmid = .config guest → guest.cluster = cluster) :
    OwnGuestFirst py pxs clusterStatus clusterResources vm := by
  intro vmid node vmType _ _ before px after guest hsplit _ he hpx cluster' hcluster'
  rw [hcluster] at hcluster'
  cases hcluster'
  exact hown px (by simp [hsplit]) he node vmType vmid guest hpx

/-- The virtual-disk sync keeps to the guests of the recorded clusters exactly if, for each VM,
the guest of its own cluster is the first that the eligible sessions find. -/
theorem ownDisksOnly_iff (index : StorageIndex) (store : Record → DiskStore) (pxs : List Session)
    (clusterStatus clusterResources : List Json) (vms : List Record) :
    OwnDisksOnly py (createVirtualDisks py index store pxs clusterStatus clusterResources vms) ↔
      ∀ vm ∈ vms, OwnGuestFirst py pxs clusterStatus clusterResources vm := by
  have hvm : ∀ {vm r}, fetchVirtualDiskVmConfig py pxs clusterStatus clusterResources vm = some r →
      r.vm = vm := by
    intro vm r h
    obtain ⟨_, _, _, _, heq, _⟩ := (fetch_eq_some_iff py).mp h
    exact heq
  constructor
  · intro h vm hmem
    refine (own_fetch_iff py).mp ?_
    intro r hr
    have hread : (r.vm, r.vmConfig) ∈ (createVirtualDisks py index store pxs clusterStatus
        clusterResources vms).reads :=
      List.mem_map.mpr ⟨r, List.mem_filterMap.mpr ⟨vm, hmem, hr⟩, rfl⟩
    have hown := h.reads _ hread
    rwa [hvm hr] at hown
  · intro h
    have hresult : ∀ r ∈ vms.filterMap
        (fetchVirtualDiskVmConfig py pxs clusterStatus clusterResources),
        Own py r.vm r.vmConfig := by
      intro r hr
      obtain ⟨vm, hmem, hfetch⟩ := List.mem_filterMap.mp hr
      rw [hvm hfetch]
      exact (own_fetch_iff py).mpr (h vm hmem) r hfetch
    refine ⟨?_, ?_⟩
    · intro read hread
      obtain ⟨r, hr, rfl⟩ := List.mem_map.mp hread
      exact hresult r hr
    · intro write hwrite
      obtain ⟨r, hr, hcommand⟩ := List.mem_flatMap.mp hwrite
      obtain ⟨command, -, rfl⟩ := List.mem_map.mp hcommand
      exact hresult r hr

/-- A session on a node called `pve` that serves one guest 100. -/
def pveSession (cluster disk : String) : Session where
  fields := ⟨.int 1, .null, .null, .str cluster, .null⟩
  getVmConfig node vmType vmid :=
    if node = "pve" ∧ vmType = "qemu" ∧ vmid = "100" then
      .config ⟨cluster, [⟨disk, 1024, none, "local:vm-100-disk-0", ""⟩]⟩
    else .refused

/-- A VM without a stored endpoint, whose cluster `b` is not among the resources. -/
def movedVm : Record :=
  [("id", .int 7), ("name", .str "vm"), ("cluster", .obj [("name", .str "b")]),
    ("device", .obj [("name", .str "pve")]),
    ("custom_fields", .obj [("proxmox_vm_id", .int 100)])]

/-- Guest 100 of cluster `a` answers for the VM in cluster `b`: a disk of the VM is deleted and
the disk of the other guest is written in its place. -/
theorem foreign_disks_applied : ¬ OwnDisksOnly .ascii (createVirtualDisks .ascii []
    (fun _ => ⟨true, some [[("id", .int 3), ("name", .str "virtio0"), ("size", .int 4096)]], true⟩)
    [pveSession "a" "scsi0", pveSession "b" "virtio0"] [] [] [movedVm]) := by
  intro h
  have hread := h.reads (movedVm, ⟨"a", [⟨"scsi0", 1024, none, "local:vm-100-disk-0", ""⟩]⟩)
    (List.mem_cons_self ..)
  exact absurd (hread "b" (by decide +kernel)) (by decide)

end ProxboxApi.VirtualDisks
