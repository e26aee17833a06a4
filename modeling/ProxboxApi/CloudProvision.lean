import Mathlib
import ProxboxApi.CloudLease

/-! `provision_vm`, the generator of the provision stream, and `provision_lxc`. -/

namespace ProxboxApi.CloudProvision

open Requests
open VmQueue (field)

variable (cfg : Settings)

/-- `_extract_task_id`, and `_extract_upid`. -/
def extractTaskId : Json → Option String
  | .str task => some task
  | .obj response => match field "data" response with
    | .str task => some task
    | .obj data =>
      let task := if Python.truthy (field "upid" data) then field "upid" data else field "UPID" data
      if task.isNull then none else some (cfg.py.str task)
    | _ => none
  | _ => none

/-- `_is_upid`. -/
def isUpid (task : String) : Bool := "UPID:".toList.isPrefixOf task.toList

/-- `mapping_from_response`. -/
def mappingFromResponse : Json → Json.Fields
  | .obj response => match field "data" response with
    | .obj data => data
    | _ => response
  | _ => []

/-- What the polls make of a wait. -/
def pollResult (ending : Exn) : List (Except Exn TaskStatus) → Except Exn Unit
  | [] => .error ending
  | .error e :: _ => .error e
  | .ok task :: rest =>
    if task.status = some "stopped" then
      if task.exitstatus = none ∨ task.exitstatus = some "OK" then .ok () else .error .proxmoxApi
    else pollResult ending rest

def Polls.result (polls : Polls) : Except Exn Unit := pollResult polls.ending polls.seen

/-- `_wait_for_upid`. -/
def waitForUpid (node upid : String) : Act Unit :=
  Attempt.ask (.waitTask node upid) Polls.result

/-- The wait for the task of a write, if it has one. -/
def waitForTask (node : String) (task : Option String) : Act Unit :=
  match task with
  | none => Attempt.ret ()
  | some upid => if isUpid upid && !cfg.mockProxmox then waitForUpid node upid else Attempt.ret ()

structure CloudVMProvisionRequest where
  templateVmid : ℤ
  newVmid : ℤ
  targetNode : String
  network : Option Json.Fields
  diskGb : Option ℤ
  startAfterProvision : Bool
  enforceCloudNetwork : Bool

/-- `_request_with_cloud_network`. -/
def requestWithCloudNetwork (req : CloudVMProvisionRequest) (network : CloudNetworkConfig)
    (allocated : AllocatedIPAddress) : CloudVMProvisionRequest :=
  { req with network := some [("ip", .str allocated.cidr), ("gw", .str network.gateway)] }

/-- `_prepare_qemu_cloud_network_request`. -/
def prepareQemuCloudNetworkRequest (req : CloudVMProvisionRequest) :
    Act (CloudVMProvisionRequest × Option Lease) :=
  if !req.enforceCloudNetwork then Attempt.ret (req, none)
  else (requireResolvedCloudNetwork cfg).bind fun network =>
    match network.prefixId with
    | none => Attempt.throw .http
    | some prefixId => (Attempt.ask .netboxSession id).bind fun _ =>
      (allocateIp cfg prefixId).bind fun allocated =>
        Attempt.ret (requestWithCloudNetwork req network allocated, some ⟨allocated.id⟩)

/-- The node of a guest among the resources; `none` is an error response. -/
def nodeResult (vmid : ℤ) : Except Exn (List Resource) → Except Exn (Option String)
  | .error .proxmoxApi => .ok none
  | .error e => .error e
  | .ok resources => .ok ((resources.find? fun r =>
      r.vmid = some vmid && (r.node.getD "") ≠ "").bind Resource.node)

/-- `resolve_proxmox_node` of a QEMU guest. -/
def resolveProxmoxNode (vmid : ℤ) : Act (Option String) :=
  Attempt.ask .clusterResources (nodeResult vmid)

def templateResult (node : String) : Except Exn Unit → Except Exn String
  | .ok () => .ok node
  | .error e => .error (if e.isException then .http else e)

/-- The node of the template: without one, its configuration must be on the target node. -/
def templateNode (req : CloudVMProvisionRequest) : Option String → Act String
  | some node => Attempt.ret node
  | none => Attempt.ask (.templateConfig req.targetNode req.templateVmid)
      (templateResult req.targetNode)

/-- `_clone_template_vm`. -/
def cloneTemplateVm (req : CloudVMProvisionRequest) : Act (Option String) :=
  (resolveProxmoxNode req.templateVmid).bind fun resolved =>
  (templateNode req resolved).bind fun node =>
  (Attempt.ask (.clone node req.templateVmid req.newVmid req.targetNode) id).bind fun answer =>
  let task := extractTaskId cfg answer
  (waitForTask cfg node task).bind fun _ => Attempt.ret task

/-- `_has_cloudinit_drive`. -/
def hasCloudinitDrive (config : Json.Fields) : Bool :=
  config.any fun kv => (["ide", "sata", "scsi", "virtio"].any fun drive =>
      drive.toList.isPrefixOf kv.1.toList) &&
    decide ("cloudinit".toList <:+: (cfg.py.lower (cfg.py.str kv.2)).toList)

/-- `_pick_unused_ide_slot`. -/
def pickUnusedIdeSlot : Option Json.Fields → Option String
  | none => some "ide2"
  | some config => ["ide2", "ide0", "ide1", "ide3"].find? fun slot =>
    (Dict.get slot config).isNone

/-- `_build_ipconfig0`. -/
def buildIpconfig0 (network : Json.Fields) : Option String :=
  if !(field "ipconfig0" network).isNull then some (cfg.py.str (field "ipconfig0" network))
  else if (field "ip" network).isNull then none
  else
    let ip := cfg.py.str (field "ip" network)
    let ip := if !(field "cidr" network).isNull && !ip.toList.contains '/' &&
        !(["dhcp", "auto"].contains (cfg.py.lower ip))
      then ip ++ "/" ++ cfg.py.str (field "cidr" network) else ip
    let gateway := if Python.truthy (field "gw" network) then field "gw" network
      else field "gateway" network
    some ("ip=" ++ ip ++ if gateway.isNull then "" else ",gw=" ++ cfg.py.str gateway)

/-- The configuration read, if there is one. -/
def qemuConfigResult : Except Exn Json → Except Exn (Option Json.Fields)
  | .ok .null => .ok none
  | .ok config => .ok (some (mappingFromResponse config))
  | .error e => if e.isException then .ok none else .error e

/-- `_get_qemu_config_best_effort`. -/
def getQemuConfigBestEffort (node : String) (vmid : ℤ) : Act (Option Json.Fields) :=
  Attempt.ask (.qemuConfig node vmid) qemuConfigResult

/-- The slot of the cloud-init drive to add, if the guest has none; `none` where no slot is free. -/
def cloudinitSlot (config : Option Json.Fields) : Option (Option String) :=
  match config with
  | none => some (pickUnusedIdeSlot none)
  | some fields =>
    if hasCloudinitDrive cfg fields then some none else (pickUnusedIdeSlot config).map some

/-- `_configure_cloud_init_vm`. -/
def configureCloudInitVm (req : CloudVMProvisionRequest) : Act (Option String) :=
  (getQemuConfigBestEffort req.targetNode req.newVmid).bind fun config =>
    match cloudinitSlot cfg config with
    | none => Attempt.throw .http
    | some slot =>
      let args : CiArgs := ⟨req.network.bind (buildIpconfig0 cfg), slot⟩
      (Attempt.ask (.configure req.targetNode req.newVmid args) Write.result).bind fun answer =>
        Attempt.ret (extractTaskId cfg answer)

/-- `_resize_vm_disk`. -/
def resizeVmDisk (req : CloudVMProvisionRequest) : Act (Option String) :=
  match req.diskGb with
  | none => Attempt.ret none
  | some size => (Attempt.ask (.resize req.targetNode req.newVmid (toString size ++ "G")) id).bind
    fun answer => Attempt.ret (extractTaskId cfg answer)

/-- `_start_vm_after_provision`. -/
def startVmAfterProvision (req : CloudVMProvisionRequest) : Act (Option String) :=
  if req.startAfterProvision then
    (Attempt.ask (.start req.targetNode req.newVmid) id).bind fun answer =>
      Attempt.ret (extractTaskId cfg answer)
  else Attempt.ret none

/-- `_journal_provision_best_effort`. -/
def journalProvisionBestEffort : Act Unit :=
  if cfg.mockProxmox then Attempt.ret () else bestEffort (Attempt.ask .journal id)

/-- `_bind_allocated_ip_to_vm_best_effort`. -/
def bindAllocatedIpToVmBestEffort (req : CloudVMProvisionRequest) (lease : Option Lease) :
    Act Unit :=
  match lease.bind Lease.ipId with
  | none => Attempt.ret ()
  | some ipId => bestEffort (Attempt.ask (.bindIp ipId req.newVmid) id)

/-- `_run_proxmox_step_with_cloud_network_rollback`. -/
def runProxmoxStepWithCloudNetworkRollback {α : Type} (operation : Act α) (lease : Option Lease) :
    Act α :=
  operation.handle fun e =>
    if e.isException then
      (releaseCloudNetworkLease lease).bind fun _ => Attempt.throw .http
    else Attempt.throw e

structure CloudVMProvisionResponse where
  newVmid : ℤ
  cloneUpid : Option String
  configUpid : Option String
  resizeUpid : Option String
  startUpid : Option String
  status : String

def provisionStatus (startAfterProvision : Bool) : String :=
  if startAfterProvision then "started" else "stopped"

/-- The `finally` of `provision_vm` and of `provision_lxc`. -/
def closeSession : Act Unit :=
  Attempt.read fun locals =>
    if locals.opened then Attempt.ask .closeSession id else Attempt.ret ()

/-- The steps of `provision_vm` on an open session. -/
def provisionVmSteps (req : CloudVMProvisionRequest) (lease : Option Lease) :
    Act CloudVMProvisionResponse :=
  (runProxmoxStepWithCloudNetworkRollback (cloneTemplateVm cfg req) lease).bind fun cloneUpid =>
  (runProxmoxStepWithCloudNetworkRollback (configureCloudInitVm cfg req) lease).bind fun configUpid =>
  (runProxmoxStepWithCloudNetworkRollback (waitForTask cfg req.targetNode configUpid) lease).bind
    fun _ =>
  (runProxmoxStepWithCloudNetworkRollback (resizeVmDisk cfg req) lease).bind fun resizeUpid =>
  (runProxmoxStepWithCloudNetworkRollback (waitForTask cfg req.targetNode resizeUpid) lease).bind
    fun _ =>
  (runProxmoxStepWithCloudNetworkRollback (startVmAfterProvision cfg req) lease).bind fun startUpid =>
  (journalProvisionBestEffort cfg).bind fun _ =>
  (bindAllocatedIpToVmBestEffort req lease).bind fun _ =>
  Attempt.ret ⟨req.newVmid, cloneUpid, configUpid, resizeUpid, startUpid,
    provisionStatus req.startAfterProvision⟩

/-- `provision_vm`, once the gate is passed. -/
def provisionVm (req : CloudVMProvisionRequest) : Act CloudVMProvisionResponse :=
  (((prepareQemuCloudNetworkRequest cfg req).bind fun (req, lease) =>
    (Attempt.modify fun locals => { locals with lease }).bind fun _ =>
    (runProxmoxStepWithCloudNetworkRollback (Attempt.ask .openSession id) lease).bind fun _ =>
    (Attempt.modify fun locals => { locals with opened := true }).bind fun _ =>
    provisionVmSteps cfg req lease).handle fun e => Attempt.read fun locals =>
      if e.isException ∧ e ≠ .http then
        (releaseCloudNetworkLease locals.lease).bind fun _ => Attempt.throw e
      else Attempt.throw e).ensure closeSession

def emit (event : Event) : Act Unit := Attempt.ask (.emit event) id

/-- `_settle_lease_release`. -/
def settleLeaseRelease : Act Unit :=
  Attempt.read fun locals =>
    (if locals.lease.isSome && !locals.leaseSettled then releaseCloudNetworkLease locals.lease
      else Attempt.ret ()).bind fun _ => Attempt.modify fun locals => { locals with leaseSettled := true }

/-- The result of a phase that fails for an exception; the others pass through. -/
def phaseResult {α : Type} (p : Act α) : Act (Option α) :=
  (p.bind fun a => Attempt.ret (some a)).handle fun e =>
    if e.isException then Attempt.ret none else Attempt.throw e

/-- The events of a phase, around its operation: whether it has not failed. -/
def emitPhase (step : String) (operation : Act (Option String)) : Act Bool :=
  (emit .terminalLine).bind fun _ =>
  (emit (.provisionStep step "started")).bind fun _ =>
  (phaseResult operation).bind fun
    | none => (emit (.provisionStep step "error")).bind fun _ =>
      (emit (.complete false)).bind fun _ => Attempt.ret false
    | some _ => (emit .terminalLine).bind fun _ =>
      (emit (.provisionStep step "done")).bind fun _ => Attempt.ret true

def skipPhase (step : String) : Act Bool :=
  (emit (.provisionStep step "skipped")).bind fun _ => Attempt.ret true

/-- `_emit_clone_template_events`. -/
def emitCloneTemplateEvents (req : CloudVMProvisionRequest) : Act Bool :=
  emitPhase "clone_template" (cloneTemplateVm cfg req)

/-- `_emit_configure_cloud_init_events`. -/
def emitConfigureCloudInitEvents (req : CloudVMProvisionRequest) : Act Bool :=
  emitPhase "configure_cloud_init" (configureCloudInitVm cfg req)

/-- `_emit_resize_disk_events`. -/
def emitResizeDiskEvents (req : CloudVMProvisionRequest) : Act Bool :=
  if req.diskGb.isNone then skipPhase "resize_disk"
  else emitPhase "resize_disk" (resizeVmDisk cfg req)

/-- `_emit_start_vm_events`. -/
def emitStartVmEvents (req : CloudVMProvisionRequest) : Act Bool :=
  if req.startAfterProvision then emitPhase "start_vm" (startVmAfterProvision cfg req)
  else skipPhase "start_vm"

/-- The phases in turn: whether none has failed. -/
def emitPhases : List (Act Bool) → Act Bool
  | [] => Attempt.ret true
  | phase :: phases => phase.bind fun
    | true => emitPhases phases
    | false => Attempt.ret false

/-- The body of the generator on an open session. -/
def streamSteps (req : CloudVMProvisionRequest) (lease : Option Lease) : Act Unit :=
  (emit (.provisionStep "open_session" "done")).bind fun _ =>
  (emitPhases [emitCloneTemplateEvents cfg req, emitConfigureCloudInitEvents cfg req,
    emitResizeDiskEvents cfg req, emitStartVmEvents cfg req]).bind fun
    | false => settleLeaseRelease
    | true =>
      (emit .terminalLine).bind fun _ =>
      (journalProvisionBestEffort cfg).bind fun _ =>
      (bindAllocatedIpToVmBestEffort req lease).bind fun _ =>
      (Attempt.modify fun locals => { locals with leaseSettled := true }).bind fun _ =>
      emit (.complete true)

/-- The body of the generator. -/
def streamBody (req : CloudVMProvisionRequest) : Act Unit :=
  (prepareQemuCloudNetworkRequest cfg req).bind fun (req, lease) =>
  (Attempt.modify fun locals => { locals with lease }).bind fun _ =>
  (emit (.provisionStep "open_session" "started")).bind fun _ =>
  (phaseResult (Attempt.ask .openSession id)).bind fun
    | none => settleLeaseRelease.bind fun _ =>
      (emit (.provisionStep "open_session" "error")).bind fun _ => emit (.complete false)
    | some () => (Attempt.modify fun locals => { locals with opened := true }).bind fun _ =>
      streamSteps cfg req lease

/-- `_provision_stream_generator`. -/
def provisionStreamGenerator (req : CloudVMProvisionRequest) : Act Unit :=
  ((streamBody cfg req).handle fun e =>
    if e = .generatorExit then Attempt.throw e
    else settleLeaseRelease.bind fun _ => emit (.complete false)).ensure
      (settleLeaseRelease.bind fun _ => closeSession)

structure CloudLXCProvisionRequest where
  hostname : String
  ostemplate : String
  targetNode : String
  rootfsStorage : String
  rootfsSizeGb : ℤ
  memoryMb : Option ℤ
  cores : Option ℤ
  password : Option String
  startAfterProvision : Bool
  enforceCloudNetwork : Bool

/-- `_prepare_lxc_cloud_network`. -/
def prepareLxcCloudNetwork (req : CloudLXCProvisionRequest) :
    Act (Option (CloudNetworkConfig × AllocatedIPAddress) × Option Lease) :=
  if !req.enforceCloudNetwork then Attempt.ret (none, none)
  else (requireResolvedCloudNetwork cfg).bind fun network =>
    (Attempt.ask .netboxSession id).bind fun _ =>
    match network.prefixId with
    | none => Attempt.throw .http
    | some prefixId => (allocateIp cfg prefixId).bind fun allocated =>
      Attempt.ret (some (network, allocated), some ⟨allocated.id⟩)

/-- The VMID of an answer; `none` is one that cannot be parsed. -/
def parseVmid : Json → Option ℤ
  | .obj response => cfg.py.int (field "data" response)
  | .int n => cfg.py.int (.int n)
  | .bool b => cfg.py.int (.bool b)
  | .str s => cfg.py.int (.str s)
  | _ => none

def vmidResult : Except Exn Json → Except Exn ℤ
  | .error e => .error (if e.isException then .http else e)
  | .ok answer => match parseVmid cfg answer with
    | some vmid => .ok vmid
    | none => .error .http

/-- `_get_next_vmid`. -/
def getNextVmid : Act ℤ := Attempt.ask .nextid (vmidResult cfg)

/-- The `net0` of a container with an allocated address. -/
def lxcNet0 (network : CloudNetworkConfig) (allocated : AllocatedIPAddress) : String :=
  ",".intercalate (["name=eth0", "bridge=" ++ network.bridge] ++
    (network.vlanTag.map fun tag => "tag=" ++ toString tag).toList ++
    ["ip=" ++ allocated.cidr, "gw=" ++ network.gateway])

/-- `_build_lxc_create_params`. -/
def buildLxcCreateParams (req : CloudLXCProvisionRequest) (newVmid : ℤ)
    (network : Option (CloudNetworkConfig × AllocatedIPAddress)) : Json.Fields :=
  [("vmid", Json.int newVmid), ("hostname", Json.str req.hostname),
    ("ostemplate", Json.str req.ostemplate),
    ("rootfs", Json.str (req.rootfsStorage ++ ":" ++ toString req.rootfsSizeGb))] ++
    (req.memoryMb.map fun n => ("memory", Json.int n)).toList ++
    (req.cores.map fun n => ("cores", Json.int n)).toList ++
    (req.password.map fun s => ("password", Json.str s)).toList ++
    (network.map fun (network, allocated) => ("net0", Json.str (lxcNet0 network allocated))).toList

/-- `_create_lxc_container`. -/
def createLxcContainer (req : CloudLXCProvisionRequest) (params : Json.Fields) :
    Act (Option String) :=
  (Attempt.ask (.createLxc req.targetNode params) Write.result).bind fun answer =>
  let task := extractTaskId cfg answer
  (waitForTask cfg req.targetNode task).bind fun _ => Attempt.ret task

def startLxcResult : Except Exn Json → Except Exn (Option String)
  | .ok answer => .ok (extractTaskId cfg answer)
  | .error e => if e.isException then .ok none else .error e

/-- `_start_lxc_container`. -/
def startLxcContainer (req : CloudLXCProvisionRequest) (newVmid : ℤ) : Act (Option String) :=
  if req.startAfterProvision then
    Attempt.ask (.startLxc req.targetNode newVmid) (startLxcResult cfg)
  else Attempt.ret none

structure CloudLXCProvisionResponse where
  newVmid : ℤ
  createUpid : Option String
  startUpid : Option String
  status : String

/-- `_provision_lxc_on_proxmox`. -/
def provisionLxcOnProxmox (req : CloudLXCProvisionRequest)
    (network : Option (CloudNetworkConfig × AllocatedIPAddress)) : Act CloudLXCProvisionResponse :=
  (getNextVmid cfg).bind fun newVmid =>
  (createLxcContainer cfg req (buildLxcCreateParams req newVmid network)).bind fun createUpid =>
  (startLxcContainer cfg req newVmid).bind fun startUpid =>
  Attempt.ret ⟨newVmid, createUpid, startUpid, provisionStatus req.startAfterProvision⟩

/-- `provision_lxc`, once the gate is passed. -/
def provisionLxc (req : CloudLXCProvisionRequest) : Act CloudLXCProvisionResponse :=
  (((prepareLxcCloudNetwork cfg req).bind fun (network, lease) =>
    (Attempt.modify fun locals => { locals with lease }).bind fun _ =>
    (Attempt.ask .openSession id).bind fun _ =>
    (Attempt.modify fun locals => { locals with opened := true }).bind fun _ =>
    provisionLxcOnProxmox cfg req network).handle fun e => Attempt.read fun locals =>
      if e.isException then
        (releaseCloudNetworkLease locals.lease).bind fun _ => Attempt.throw .http
      else Attempt.throw e).ensure closeSession

end ProxboxApi.CloudProvision
