import Mathlib
import ProxboxApi.TaskArchive

/-! The task histories of all NetBox VMs: the archive rows are attributed to the VMs and built into
one payload for each UPID. -/

namespace ProxboxApi.TaskHistory

inductive VmType
  | qemu | lxc
  deriving DecidableEq, Repr

def VmType.text : VmType → String
  | .qemu => "qemu"
  | .lxc => "lxc"

/-- `vm_type if vm_type in {"qemu", "lxc"} else "qemu"`. -/
def VmType.ofText (text : String) : VmType := if text = "lxc" then .lxc else .qemu

/-- `_VMTarget`. -/
structure Target where
  netboxId : ℤ
  endpointId : Option ℤ
  clusterName : String
  vmid : ℤ
  vmType : VmType
  deriving DecidableEq, Repr

structure ClusterStatus where
  name : String
  nodes : List String

/-- `_ArchiveNode`. -/
structure ArchiveNode where
  session : ℕ
  endpointId : Option ℤ
  clusterName : String
  nodeName : String
  deriving DecidableEq, Repr

/-- The source behind a node: its endpoint, or its session where there is none. -/
inductive Scope
  | endpoint (id : ℤ) | session (id : ℕ)
  deriving DecidableEq, Repr

def ArchiveNode.scope (node : ArchiveNode) : Scope :=
  match node.endpointId with
  | some endpointId => .endpoint endpointId
  | none => .session node.session

/-- Sessions are given by their identity; each is zipped with its cluster status. -/
structure Run where
  targets : List Target
  targets_nodup : (targets.map Target.netboxId).Nodup
  targets_named : ∀ t ∈ targets, t.clusterName ≠ ""
  pairs : List (ℕ × ClusterStatus)
  endpointOf : ℕ → Option ℤ
  archive : ℕ → String → Archive

variable (py : Python) (epochIso : ℤ → Option String) (capitalize : String → String)

/-- `normalize_positive_int(task.get("id") or task.get("vmid"))`. -/
def taskVmid (row : Row) : Option ℤ :=
  ((normalizeText ((row.id.filter (· ≠ "")).or row.vmid)).bind py.parseInt).filter (0 < ·)

def taskVerbs : List (String × String) :=
  [("start", "Start"), ("shutdown", "Shutdown"), ("reboot", "Reboot"), ("stop", "Stop"),
    ("pause", "Pause"), ("resume", "Resume"), ("suspend", "Suspend"), ("delete", "Delete"),
    ("create", "Create"), ("clone", "Clone"), ("move", "Move"), ("backup", "Backup"),
    ("restore", "Restore"), ("snapshot", "Snapshot"), ("rollback", "Rollback"),
    ("migrate", "Migrate"), ("convert", "Convert")]

/-- `_humanize_task_type`. -/
def humanizeTaskType (taskType : String) : String :=
  match taskVerbs.find? fun verb => verb.1.toList <:+: (py.lower taskType).toList with
  | some verb => verb.2
  | none => capitalize taskType

/-- `_format_task_description`. -/
def formatTaskDescription (vmType : VmType) (taskId : Option String) (taskType : String) :
    String :=
  let vmDisplay := match vmType with
    | .qemu => "QEMU"
    | .lxc => "CT"
  let action := humanizeTaskType py capitalize taskType
  match taskId with
  | some id => vmDisplay ++ " " ++ id ++ " - " ++ action
  | none => vmDisplay ++ " - " ++ action

/-- The fields of a payload that come from the row; without a start time it has that of the run. -/
structure Payload where
  virtualMachine : ℤ
  vmType : VmType
  upid : String
  node : String
  pid : Option ℤ
  pstart : Option ℤ
  taskId : Option String
  taskType : String
  username : String
  startTime : Option String
  endTime : Option String
  description : String
  status : String
  taskState : String
  exitstatus : String
  deriving DecidableEq, Repr

/-- `_build_task_payload`, with the row as its own status. -/
def buildTaskPayload (virtualMachine : ℤ) (vmType : VmType) (row : Row) : Payload :=
  let taskId := normalizeText ((row.id.filter (· ≠ "")).or row.vmid)
  let taskType := (normalizeText row.type).getD "unknown"
  let finalStatus := ((normalizeText row.exitstatus).or (normalizeText row.status)).getD "unknown"
  { virtualMachine := virtualMachine
    vmType := vmType
    upid := row.key.getD ""
    node := (normalizeText row.node).getD ""
    pid := row.pid
    pstart := row.pstart
    taskId := taskId
    taskType := taskType
    username := (normalizeText row.user).getD "root@pam"
    startTime := row.starttime.bind epochIso
    endTime := row.endtime.bind epochIso
    description := formatTaskDescription py capitalize vmType taskId taskType
    status := finalStatus
    taskState := "stopped"
    exitstatus := finalStatus }

namespace Run

variable (run : Run)

/-- The scopes of a session that the targets ask for: its own, and that of its cluster name. -/
def matchedScopes (endpointId : Option ℤ) (clusterName : String) : List (Option ℤ × String) :=
  [(endpointId, clusterName), (none, clusterName)].filter fun scope =>
    run.targets.any fun t => (t.endpointId, t.clusterName) = scope

/-- `_selected_archive_nodes`. -/
def archiveNodes : List ArchiveNode :=
  (run.pairs.flatMap fun (session, status) =>
    if (run.matchedScopes (run.endpointOf session) status.name).isEmpty then []
    else status.nodes.map fun node =>
      ⟨session, run.endpointOf session, status.name, node⟩).eraseDups

/-- The scopes of targets that no node covers. -/
def missingScopes : List (Option ℤ × String) :=
  let covered := run.pairs.flatMap fun (session, status) =>
    if status.nodes.isEmpty then [] else run.matchedScopes (run.endpointOf session) status.name
  (run.targets.map fun t => (t.endpointId, t.clusterName)).eraseDups.filter (· ∉ covered)

/-- The archive of a node, as the run reads it. -/
def archiveResult (node : ArchiveNode) : ArchiveResult :=
  fetchNodeArchive node.nodeName (run.archive node.session node.nodeName)

def tasks (node : ArchiveNode) : List Row := (run.archiveResult node).tasks

def exact (endpointId : ℤ) (clusterName : String) (vmid : ℤ) : List Target :=
  run.targets.filter fun t =>
    t.endpointId = some endpointId ∧ t.clusterName = clusterName ∧ t.vmid = vmid

def legacy (clusterName : String) (vmid : ℤ) : List Target :=
  run.targets.filter fun t => t.endpointId = none ∧ t.clusterName = clusterName ∧ t.vmid = vmid

def isMixedIdentityCollision (clusterName : String) (vmid : ℤ) : Bool :=
  (run.targets.any fun t => t.endpointId ≠ none ∧ t.clusterName = clusterName ∧ t.vmid = vmid) &&
    !(run.legacy clusterName vmid).isEmpty

def sourceScopes (clusterName : String) : List Scope :=
  ((run.archiveNodes.filter (·.clusterName = clusterName)).map ArchiveNode.scope).eraseDups

def isLegacySafeCluster (clusterName : String) : Bool := (run.sourceScopes clusterName).length = 1

/-- What becomes of a row: it is a target's, it is skipped, or it is skipped with an error. -/
inductive Attribution
  | owned (t : Target) | skipped | ambiguous
  deriving DecidableEq, Repr

/-- The row is its only candidate's. -/
def ofCandidates : List Target → Attribution
  | [] => .skipped
  | [t] => .owned t
  | _ => .ambiguous

/-- The targets with the endpoint of the node. -/
def exactCandidates (node : ArchiveNode) (vmid : ℤ) : List Target :=
  match node.endpointId with
  | some endpointId => run.exact endpointId node.clusterName vmid
  | none => []

/-- The attribution of a row with a Proxmox id and a UPID. -/
def attributeTo (node : ArchiveNode) (vmid : ℤ) : Attribution :=
  if run.isMixedIdentityCollision node.clusterName vmid then .ambiguous
  else if (run.exactCandidates node vmid).isEmpty then
    let legacyCandidates := run.legacy node.clusterName vmid
    if legacyCandidates.isEmpty then .skipped
    else if run.isLegacySafeCluster node.clusterName then ofCandidates legacyCandidates
    else .ambiguous
  else ofCandidates (run.exactCandidates node vmid)

def attributionOf (node : ArchiveNode) (row : Row) : Attribution :=
  match taskVmid py row, row.key with
  | some vmid, some _ => run.attributeTo node vmid
  | _, _ => .skipped

def attributions : List (Attribution × Row) :=
  run.archiveNodes.flatMap fun node =>
    (run.tasks node).map fun row => (run.attributionOf py node row, row)

def observation : Attribution × Row → Option (Target × Row)
  | (.owned t, row) => some (t, row)
  | _ => none

def observations : List (Target × Row) := (run.attributions py).filterMap observation

def observationsOf (upid : String) : List (Target × Row) :=
  (run.observations py).filter (·.2.key = some upid)

def upids : List String := ((run.observations py).filterMap (·.2.key)).eraseDups

def owners (upid : String) : List ℤ :=
  ((run.observationsOf py upid).map (·.1.netboxId)).eraseDups

/-- When a task ended and when it started, compared in this order. -/
structure Times where
  finish : ℤ
  start : ℤ
  deriving DecidableEq, Repr

instance : LinearOrder Times :=
  @LinearOrder.lift' Times (ℤ ×ₗ ℤ)
    (@Prod.Lex.instLinearOrder ℤ ℤ Int.instLinearOrder Int.instLinearOrder)
    (fun t => toLex (t.finish, t.start)) (by
      rintro ⟨finish, start⟩ ⟨finish', start'⟩ h
      simpa using h)

/-- `normalize_positive_int(...) or 0` of the end and of the start. -/
def times (row : Row) : Times := ⟨max (row.endtime.getD 0) 0, max (row.starttime.getD 0) 0⟩

/-- The payload of a UPID with one owner, from the latest of its rows. -/
def payloadOf (upid : String) : Option Payload :=
  if (run.owners py upid).length = 1 then
    ((run.observationsOf py upid).argmax fun observation => times observation.2).map
      fun (t, row) => buildTaskPayload py epochIso capitalize t.netboxId t.vmType row
  else none

def payloads : List Payload := (run.upids py).filterMap (run.payloadOf py epochIso capitalize)

/-- What a run reports, and the payloads it reconciles. -/
structure Report where
  count : ℕ
  skipped : ℕ
  errors : ℕ
  payloads : List Payload

/-- `sync_all_virtual_machine_task_histories` of the resolved targets; `none` is an exception. -/
def syncAllVirtualMachineTaskHistories : Option Report :=
  let results := run.archiveNodes.map run.archiveResult
  let contested := (run.upids py).countP fun upid => (run.owners py upid).length ≠ 1
  if run.targets.isEmpty then some ⟨0, 0, 0, []⟩
  else if results.all (!·.successfulRequest) then none
  else some
    { count := run.targets.length
      skipped := (run.attributions py).countP (fun a => observation a = none) + contested
      errors := run.missingScopes.length + (results.map ArchiveResult.errors).sum +
        (run.attributions py).countP (·.1 = .ambiguous) + contested
      payloads := run.payloads py epochIso capitalize }

/-- The payloads that a run writes. -/
def written : List Payload :=
  match run.syncAllVirtualMachineTaskHistories py epochIso capitalize with
  | some report => report.payloads
  | none => []

/-- `_find_cluster_sources`. -/
def findClusterSources (clusterName : Option String) (endpointId : Option ℤ) : List ArchiveNode :=
  let named := run.pairs.filter fun pair =>
    clusterName.getD "" = "" ∨ clusterName = some pair.2.name
  let found : List (ℕ × ClusterStatus) := match endpointId with
    | some _ => named.filter fun pair => run.endpointOf pair.1 = endpointId
    | none => if named.length = 1 then named else []
  found.flatMap fun (session, status) => status.nodes.map fun node =>
    ⟨session, run.endpointOf session, status.name, node⟩

/-- The archive of a node as Proxmox filters it by a guest. -/
def guestArchive (vmid : ℤ) (node : ArchiveNode) : Archive :=
  let archive := run.archive node.session node.nodeName
  { archive with rows := archive.rows.filter fun row => taskVmid py row = some vmid }

def guestResult (vmid : ℤ) (node : ArchiveNode) : ArchiveResult :=
  fetchNodeArchive node.nodeName (run.guestArchive py vmid node)

/-- `tasks_by_upid.setdefault(upid, task)`. -/
def setDefault (tasksByUpid : List Row) (task : Row) : List Row :=
  match task.key with
  | none => tasksByUpid
  | some upid => if isSeen tasksByUpid upid then tasksByUpid else tasksByUpid ++ [task]

/-- The rows that `sync_virtual_machine_task_history` reads off its sources, those of the guest. -/
def guestTasks (vmid : ℤ) (sources : List ArchiveNode) : List Row :=
  (sources.flatMap fun source => (run.guestResult py vmid source).tasks).filter
    fun task => taskVmid py task = some vmid

/-- `sync_virtual_machine_task_history`: the payloads it reconciles. -/
def syncVirtualMachineTaskHistory (virtualMachineId vmid : ℤ) (vmType : String)
    (clusterName : Option String) (endpointId : Option ℤ) : List Payload :=
  let tasksByUpid := (run.guestTasks py vmid (run.findClusterSources clusterName endpointId)).foldl
    setDefault []
  tasksByUpid.map (buildTaskPayload py epochIso capitalize virtualMachineId (.ofText vmType))

/-- The targeted run of a target. -/
def targeted (t : Target) : List Payload :=
  run.syncVirtualMachineTaskHistory py epochIso capitalize t.netboxId t.vmid t.vmType.text
    (some t.clusterName) t.endpointId

end Run
end ProxboxApi.TaskHistory
