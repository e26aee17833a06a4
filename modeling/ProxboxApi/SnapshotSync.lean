import ProxboxApi.FirstMatch
import ProxboxApi.SnapshotCleanup

/-! The reconciliation and the cleanup of `create_virtual_machine_snapshots`, on a NetBox whose
requests succeed, from what the discovery of each VM has found. -/

namespace ProxboxApi.SnapshotSync

open FirstMatch (Table)
open SnapshotCleanup (VmType)

/-- A snapshot as Proxmox lists it: a missing name is empty, the time is a text. -/
structure Snapshot where
  name : String
  description : Option String
  snaptime : Option String
  parent : Option String

/-- What the sync has read of one NetBox VM, with the node and the storage that it resolved; it is
complete if every session has answered. -/
structure Scan where
  vm : ℕ
  vm_ne : vm ≠ 0
  vmid : ℤ
  node : String
  node_ne : node ≠ ""
  type : VmType
  storage : Option ℕ
  snapshots : List Snapshot
  complete : Bool

/-- The scans of the VMs of a run. -/
structure Scans where
  list : List Scan
  nodup : (list.map Scan.vm).Nodup

/-- `NetBoxSnapshotSyncState`. -/
structure SyncState where
  virtualMachine : ℕ
  proxmoxStorage : Option ℕ
  name : String
  description : Option String
  vmid : ℤ
  node : String
  snaptime : Option String
  parent : Option String
  subtype : Option String
  status : String

/-- A row of the snapshots in NetBox. -/
structure Row where
  id : ℕ
  virtualMachine : Option ℕ
  proxmoxStorage : Option ℕ
  name : String
  description : Option String
  vmid : Option ℤ
  node : Option String
  snaptime : Option String
  parent : Option String
  subtype : Option String
  status : String
  deriving DecidableEq

def subtypeOf : VmType → String
  | .qemu => "qemu"
  | .lxc => "lxc"

/-- `build_snapshot_payload`. -/
def buildSnapshotPayload (s : Scan) (snapshot : Snapshot) : SyncState where
  virtualMachine := s.vm
  proxmoxStorage := s.storage
  name := snapshot.name
  description := snapshot.description
  vmid := s.vmid
  node := s.node
  snaptime := snapshot.snaptime
  parent := snapshot.parent
  subtype := some (subtypeOf s.type)
  status := "active"

/-- The snapshots that `_collect_snapshot_payloads_for_vm` keeps. -/
def Scan.collected (s : Scan) : List Snapshot :=
  s.snapshots.filter fun snapshot => snapshot.name ≠ "" && snapshot.name ≠ "current"

def Scan.names (s : Scan) : List String := s.collected.map Snapshot.name

def Scans.payloads (scans : Scans) : List SyncState :=
  scans.list.flatMap fun s => s.collected.map (buildSnapshotPayload s)

/-- The current state of a row, of which the normalizer keeps the four fields of the lookup. -/
def Row.current (r : Row) : Option SyncState := do
  let virtualMachine ← r.virtualMachine
  let vmid ← r.vmid
  let node ← r.node
  some ⟨virtualMachine, none, r.name, none, vmid, node, none, none, none, "active"⟩

/-- A PATCH of a row; the fields of the lookup are the same. -/
structure Patch where
  proxmoxStorage : Option ℕ
  description : Option String
  snaptime : Option String
  parent : Option String
  subtype : Option String
  status : Option String
  deriving DecidableEq

def Patch.empty : Patch := ⟨none, none, none, none, none, none⟩

/-- A field of the patch: the desired value, if there is one and the current one differs. -/
def changed {α : Type} [DecidableEq α] (current desired : Option α) : Option α :=
  if desired = current then none else desired

def patchPayload (current desired : SyncState) : Patch where
  proxmoxStorage := changed current.proxmoxStorage desired.proxmoxStorage
  description := changed current.description desired.description
  snaptime := changed current.snaptime desired.snaptime
  parent := changed current.parent desired.parent
  subtype := changed current.subtype desired.subtype
  status := changed (some current.status) (some desired.status)

def Row.apply (r : Row) (p : Patch) : Row where
  id := r.id
  virtualMachine := r.virtualMachine
  proxmoxStorage := p.proxmoxStorage.or r.proxmoxStorage
  name := r.name
  description := p.description.or r.description
  vmid := r.vmid
  node := r.node
  snaptime := p.snaptime.or r.snaptime
  parent := p.parent.or r.parent
  subtype := p.subtype.or r.subtype
  status := p.status.getD r.status

/-- The row after its PATCH. -/
def SyncState.change (d : SyncState) (r : Row) : Row :=
  match r.current with
  | none => r
  | some current => r.apply (patchPayload current d)

/-- The row of a POST. -/
def SyncState.row (d : SyncState) (id : ℕ) : Row where
  id := id
  virtualMachine := some d.virtualMachine
  proxmoxStorage := d.proxmoxStorage
  name := d.name
  description := d.description
  vmid := some d.vmid
  node := some d.node
  snaptime := d.snaptime
  parent := d.parent
  subtype := d.subtype
  status := d.status

/-- The fields of the lookup. -/
abbrev Key := ℕ × ℤ × String × String

def SyncState.key (d : SyncState) : Key := (d.virtualMachine, d.vmid, d.name, d.node)

/-- The reconciliation by VM, vmid, name and node. -/
def spec : FirstMatch.Spec Row SyncState Key where
  id := Row.id
  rowKey r := r.current.map SyncState.key
  key := SyncState.key
  differs d r := r.current.any fun current => patchPayload current d ≠ .empty
  change := SyncState.change
  make id d := d.row id

/-- `proxmox_snapshot_names_by_vm_id`. -/
def Scans.namesByVmId (scans : Scans) (vm : ℕ) : Option (List String) :=
  (scans.list.reverse.find? fun s => s.complete && s.vm = vm).map Scan.names

/-- The rows that the cleanup deletes. -/
def Scans.orphans (scans : Scans) (rows : List Row) : List Row :=
  rows.filter fun r => r.name ≠ "" && r.id ≠ 0 && r.virtualMachine.any fun vm =>
    (scans.namesByVmId vm).any fun names => !names.contains r.name

def Scans.cleanup (scans : Scans) (t : Table Row) : Table Row :=
  { t with rows := t.rows.filter fun r => r.id ∉ (scans.orphans t.rows).map Row.id }

/-- `create_virtual_machine_snapshots` with `delete_nonexistent_snapshot`. -/
def createVirtualMachineSnapshots (scans : Scans) (t : Table Row) : Table Row :=
  scans.cleanup (spec.bulk t scans.payloads)

/-- What a run asks of NetBox. -/
structure Requests where
  created : List SyncState
  patched : List (SyncState × Row)
  deleted : List Row

def requests (scans : Scans) (t : Table Row) : Requests where
  created := spec.creations t.rows (spec.firstOfKeys [] scans.payloads)
  patched := spec.patches t.rows (spec.firstOfKeys [] scans.payloads)
  deleted := scans.orphans (spec.bulk t scans.payloads).rows

end ProxboxApi.SnapshotSync
