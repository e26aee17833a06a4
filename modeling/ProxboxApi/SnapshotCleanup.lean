import ProxboxApi.Outcomes
import ProxboxApi.Python
import Mathlib.Data.List.Basic
import Mathlib.Tactic.Common

/-! The snapshot sync of the NetBox VMs, and the rows that its cleanup deletes. -/

namespace ProxboxApi.SnapshotCleanup

inductive VmType where
  | qemu
  | lxc
  deriving DecidableEq, Repr

structure Guest where
  node : String
  type : VmType
  snapshots : List String

/-- How Proxmox answers a read: an error, something that is not a list, or the list. -/
inductive Reading where
  | failed
  | malformed
  | answered
  deriving DecidableEq, Repr

/-- A Proxmox cluster or standalone node, with at most one guest of a vmid; the run has a session of
it if it is connected. -/
structure Source where
  name : String
  endpointId : Option ℤ
  connected : Bool
  guests : ℤ → Option Guest
  reading : String → VmType → ℤ → Reading

/-- `get_vm_snapshots` with `raise_on_error`: the names, a missing name being empty. -/
def Source.getVmSnapshots (s : Source) (node : String) (type : VmType) (vmid : ℤ) :
    Option (List String) :=
  match s.reading node type vmid with
  | .failed => none
  | .malformed => some []
  | .answered => (s.guests vmid).bind fun guest =>
      if guest.node = node ∧ guest.type = type then some guest.snapshots else none

/-- What the sync reads of a NetBox VM. -/
structure Vm where
  id : ℤ
  vmid : Option String
  endpointId : Option ℤ
  node : Option String
  storedType : Option VmType
  typeField : Option VmType
  cluster : Option String

def Vm.type? (vm : Vm) : Option VmType := vm.storedType.or vm.typeField

/-- `_normalize_snapshot_vm_type`. -/
def Vm.type (vm : Vm) : VmType := vm.type?.getD .qemu

/-- A NetBox snapshot row. -/
structure Row where
  id : ℤ
  name : String
  virtualMachine : Option ℤ
  deriving DecidableEq, Repr

structure Resource where
  vmid : Option String
  node : String

/-- A cluster of the cluster status with the names of its nodes. -/
structure Status where
  name : String
  nodes : List String

inductive Selection where
  | all
  | vmids (vmids : List String)
  | netboxIds (ids : List ℤ)

structure Run where
  sources : List Source
  /-- The NetBox VMs, unless their list cannot be read. -/
  vms : Option (List Vm)
  ids_nodup : ∀ l ∈ vms, (l.map Vm.id).Nodup
  rows : Option (List Row)
  clusterStatus : List Status
  clusterResources : List (String × List Resource)
  selection : Selection
  node : Option String
  deleteNonexistentSnapshot : Bool

variable (py : Python)

def nonempty (s : String) : Option String := if s = "" then none else some s

/-- Cluster names are compared by `strip().casefold()`. -/
def clusterKey (name : String) : String := py.casefold (Text.strip name)

/-- `_snapshot_node_candidates_for_vmid`. -/
def nodeCandidates (resources : List (String × List Resource)) (vmid : String) :
    List (String × String) :=
  resources.flatMap fun (cluster, items) =>
    (items.filter fun r => r.vmid = some vmid).map fun r => (r.node, cluster)

/-- `_resolve_snapshot_node_from_resources`. -/
def resolveFromResources (vmid : String) (resources : List (String × List Resource))
    (clusterName : Option String) : Option String × Option String :=
  let candidates := nodeCandidates resources vmid
  if candidates.isEmpty then (none, none)
  else match clusterName with
    | some cluster =>
      match candidates.filter fun c => clusterKey py c.2 = clusterKey py cluster with
      | [(node, name)] => (nonempty node, nonempty name)
      | _ => (none, some cluster)
    | none =>
      match candidates with
      | [(node, name)] => (nonempty node, nonempty name)
      | _ => (none, none)

/-- `_resolve_snapshot_node_from_status`. -/
def resolveFromStatus (node : Option String) (status : List Status) (clusterName : Option String)
    (unique : Bool) : Option String × Option String :=
  if status.isEmpty then (node, if node.isSome then clusterName else none)
  else
    let statuses : List Status := match clusterName with
      | some cluster => status.filter fun s => clusterKey py s.name = clusterKey py cluster
      | none => status
    if statuses.isEmpty then (if unique then none else node, clusterName)
    else match node with
      | some name =>
        match statuses.filter fun s => s.nodes.contains name with
        | [s] => (some name, (nonempty s.name).or clusterName)
        | _ => (if unique then none else some name, clusterName)
      | none =>
        match (statuses.flatMap fun s =>
          (s.nodes.filter (· ≠ "")).map fun n => (n, s.name)).eraseDups with
        | [] => (none, clusterName)
        | [(n, name)] => (some n, nonempty name)
        | (n, name) :: _ => if unique then (none, clusterName) else (some n, nonempty name)

/-- `_resolve_snapshot_node_context`. -/
def resolveContext (vmid : String) (node clusterName : Option String) (status : List Status)
    (resources : List (String × List Resource)) (unique : Bool) : Option String × Option String :=
  let fromResources := resolveFromResources py vmid resources clusterName
  let cluster := fromResources.2.or clusterName
  match fromResources.1 with
  | some name => (some name, cluster)
  | none => resolveFromStatus py node status cluster unique

/-- `_snapshot_sessions_for_vm`. -/
def snapshotSessions (pxs : List Source) (endpointId : Option ℤ) (cluster : Option String)
    (node : String) (unique : Bool) : List Source :=
  match endpointId with
  | some e => pxs.filter fun px => px.endpointId = some e
  | none =>
    let matched := pxs.filter fun px =>
      px.name ≠ "" && (some px.name = cluster || px.name = node)
    if unique then if matched.length = 1 then matched else []
    else if matched.isEmpty then pxs else matched

namespace Run

variable (run : Run)

def explicitlySelected : Bool :=
  match run.selection with
  | .netboxIds _ => true
  | _ => false

/-- The VMs of the run, `none` where it ends before them. -/
def selectVms : Option (List Vm) :=
  run.vms.bind fun vms => match run.selection with
    | .all => some (vms.filter fun vm => vm.vmid.isSome)
    | .vmids vmids => some (vms.filter fun vm => vm.vmid.any vmids.contains)
    | .netboxIds ids =>
      let selected := vms.filter fun vm => ids.contains vm.id
      if ids.all (selected.map Vm.id).contains then some selected else none

/-- `node or extract_proxmox_node(vm_data)`, where an empty name counts as none. -/
def storedNode (vm : Vm) : Option String := (run.node.bind nonempty).or (vm.node.bind nonempty)

def context (vm : Vm) (vmid : String) : Option String × Option String :=
  resolveContext py vmid (run.storedNode vm) vm.cluster run.clusterStatus run.clusterResources
    run.explicitlySelected

def sessions (vm : Vm) (vmid node : String) : List Source :=
  snapshotSessions (run.sources.filter Source.connected) vm.endpointId (run.context py vm vmid).2
    node run.explicitlySelected

/-- `_collect_snapshot_payloads_for_vm`: the names, if every session answers. -/
def collect (vm : Vm) (vmid node : String) : Option (List String) :=
  let sessions := run.sessions py vm vmid node
  if sessions.isEmpty then none
  else do
    let id ← py.parseInt vmid
    let answers ← sessions.mapM fun s => s.getVmSnapshots node vm.type id
    some (answers.flatten.filter fun name => name ≠ "" && name ≠ "current")

/-- `_sync_single_vm_snapshots`: the names, if the discovery is complete. -/
def syncSingleVmSnapshots (vm : Vm) : Option (List String) := do
  let vmid ← vm.vmid
  let node ← (run.context py vm vmid).1
  run.collect py vm vmid node

/-- `proxmox_snapshot_names_by_vm_id`. -/
def namesByVmId (vms : List Vm) (id : ℤ) : Option (List String) :=
  ((vms.filterMap fun vm => (run.syncSingleVmSnapshots py vm).map fun names => (vm.id, names)).reverse
    |>.find? fun entry => entry.1 = id).map Prod.snd

/-- The rows that `create_virtual_machine_snapshots` asks NetBox to delete. -/
def deleted : List Row :=
  match run.selectVms, run.rows with
  | some vms, some rows =>
    if run.deleteNonexistentSnapshot then rows.filter fun row => row.id ≠ 0 && row.name ≠ "" &&
      (row.virtualMachine.filter (· ≠ 0)).any fun vm =>
        (run.namesByVmId py vms vm).any fun names => !names.contains row.name
    else []
  | _, _ => []

end Run

/-- The source of the VM: of its endpoint, or without an endpoint of its cluster. -/
def Source.Owns (s : Source) (vm : Vm) : Prop :=
  match vm.endpointId with
  | some e => s.endpointId = some e
  | none => ∃ cluster, vm.cluster = some cluster ∧ clusterKey py s.name = clusterKey py cluster

/-- A source has the guest that a VM is bound to, with a snapshot. -/
structure Source.Keeps (s : Source) (vm : Vm) (vmid : ℤ) (guest : Guest) (name : String) : Prop where
  owns : s.Owns py vm
  found : s.guests vmid = some guest
  type : ∀ t, vm.type? = some t → guest.type = t
  snapshot : name ∈ guest.snapshots
  real : name ≠ "current"

namespace Run

variable (run : Run)

/-- No row is deleted whose snapshot is kept by the guest that its VM is bound to. -/
def Safe : Prop :=
  ∀ row ∈ run.deleted py, ∀ vms ∈ run.vms, ∀ vm ∈ vms, row.virtualMachine = some vm.id →
    ∀ vmid, vm.vmid.bind py.parseInt = some vmid →
      ¬∃ s ∈ run.sources, ∃ guest, s.Keeps py vm vmid guest row.name

/-- The sessions selected for a VM, all of which answer. -/
structure Asked (vm : Vm) (node : String) (vmid : ℤ) (sessions : List Source) : Prop where
  parsed : vm.vmid.bind py.parseInt = some vmid
  selected : ∃ text, vm.vmid = some text ∧ (run.context py vm text).1 = some node ∧
    sessions = run.sessions py vm text node
  nonempty : sessions ≠ []
  answer : ∀ s ∈ sessions, (s.getVmSnapshots node vm.type vmid).isSome = true

/-- Where all sessions selected for a VM answer, a source that keeps the snapshot of a row is one of
them and answers with a list, or one of them lists a snapshot of that name. -/
def OwnersAsked : Prop :=
  run.deleteNonexistentSnapshot = true → ∀ vms ∈ run.selectVms, ∀ rows ∈ run.rows,
    ∀ vm ∈ vms, ∀ row ∈ rows, row.id ≠ 0 → row.name ≠ "" → row.virtualMachine = some vm.id →
      vm.id ≠ 0 → ∀ node vmid sessions, run.Asked py vm node vmid sessions →
        ∀ s ∈ run.sources, ∀ guest, s.Keeps py vm vmid guest row.name →
          s ∈ sessions ∧ s.reading node vm.type vmid = .answered ∨
            ∃ px ∈ sessions, ∃ names ∈ px.getVmSnapshots node vm.type vmid, row.name ∈ names

variable {py run}

/-- The discovery of a VM is complete if and only if all selected sessions answer; it finds what they
list. -/
theorem syncSingleVmSnapshots_iff {vm : Vm} {names : List String} :
    run.syncSingleVmSnapshots py vm = some names ↔ ∃ node vmid sessions answers,
      run.Asked py vm node vmid sessions ∧
      sessions.mapM (fun s => s.getVmSnapshots node vm.type vmid) = some answers ∧
      answers.flatten.filter (fun name => name ≠ "" && name ≠ "current") = names := by
  constructor
  · intro h
    obtain ⟨text, htext, h⟩ := Option.bind_eq_some_iff.mp h
    obtain ⟨node, hnode, h⟩ := Option.bind_eq_some_iff.mp h
    simp only [collect] at h
    split at h
    · cases h
    · rename_i hsome
      obtain ⟨vmid, hvmid, h⟩ := Option.bind_eq_some_iff.mp h
      obtain ⟨answers, hanswers, h⟩ := Option.bind_eq_some_iff.mp h
      have hparsed : vm.vmid.bind py.parseInt = some vmid := by
        rw [htext]
        exact hvmid
      exact ⟨node, vmid, _, answers, ⟨hparsed, ⟨text, htext, hnode, rfl⟩, by simpa using hsome,
        Outcomes.isSome_of_mapM hanswers⟩, hanswers, Option.some.inj h⟩
  · rintro ⟨node, vmid, _, answers, ⟨hparsed, ⟨text, htext, hnode, rfl⟩, hsome, _⟩, hanswers, rfl⟩
    have hvmid : py.parseInt text = some vmid := by
      rw [htext] at hparsed
      exact hparsed
    have hempty : (run.sessions py vm text node).isEmpty = false := by simpa using hsome
    unfold syncSingleVmSnapshots
    rw [htext, Option.bind_eq_bind, Option.bind_some, hnode, Option.bind_some]
    simp only [collect, hempty, Bool.false_eq_true, if_false, hvmid, hanswers, Option.bind_eq_bind,
      Option.bind_some]

/-- The names known for a NetBox id are those of the VM that bears it. -/
theorem namesByVmId_iff {vms : List Vm} (hnodup : (vms.map Vm.id).Nodup) {id : ℤ}
    {names : List String} : run.namesByVmId py vms id = some names ↔
      ∃ vm ∈ vms, vm.id = id ∧ run.syncSingleVmSnapshots py vm = some names := by
  have hmem : ∀ entry, entry ∈ vms.filterMap (fun vm =>
      (run.syncSingleVmSnapshots py vm).map fun names => (vm.id, names)) ↔
        ∃ vm ∈ vms, vm.id = entry.1 ∧ run.syncSingleVmSnapshots py vm = some entry.2 := by
    rintro ⟨id, names⟩
    simp only [List.mem_filterMap, Option.map_eq_some_iff, Prod.mk.injEq]
    constructor
    · rintro ⟨vm, hvm, names', hnames, rfl, rfl⟩
      exact ⟨vm, hvm, rfl, hnames⟩
    · rintro ⟨vm, hvm, rfl, hnames⟩
      exact ⟨vm, hvm, names, hnames, rfl, rfl⟩
  unfold namesByVmId
  rw [Option.map_eq_some_iff]
  constructor
  · rintro ⟨entry, hfind, rfl⟩
    obtain ⟨vm, hvm, hid, hnames⟩ :=
      (hmem entry).mp (List.mem_reverse.mp (List.mem_of_find?_eq_some hfind))
    exact ⟨vm, hvm, hid.trans (by simpa using List.find?_some hfind), hnames⟩
  · rintro ⟨vm, hvm, rfl, hnames⟩
    have hin := List.mem_reverse.mpr ((hmem (vm.id, names)).mpr ⟨vm, hvm, rfl, hnames⟩)
    have hfound : ((vms.filterMap fun vm => (run.syncSingleVmSnapshots py vm).map fun names =>
        (vm.id, names)).reverse.find? fun entry => entry.1 = vm.id).isSome = true :=
      List.find?_isSome.mpr ⟨_, hin, by simp⟩
    obtain ⟨entry, hfind⟩ := Option.isSome_iff_exists.mp hfound
    obtain ⟨vm', hvm', hid, hnames'⟩ :=
      (hmem entry).mp (List.mem_reverse.mp (List.mem_of_find?_eq_some hfind))
    have heq : vm' = vm := List.inj_on_of_nodup_map hnodup hvm' hvm
      (hid.trans (by simpa using List.find?_some hfind))
    rw [heq, hnames, Option.some.injEq] at hnames'
    exact ⟨entry, hfind, hnames'.symm⟩

theorem selectVms_nodup {vms : List Vm} (h : run.selectVms = some vms) :
    (vms.map Vm.id).Nodup ∧ ∃ all, run.vms = some all ∧ ∀ vm ∈ vms, vm ∈ all := by
  obtain ⟨all, hall, h⟩ := Option.bind_eq_some_iff.mp h
  have hfilter : ∀ p : Vm → Bool, all.filter p = vms →
      (vms.map Vm.id).Nodup ∧ ∃ all, run.vms = some all ∧ ∀ vm ∈ vms, vm ∈ all := by
    rintro p rfl
    exact ⟨(run.ids_nodup all hall).sublist (List.filter_sublist.map _), all, hall,
      fun vm hvm => (List.mem_filter.mp hvm).1⟩
  cases hselection : run.selection with
  | all =>
    rw [hselection] at h
    exact hfilter _ (Option.some.inj h)
  | vmids vmids =>
    rw [hselection] at h
    exact hfilter _ (Option.some.inj h)
  | netboxIds ids =>
    rw [hselection] at h
    simp only at h
    split at h
    · exact hfilter _ (Option.some.inj h)
    · cases h

/-- A row is deleted where the discovery of its VM is complete and does not find its name. -/
theorem mem_deleted_iff {row : Row} : row ∈ run.deleted py ↔
    run.deleteNonexistentSnapshot = true ∧ ∃ vms rows, run.selectVms = some vms ∧
      run.rows = some rows ∧ row ∈ rows ∧ row.id ≠ 0 ∧ row.name ≠ "" ∧ ∃ vm ∈ vms, vm.id ≠ 0 ∧
        row.virtualMachine = some vm.id ∧ ∃ names, run.syncSingleVmSnapshots py vm = some names ∧
          row.name ∉ names := by
  unfold deleted
  cases hvms : run.selectVms with
  | none => simp
  | some vms =>
    cases hrows : run.rows with
    | none => simp
    | some rows =>
      have hnodup := (selectVms_nodup hvms).1
      cases hdelete : run.deleteNonexistentSnapshot with
      | false => simp
      | true =>
        simp only [if_true, List.mem_filter, Bool.and_eq_true, decide_eq_true_eq, Option.any_eq_true,
          Option.filter_eq_some_iff, true_and, Option.some.injEq, and_assoc]
        constructor
        · rintro ⟨hrow, hid, hname, vmId, hvm, hne, names, hnames, hout⟩
          obtain ⟨vm, hin, rfl, hsync⟩ := (namesByVmId_iff hnodup).mp hnames
          exact ⟨vms, rows, rfl, rfl, hrow, hid, hname, vm, hin, hne, hvm, names, hsync,
            by simpa using hout⟩
        · rintro ⟨_, _, rfl, rfl, hrow, hid, hname, vm, hvm, hne, hvmId, names, hsync, hout⟩
          exact ⟨hrow, hid, hname, vm.id, hvmId, hne, names,
            (namesByVmId_iff hnodup).mpr ⟨vm, hvm, rfl, hsync⟩, by simpa using hout⟩

/-- A source that answers with a list, and has the guest, lists its snapshots. -/
theorem listed_of_answered {s : Source} {node : String} {type : VmType} {vmid : ℤ} {guest : Guest}
    (hguest : s.guests vmid = some guest) (hreading : s.reading node type vmid = .answered)
    (hanswer : (s.getVmSnapshots node type vmid).isSome = true) :
    s.getVmSnapshots node type vmid = some guest.snapshots := by
  have hread : s.getVmSnapshots node type vmid =
      if guest.node = node ∧ guest.type = type then some guest.snapshots else none := by
    rw [Source.getVmSnapshots, hreading, hguest]
    rfl
  rw [hread] at hanswer ⊢
  split at hanswer
  · rename_i hplace
    rw [if_pos hplace]
  · cases hanswer

/-- What the sessions list is found, but for the pseudo-snapshot and what has no name. -/
theorem mem_names_iff {sessions : List Source} {node : String} {type : VmType} {vmid : ℤ}
    {answers : List (List String)} {name : String}
    (hanswers : sessions.mapM (fun s => s.getVmSnapshots node type vmid) = some answers)
    (hname : name ≠ "") (hreal : name ≠ "current") :
    name ∈ answers.flatten.filter (fun name => name ≠ "" && name ≠ "current") ↔
      ∃ px ∈ sessions, ∃ names ∈ px.getVmSnapshots node type vmid, name ∈ names := by
  rw [List.mem_filter, List.mem_flatten]
  constructor
  · rintro ⟨⟨names, hnames, hin⟩, _⟩
    obtain ⟨px, hpx, hread⟩ := (Outcomes.mem_mapM_iff hanswers).mp hnames
    exact ⟨px, hpx, names, hread, hin⟩
  · rintro ⟨px, hpx, names, hread, hin⟩
    exact ⟨⟨names, (Outcomes.mem_mapM_iff hanswers).mpr ⟨px, hpx, hread⟩, hin⟩, by simp [hname, hreal]⟩

/-- The cleanup is safe if and only if the owners of the VMs are asked. -/
theorem snapshotCleanup_safe_iff (py : Python) (run : Run) : run.Safe py ↔ run.OwnersAsked py := by
  constructor
  · intro hsafe hdelete vms hvms rows hrows vm hvm row hrow hid hname hvmId hne node vmid sessions
      hasked s hs guest hkeeps
    obtain ⟨answers, hanswers⟩ := Option.isSome_iff_exists.mp (Outcomes.mapM_isSome hasked.answer)
    refine .inr ?_
    rw [← mem_names_iff hanswers hname hkeeps.real]
    by_contra hout
    have hsync := syncSingleVmSnapshots_iff.mpr ⟨node, vmid, sessions, answers, hasked, hanswers, rfl⟩
    have hdeleted : row ∈ run.deleted py := mem_deleted_iff.mpr ⟨hdelete, vms, rows, hvms, hrows, hrow,
      hid, hname, vm, hvm, hne, hvmId, _, hsync, hout⟩
    obtain ⟨all, hall, hsub⟩ := (selectVms_nodup hvms).2
    exact hsafe row hdeleted all hall vm (hsub vm hvm) hvmId vmid hasked.parsed
      ⟨s, hs, guest, hkeeps⟩
  · rintro hasked row hdeleted all hall vm hvm hvmId vmid hparsed ⟨s, hs, guest, hkeeps⟩
    obtain ⟨hdelete, vms, rows, hvms, hrows, hrow, hid, hname, vm', hvm', hne, hvmId', names, hsync,
      hout⟩ := mem_deleted_iff.mp hdeleted
    have heq : vm' = vm := by
      obtain ⟨all', hall', hsub⟩ := (selectVms_nodup hvms).2
      rw [hall, Option.some.injEq] at hall'
      subst hall'
      exact List.inj_on_of_nodup_map (run.ids_nodup all hall) (hsub vm' hvm') hvm
        (Option.some.inj (hvmId'.symm.trans hvmId))
    subst heq
    obtain ⟨node, vmid', sessions, answers, hasked', hanswers, rfl⟩ :=
      syncSingleVmSnapshots_iff.mp hsync
    obtain rfl : vmid' = vmid := Option.some.inj (hasked'.parsed.symm.trans hparsed)
    refine hout ((mem_names_iff hanswers hname hkeeps.real).mpr ?_)
    rcases hasked hdelete vms hvms rows hrows vm' hvm' row hrow hid hname hvmId hne node vmid'
      sessions hasked' s hs guest hkeeps with ⟨hin, hreading⟩ | hlisted
    · exact ⟨s, hin, _, listed_of_answered hkeeps.found hreading (hasked'.answer s hin),
        hkeeps.snapshot⟩
    · exact hlisted

end Run

/-- The VM of the cluster `lab`, which has no session in the run, while the session of a standalone
node is called like the VM's node. -/
def namesake : Run where
  sources :=
    [⟨"lab", none, false, fun _ => some ⟨"pve1", .qemu, ["before-upgrade"]⟩, fun _ _ _ => .answered⟩,
      ⟨"pve1", some 2, true, fun _ => some ⟨"pve1", .qemu, []⟩, fun _ _ _ => .answered⟩]
  vms := some [⟨7, some "100", none, some "pve1", some .qemu, none, some "lab"⟩]
  ids_nodup := by simp
  rows := some [⟨31, "before-upgrade", some 7⟩]
  clusterStatus := [⟨"pve1", ["pve1"]⟩]
  clusterResources := [("pve1", [⟨some "100", "pve1"⟩])]
  selection := .all
  node := none
  deleteNonexistentSnapshot := true

/-- A guest of another cluster with the same vmid and node name costs the VM its snapshot rows. -/
theorem namesake_deleted : ¬∀ (py : Python) (run : Run), run.Safe py := by
  intro h
  have hdeleted : ⟨31, "before-upgrade", some 7⟩ ∈ namesake.deleted Python.ascii := by
    decide +kernel
  refine h Python.ascii namesake _ hdeleted _ rfl _ (List.mem_singleton.mpr rfl) rfl 100
    (by decide +kernel) ⟨_, List.mem_cons_self .., ⟨"pve1", .qemu, ["before-upgrade"]⟩, ?_⟩
  exact ⟨⟨"lab", rfl, rfl⟩, rfl, fun t ht => Option.some.inj ht, List.mem_singleton.mpr rfl,
    by decide⟩

end ProxboxApi.SnapshotCleanup
