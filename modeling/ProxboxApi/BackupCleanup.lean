import ProxboxApi.BackupVmCache
import ProxboxApi.Outcomes
import Mathlib.Data.List.Infix
import Mathlib.Data.List.ReduceOption

/-! The backup sync of all NetBox VMs: what it discovers, and the rows that its cleanup deletes. -/

namespace ProxboxApi.Backups

/-- A volume of a storage; `builds` is whether its payload is built without an exception. -/
structure Backup where
  content : String
  vmid : Option ℤ
  volid : String
  builds : Bool
  deriving DecidableEq

/-- A storage with its content types, its node restriction, and its listing on each node. -/
structure Storage where
  name : String
  content : List String
  nodes : Option (List String)
  fails : String → Bool
  backups : String → List Backup

/-- A session with its cluster status. -/
structure Source where
  endpointId : Option ℤ
  cluster : Option String
  nodes : List String
  storages : List Storage
  storagesFail : Bool

structure Row where
  id : Option ℤ
  virtualMachine : Option ℤ
  volumeId : String
  deriving DecidableEq

/-- The lists of Proxmox are comma-separated texts. -/
def commaText (words : List String) : List Char :=
  [','].intercalate (words.map String.toList)

/-- The code looks for a part of such a text. -/
def mentions (words : List String) (word : String) : Bool := word.toList <:+: commaText words

def Storage.holdsBackups (storage : Storage) : Bool := mentions storage.content "backup"

def Storage.allows (storage : Storage) (node : String) : Bool :=
  match storage.nodes with
  | none => true
  | some nodes => commaText nodes = "all".toList || mentions nodes node

structure Run where
  sources : List Source
  /-- The NetBox VMs, unless they cannot be read. -/
  vms : Option (List Vm)
  ids_nodup : ∀ l ∈ vms, (l.map Vm.id).Nodup
  rows : Option (List Row)
  netboxVmIds : Option (List ℤ)
  vmidFilter : Option (List String)
  reconcileRaises : Bool
  deleteNonexistentBackup : Bool

def Source.isOwner (source : Source) (scope : Scope) : Bool :=
  source.endpointId = some scope.endpointId && source.cluster = some scope.cluster

namespace Run

variable (run : Run)

def records : Records := cacheOf (run.vms.getD [])

/-- The scopes of `_prefetch_vm_cache` and the checks of an explicit selection; `none` where the run
ends. -/
def scopes : Option (List Scope) :=
  run.vms.bind fun vms =>
    let scopes := vms.filterMap scopeOf
    match run.netboxVmIds with
    | none => some scopes
    | some ids =>
      let resolved := ids.all fun id => (vms.map Vm.id).contains id
      let valid := ids.all fun id => (scopes.map Scope.netboxVmId).contains id
      let available := scopes.all fun scope => run.sources.any fun s => s.isOwner scope
      if resolved && valid && (scopes.map Scope.key).Nodup && !scopes.isEmpty && available then
        some scopes
      else none

/-- The sources that the discovery asks. -/
def asked (scopes : List Scope) : List Source :=
  if run.netboxVmIds.isSome then run.sources.filter fun s => scopes.any s.isOwner else run.sources

def effectiveVmids (scopes : List Scope) (source : Source) : Option (List String) :=
  if run.netboxVmIds.isSome then
    some ((scopes.filter source.isOwner).map fun scope => toString scope.vmid)
  else run.vmidFilter

end Run

def vmidText (vmid : Option ℤ) : String := vmid.elim "" toString

/-- The pairs of a node and a storage that are asked. -/
def Source.calls (source : Source) (vmids : Option (List String)) : List (String × Storage) :=
  if vmids = some [] then []
  else source.nodes.flatMap fun node =>
    ((source.storages.filter Storage.holdsBackups).filter fun s => s.allows node).map fun s =>
      (node, s)

/-- `_discover_backups_for_node_storage`. -/
def listed (vmids : Option (List String)) (call : String × Storage) : List Backup :=
  (call.2.backups call.1).filter fun b =>
    vmids.all (fun l => l.contains (vmidText b.vmid)) && b.content = "backup"

/-- `compute_backup_payload` by its `_backup_owner_key`: a backup without a VM has none, and `none` is
an exception. -/
def ownerKey (records : Records) (found : Source × Backup) : Option (Option (ℤ × String)) :=
  match found.2.vmid.bind (resolve records found.1.endpointId found.1.cluster) with
  | none => some none
  | some vm =>
    let volid := Text.strip found.2.volid
    if found.2.builds && volid ≠ "" then some (some (vm.id, volid)) else none

namespace Run

variable (run : Run)

def found (scopes : List Scope) : List (Source × Backup) :=
  (run.asked scopes).flatMap fun source =>
    let vmids := run.effectiveVmids scopes source
    (source.calls vmids).flatMap fun call => (listed vmids call).map fun b => (source, b)

/-- A call of the discovery fails. -/
def discoveryFails (scopes : List Scope) : Bool :=
  (run.asked scopes).any fun source => source.storagesFail ||
    (source.calls (run.effectiveVmids scopes source)).any fun call => call.2.fails call.1

/-- The owner of a scope is asked, on at least one node. -/
def covered (scopes : List Scope) (scope : Scope) : Bool :=
  ((run.asked scopes).any fun s => s.isOwner scope) &&
    (run.asked scopes).all fun s => !s.isOwner scope || !s.nodes.isEmpty

/-- The owner keys of what is found, if no call fails and no payload raises. -/
def ownerKeys (scopes : List Scope) : Option (List (Option (ℤ × String))) :=
  if run.discoveryFails scopes then none else (run.found scopes).mapM (ownerKey run.records)

/-- The scopes and the owner keys of the cleanup, if the run reaches it. -/
def cleanup : Option (List Scope × List (ℤ × String)) := do
  let scopes ← run.scopes
  let keys ← run.ownerKeys scopes
  let payloads := keys.reduceOption
  if run.deleteNonexistentBackup && scopes.all (isUnambiguousScopeOwner run.records) &&
      (payloads.isEmpty || !run.reconcileRaises) then
    some (scopes.filter (run.covered scopes), payloads)
  else none

/-- The rows that `_create_all_virtual_machine_backups` deletes. -/
def deleted : List Row :=
  match run.cleanup, run.rows with
  | some (scopes, keys), some rows => rows.filter fun row =>
      row.id.isSome && row.volumeId ≠ "" && row.virtualMachine.any fun vm =>
        (scopes.map Scope.netboxVmId).contains vm && run.netboxVmIds.all (·.contains vm) &&
          !keys.contains (vm, row.volumeId)
  | _, _ => []

end Run

/-- A source of the VM's endpoint and cluster lists the volume as a backup of its vmid, on a storage
for backups and a node to which it is not closed. -/
structure Source.Lists (source : Source) (vm : Vm) (volid : String) (node : String)
    (storage : Storage) (backup : Backup) : Prop where
  endpoint : ∃ e, vm.endpointId = some e ∧ source.endpointId = some e
  cluster : ∃ c, vm.cluster = some c ∧ source.cluster = some c
  onNode : node ∈ source.nodes
  onStorage : storage ∈ source.storages
  forBackups : "backup" ∈ storage.content
  isOpen : ∀ nodes ∈ storage.nodes, node ∈ nodes
  found : backup ∈ storage.backups node
  content : backup.content = "backup"
  vmid : ∃ n, vm.vmid = some n ∧ backup.vmid = some n
  volid : backup.volid = volid

namespace Run

variable (run : Run)

def Listed (vm : Vm) (volid : String) : Prop :=
  ∃ source ∈ run.sources, ∃ node storage backup, source.Lists vm volid node storage backup

/-- No listed backup is deleted, and nothing is where a discovery call fails. -/
structure Safe : Prop where
  keeps : ∀ row ∈ run.deleted, ∀ vms ∈ run.vms, ∀ vm ∈ vms, row.virtualMachine = some vm.id →
    ¬run.Listed vm row.volumeId
  complete : ∀ scopes ∈ run.scopes, run.discoveryFails scopes = true → run.deleted = []

/-- The cleanup runs: nothing fails or raises, and every identity has one owner. -/
structure Cleans (scopes : List Scope) : Prop where
  delete : run.deleteNonexistentBackup = true
  selected : run.scopes = some scopes
  unambiguous : ∀ scope ∈ scopes, isUnambiguousScopeOwner run.records scope = true
  answers : run.discoveryFails scopes = false
  builds : ∀ f ∈ run.found scopes, (ownerKey run.records f).isSome = true
  reconciles : run.reconcileRaises = true → ∀ f ∈ run.found scopes, ownerKey run.records f = some none

/-- Where the cleanup runs, the listed backups of the covered VMs have clean names, and a vmid that
the filter, if there is one, lets through. -/
def Kept : Prop :=
  ∀ scopes, run.Cleans scopes → ∀ rows ∈ run.rows, ∀ row ∈ rows, row.id.isSome = true →
    row.volumeId ≠ "" → ∀ scope ∈ scopes, row.virtualMachine = some scope.netboxVmId →
      (∀ ids ∈ run.netboxVmIds, scope.netboxVmId ∈ ids) → run.covered scopes scope = true →
        ∀ vms ∈ run.vms, ∀ vm ∈ vms, scopeOf vm = some scope → run.Listed vm row.volumeId →
          Text.strip row.volumeId = row.volumeId ∧
            (run.netboxVmIds = none → ∀ vmids ∈ run.vmidFilter, toString scope.vmid ∈ vmids)

end Run
theorem mentions_of_mem {words : List String} {word : String} (h : word ∈ words) :
    mentions words word = true := by
  refine decide_eq_true ?_
  unfold commaText
  induction words with
  | nil => cases h
  | cons w words ih =>
    cases words with
    | nil =>
      obtain rfl := List.mem_singleton.mp h
      simp
    | cons w' words =>
      rw [List.map_cons, List.map_cons, List.intercalate_cons_cons]
      rcases List.mem_cons.mp h with rfl | h
      · rw [List.append_assoc]
        exact (List.prefix_append ..).isInfix
      · exact (ih h).trans (List.suffix_append ..).isInfix

theorem mem_calls {source : Source} {vmids : Option (List String)} {node : String}
    {storage : Storage} (hvmids : vmids ≠ some []) (hnode : node ∈ source.nodes)
    (hstorage : storage ∈ source.storages) (hbackups : "backup" ∈ storage.content)
    (hopen : ∀ nodes ∈ storage.nodes, node ∈ nodes) : (node, storage) ∈ source.calls vmids := by
  have hallows : storage.allows node = true := by
    unfold Storage.allows
    cases hnodes : storage.nodes with
    | none => rfl
    | some nodes =>
      change (decide _ || mentions nodes node) = true
      rw [mentions_of_mem (hopen nodes hnodes), Bool.or_true]
  rw [Source.calls, if_neg hvmids]
  refine List.mem_flatMap.mpr ⟨node, hnode, List.mem_map.mpr ⟨storage, ?_, rfl⟩⟩
  exact List.mem_filter.mpr
    ⟨List.mem_filter.mpr ⟨hstorage, mentions_of_mem hbackups⟩, hallows⟩

theorem ownerKey_eq_key_iff {records : Records} {found : Source × Backup} {vmId : ℤ}
    {volid : String} : ownerKey records found = some (some (vmId, volid)) ↔
      ∃ vm, found.2.vmid.bind (resolve records found.1.endpointId found.1.cluster) = some vm ∧
        found.2.builds = true ∧ Text.strip found.2.volid ≠ "" ∧ vm.id = vmId ∧
          Text.strip found.2.volid = volid := by
  unfold ownerKey
  split
  · rename_i h
    simp [h]
  · rename_i vm h
    simp [h, and_assoc]

namespace Run

variable {run : Run}

/-- The cleanup runs with the owner keys of everything that is found. -/
theorem cleanup_eq_some_iff {covered : List Scope} {keys : List (ℤ × String)} :
    run.cleanup = some (covered, keys) ↔ ∃ scopes ks, run.Cleans scopes ∧
      (run.found scopes).mapM (ownerKey run.records) = some ks ∧
      scopes.filter (run.covered scopes) = covered ∧ ks.reduceOption = keys := by
  have hempty : ∀ ks : List (Option (ℤ × String)),
      ks.reduceOption.isEmpty = true ↔ ∀ k ∈ ks, k = none := by
    intro ks
    rw [List.isEmpty_iff, List.reduceOption, List.filterMap_eq_nil_iff]
    rfl
  constructor
  · intro h
    obtain ⟨scopes, hscopes, h⟩ := Option.bind_eq_some_iff.mp h
    obtain ⟨ks, hks, h⟩ := Option.bind_eq_some_iff.mp h
    simp only at h
    unfold ownerKeys at hks
    split at h
    · rename_i hclean
      split at hks
      · cases hks
      · rename_i hanswers
        simp only [Option.some.injEq, Prod.mk.injEq] at h
        simp only [Bool.and_eq_true, List.all_eq_true] at hclean
        obtain ⟨⟨hdelete, hunambiguous⟩, hreconcile⟩ := hclean
        refine ⟨scopes, ks, ⟨hdelete, hscopes, hunambiguous, by simpa using hanswers,
          Outcomes.isSome_of_mapM hks, ?_⟩, hks, h.1, h.2⟩
        intro hraises f hf
        rw [hraises, Bool.not_true, Bool.or_false, hempty] at hreconcile
        obtain ⟨k, hk⟩ := Option.isSome_iff_exists.mp (Outcomes.isSome_of_mapM hks f hf)
        rw [hk, hreconcile k ((Outcomes.mem_mapM_iff hks).mpr ⟨f, hf, hk⟩)]
    · cases h
  · rintro ⟨scopes, ks, hclean, hks, rfl, rfl⟩
    have hreconcile : (ks.reduceOption.isEmpty || !run.reconcileRaises) = true := by
      cases hraises : run.reconcileRaises with
      | false => exact Bool.or_true _
      | true =>
        rw [Bool.not_true, Bool.or_false, hempty]
        intro k hk
        obtain ⟨f, hf, hfk⟩ := (Outcomes.mem_mapM_iff hks).mp hk
        rw [hclean.reconciles hraises f hf] at hfk
        exact (Option.some.inj hfk).symm
    have hall : scopes.all (isUnambiguousScopeOwner run.records) = true :=
      List.all_eq_true.mpr hclean.unambiguous
    have hkeys : run.ownerKeys scopes = some ks := by
      rw [ownerKeys, hclean.answers]
      exact hks
    unfold cleanup
    rw [hclean.selected, Option.bind_eq_bind, Option.bind_some, hkeys, Option.bind_eq_bind,
      Option.bind_some]
    simp only [hclean.delete, hall, hreconcile, Bool.and_self, if_true]

/-- A row of a covered VM is deleted where nothing found has its owner key. -/
theorem mem_deleted_iff {row : Row} : row ∈ run.deleted ↔ ∃ scopes rows, run.Cleans scopes ∧
    run.rows = some rows ∧ row ∈ rows ∧ row.id.isSome = true ∧ row.volumeId ≠ "" ∧
      ∃ scope ∈ scopes, row.virtualMachine = some scope.netboxVmId ∧
        run.covered scopes scope = true ∧ (∀ ids ∈ run.netboxVmIds, scope.netboxVmId ∈ ids) ∧
          ¬∃ f ∈ run.found scopes,
            ownerKey run.records f = some (some (scope.netboxVmId, row.volumeId)) := by
  have hkeys : ∀ {scopes ks} {key : ℤ × String},
      (run.found scopes).mapM (ownerKey run.records) = some ks →
        (key ∈ ks.reduceOption ↔ ∃ f ∈ run.found scopes, ownerKey run.records f = some (some key)) := by
    intro scopes ks key hks
    rw [List.reduceOption_mem_iff, Outcomes.mem_mapM_iff hks]
  unfold deleted
  constructor
  · intro h
    split at h
    · rename_i covered keys rows hcleanup hrows
      obtain ⟨scopes, ks, hclean, hks, rfl, rfl⟩ := cleanup_eq_some_iff.mp hcleanup
      obtain ⟨hrow, h⟩ := List.mem_filter.mp h
      simp only [Bool.and_eq_true, decide_eq_true_eq, Option.any_eq_true, Option.all_eq_true,
        List.contains_iff_mem, Bool.not_eq_true', List.mem_map] at h
      obtain ⟨⟨hid, hvolume⟩, vmId, hvm, ⟨⟨scope, hscope, rfl⟩, hids⟩, hkey⟩ := h
      obtain ⟨hscope, hcovered⟩ := List.mem_filter.mp hscope
      refine ⟨scopes, rows, hclean, hrows, hrow, hid, hvolume, scope, hscope, hvm, hcovered, hids, ?_⟩
      rw [← hkeys hks]
      simpa using hkey
    · cases h
  · rintro ⟨scopes, rows, hclean, hrows, hrow, hid, hvolume, scope, hscope, hvm, hcovered, hids, hkey⟩
    obtain ⟨ks, hks⟩ := Option.isSome_iff_exists.mp (Outcomes.mapM_isSome hclean.builds)
    rw [cleanup_eq_some_iff.mpr ⟨scopes, ks, hclean, hks, rfl, rfl⟩, hrows]
    refine List.mem_filter.mpr ⟨hrow, ?_⟩
    rw [← hkeys hks] at hkey
    simp only [Bool.and_eq_true, decide_eq_true_eq, Option.any_eq_true, Option.all_eq_true,
      List.contains_iff_mem, List.mem_map]
    exact ⟨⟨hid, hvolume⟩, _, hvm,
      ⟨⟨scope, List.mem_filter.mpr ⟨hscope, hcovered⟩, rfl⟩, hids⟩, by simpa using hkey⟩

end Run

namespace Run

variable {run : Run}

theorem scopes_eq {scopes : List Scope} (h : run.scopes = some scopes) :
    ∃ vms, run.vms = some vms ∧ vms.filterMap scopeOf = scopes := by
  obtain ⟨vms, hvms, h⟩ := Option.bind_eq_some_iff.mp h
  refine ⟨vms, hvms, ?_⟩
  split at h
  · exact Option.some.inj h
  · simp only at h
    split at h
    · exact Option.some.inj h
    · cases h

theorem mem_found_iff {scopes : List Scope} {f : Source × Backup} : f ∈ run.found scopes ↔
    f.1 ∈ run.asked scopes ∧ ∃ call ∈ f.1.calls (run.effectiveVmids scopes f.1),
      f.2 ∈ listed (run.effectiveVmids scopes f.1) call := by
  obtain ⟨source, backup⟩ := f
  simp only [found, List.mem_flatMap, List.mem_map, Prod.mk.injEq]
  constructor
  · rintro ⟨source, hsource, call, hcall, backup, hbackup, rfl, rfl⟩
    exact ⟨hsource, call, hcall, hbackup⟩
  · rintro ⟨hsource, call, hcall, hbackup⟩
    exact ⟨source, hsource, call, hcall, backup, hbackup, rfl, rfl⟩

/-- The vmids of the explicit selection, or of the filter, let a scope through. -/
def LetsThrough (run : Run) (scope : Scope) : Prop :=
  run.netboxVmIds = none → ∀ vmids ∈ run.vmidFilter, toString scope.vmid ∈ vmids

theorem mem_effectiveVmids {scopes : List Scope} {scope : Scope} {source : Source}
    (hscope : scope ∈ scopes) (howner : source.isOwner scope = true)
    (hthrough : run.LetsThrough scope) :
    ∀ vmids ∈ run.effectiveVmids scopes source, toString scope.vmid ∈ vmids := by
  unfold effectiveVmids
  cases hids : run.netboxVmIds with
  | none => exact hthrough hids
  | some ids =>
    rintro vmids hvmids
    obtain rfl := Option.some.inj hvmids
    exact List.mem_map.mpr ⟨scope, List.mem_filter.mpr ⟨hscope, howner⟩, rfl⟩

theorem mem_asked {scopes : List Scope} {scope : Scope} {source : Source} (hscope : scope ∈ scopes)
    (hsource : source ∈ run.sources) (howner : source.isOwner scope = true) :
    source ∈ run.asked scopes := by
  unfold asked
  split
  · exact List.mem_filter.mpr ⟨hsource, List.any_eq_true.mpr ⟨scope, hscope, howner⟩⟩
  · exact hsource

/-- A listed backup of a VM has its owner key found if and only if its name is clean and its vmid is
let through. -/
theorem ownerKey_found_iff {scopes : List Scope} (hclean : run.Cleans scopes) {vms : List Vm}
    (hvms : run.vms = some vms) {vm : Vm} (hvm : vm ∈ vms) {scope : Scope}
    (hscope : scopeOf vm = some scope) {volid : String} (hlisted : run.Listed vm volid) :
    (∃ f ∈ run.found scopes, ownerKey run.records f = some (some (scope.netboxVmId, volid))) ↔
      Text.strip volid = volid ∧ run.LetsThrough scope := by
  obtain ⟨hid, hendpoint, hcluster, hvmid⟩ := scopeOf_eq_some_iff.mp hscope
  have hrecords : run.records = cacheOf vms := by rw [records, hvms]; rfl
  have hmem : scope ∈ scopes := by
    obtain ⟨vms', hvms', rfl⟩ := scopes_eq hclean.selected
    obtain rfl : vms = vms' := Option.some.inj (hvms.symm.trans hvms')
    exact List.mem_filterMap.mpr ⟨vm, hvm, hscope⟩
  constructor
  · rintro ⟨f, hf, hkey⟩
    obtain ⟨vm', hresolve, _, _, hid', hstrip⟩ := ownerKey_eq_key_iff.mp hkey
    refine ⟨by rw [← hstrip, Text.strip_strip], fun hids vmids hvmids => ?_⟩
    -- what is found under the VM's id is of the VM's vmid, and has passed the filter
    obtain ⟨n, hn, hresolve⟩ := Option.bind_eq_some_iff.mp hresolve
    obtain ⟨key, rfl, hkey⟩ := exists_key_of_resolve hresolve
    rw [hrecords] at hkey
    have heq : vm' = vm := List.inj_on_of_nodup_map (run.ids_nodup vms hvms)
      (mem_of_cacheOf key vm' hkey) hvm (hid'.trans hid.symm)
    have hvmid' : some scope.vmid = f.2.vmid := by
      rw [hn, ← hvmid, ← heq, (cacheOf_ofIdentity vms key vm' hkey).1]
    obtain ⟨_, call, _, hbackup⟩ := mem_found_iff.mp hf
    have hpassed := (Bool.and_eq_true_iff.mp (List.mem_filter.mp hbackup).2).1
    have heffective : run.effectiveVmids scopes f.1 = some vmids := by
      rw [effectiveVmids, hids]
      exact hvmids
    rw [heffective, ← hvmid'] at hpassed
    exact List.contains_iff_mem.mp hpassed
  · rintro ⟨hstrip, hthrough⟩
    obtain ⟨source, hsource, node, storage, backup, hlists⟩ := hlisted
    obtain ⟨e, he, hse⟩ := hlists.endpoint
    obtain ⟨c, hc, hsc⟩ := hlists.cluster
    obtain ⟨n, hn, hbn⟩ := hlists.vmid
    obtain rfl : e = scope.endpointId := Option.some.inj (he.symm.trans hendpoint)
    obtain rfl : c = scope.cluster := Option.some.inj (hc.symm.trans hcluster)
    obtain rfl : n = scope.vmid := Option.some.inj (hn.symm.trans hvmid)
    have howner : source.isOwner scope = true := by simp [Source.isOwner, hse, hsc]
    have heffective := mem_effectiveVmids hmem howner hthrough
    have hsome : run.effectiveVmids scopes source ≠ some [] := by
      intro hnil
      have := heffective [] hnil
      cases this
    have hfound : (source, backup) ∈ run.found scopes := by
      refine mem_found_iff.mpr ⟨mem_asked hmem hsource howner, (node, storage),
        mem_calls hsome hlists.onNode hlists.onStorage hlists.forBackups hlists.isOpen,
        List.mem_filter.mpr ⟨hlists.found, ?_⟩⟩
      rw [hlists.content, hbn]
      exact Bool.and_eq_true_iff.mpr ⟨(Option.all_eq_true _ _).mpr fun l hl =>
        List.contains_iff_mem.mpr (heffective l hl), by simp⟩
    obtain ⟨vm', hresolve, hid'⟩ := resolve_of_unambiguous
      (hrecords ▸ cacheOf_ofIdentity vms) (vm.vmid_pos _ hvmid) (hclean.unambiguous scope hmem)
    have hresolve' : backup.vmid.bind (resolve run.records source.endpointId source.cluster) =
        some vm' := by
      rw [hbn, hse, hsc]
      exact hresolve
    refine ⟨(source, backup), hfound, ownerKey_eq_key_iff.mpr ⟨vm', hresolve', ?_⟩⟩
    have hbuilds := hclean.builds _ hfound
    simp only [ownerKey, hresolve'] at hbuilds
    split at hbuilds
    · rename_i hbuilt
      obtain ⟨hbuilt, hvolid⟩ := Bool.and_eq_true_iff.mp hbuilt
      exact ⟨hbuilt, by simpa using hvolid, hid', by rw [hlists.volid, hstrip]⟩
    · cases hbuilds

/-- Nothing is deleted where a discovery call fails. -/
theorem deleted_eq_nil_of_fails {scopes : List Scope} (hscopes : run.scopes = some scopes)
    (hfails : run.discoveryFails scopes = true) : run.deleted = [] := by
  refine List.eq_nil_iff_forall_not_mem.mpr fun row hrow => ?_
  obtain ⟨scopes', _, hclean, _⟩ := mem_deleted_iff.mp hrow
  obtain rfl : scopes' = scopes := Option.some.inj (hclean.selected.symm.trans hscopes)
  rw [hclean.answers] at hfails
  cases hfails

/-- The cleanup is safe if and only if the listed backups of the covered VMs have clean names and are
let through. -/
theorem backupCleanup_safe_iff (run : Run) : run.Safe ↔ run.Kept := by
  constructor
  · rintro ⟨hkeeps, _⟩ scopes hclean rows hrows row hrow hid hvolume scope hscope hvmId hids hcovered
      vms hvms vm hvm hscopeOf hlisted
    rw [← LetsThrough, ← ownerKey_found_iff hclean hvms hvm hscopeOf hlisted]
    by_contra hkey
    have hdeleted : row ∈ run.deleted := mem_deleted_iff.mpr ⟨scopes, rows, hclean, hrows, hrow, hid,
      hvolume, scope, hscope, hvmId, hcovered, hids, hkey⟩
    refine hkeeps row hdeleted vms hvms vm hvm ?_ hlisted
    rw [hvmId, (scopeOf_eq_some_iff.mp hscopeOf).1]
  · intro hkept
    refine ⟨?_, fun scopes hscopes hfails => deleted_eq_nil_of_fails hscopes hfails⟩
    intro row hdeleted vms hvms vm hvm hvmId hlisted
    obtain ⟨scopes, rows, hclean, hrows, hrow, hid, hvolume, scope, hscope, hvmId', hcovered, hids,
      hkey⟩ := mem_deleted_iff.mp hdeleted
    have hscopeOf : scopeOf vm = some scope := by
      obtain ⟨vms', hvms', rfl⟩ := scopes_eq hclean.selected
      obtain rfl : vms = vms' := Option.some.inj (hvms.symm.trans hvms')
      obtain ⟨vm', hvm', hscopeOf⟩ := List.mem_filterMap.mp hscope
      have heq : vm' = vm := List.inj_on_of_nodup_map (run.ids_nodup vms hvms) hvm' hvm (by
        rw [(scopeOf_eq_some_iff.mp hscopeOf).1]
        exact Option.some.inj (hvmId'.symm.trans hvmId))
      exact heq ▸ hscopeOf
    exact hkey ((ownerKey_found_iff hclean hvms hvm hscopeOf hlisted).mpr
      (hkept scopes hclean rows hrows row hrow hid hvolume scope hscope hvmId' hids hcovered vms hvms
        vm hvm hscopeOf hlisted))

end Run

def vzdump : Backup := ⟨"backup", some 100, "nas:backup/vzdump-qemu-100.vma", true⟩

def nas : Storage := ⟨"nas", ["backup"], none, fun _ => false, fun _ => [vzdump]⟩

/-- A backup of guest 100, and a filter for guest 101. -/
def filtered : Run where
  sources := [⟨some 1, some "lab", ["pve1"], [nas], false⟩]
  vms := some [⟨7, some 1, some "lab", some 100, by simp⟩]
  ids_nodup := by simp
  rows := some [⟨some 31, some 7, "nas:backup/vzdump-qemu-100.vma"⟩]
  netboxVmIds := none
  vmidFilter := some ["101"]
  reconcileRaises := false
  deleteNonexistentBackup := true

/-- A filter by vmid lets the cleanup delete the listed backups of every other VM. -/
theorem filtered_deleted : ¬∀ run : Run, run.Safe := by
  intro h
  have hdeleted : ⟨some 31, some 7, "nas:backup/vzdump-qemu-100.vma"⟩ ∈ filtered.deleted := by
    decide +kernel
  refine (h filtered).keeps _ hdeleted _ rfl _ (List.mem_singleton.mpr rfl) rfl
    ⟨_, List.mem_singleton.mpr rfl, "pve1", nas, vzdump, ?_⟩
  exact ⟨⟨1, rfl, rfl⟩, ⟨"lab", rfl, rfl⟩, List.mem_singleton.mpr rfl, List.mem_singleton.mpr rfl,
    List.mem_singleton.mpr rfl, (fun _ h => by cases h), List.mem_singleton.mpr rfl, rfl,
    ⟨100, rfl, rfl⟩, rfl⟩

end ProxboxApi.Backups
