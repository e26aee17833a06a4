import ProxboxApi.TaskOwnership

/-! The targeted run of one VM against the run over all VMs: the first of the rows of a UPID against
the latest. -/

namespace ProxboxApi.TaskHistory

theorem ofText_text (vmType : VmType) : VmType.ofText vmType.text = vmType := by
  cases vmType <;> rfl

/-- What a row says of its task, apart from its UPID. -/
def Row.details (epochIso : ℤ → Option String) (row : Row) :
    (String × Option ℤ × Option ℤ × Option String × String) × String × Option String ×
      Option String × String :=
  (((normalizeText row.node).getD "", row.pid, row.pstart,
      normalizeText ((row.id.filter (· ≠ "")).or row.vmid), (normalizeText row.type).getD "unknown"),
    (normalizeText row.user).getD "root@pam", row.starttime.bind epochIso,
    row.endtime.bind epochIso,
    ((normalizeText row.exitstatus).or (normalizeText row.status)).getD "unknown")

theorem buildTaskPayload_eq_iff {py : Python} {epochIso : ℤ → Option String}
    {capitalize : String → String} {vm : ℤ} {vmType : VmType} {row row' : Row}
    (hkey : row.key = row'.key) :
    buildTaskPayload py epochIso capitalize vm vmType row =
        buildTaskPayload py epochIso capitalize vm vmType row' ↔
      row.details epochIso = row'.details epochIso := by
  simp only [buildTaskPayload, Row.details, hkey, Payload.mk.injEq, Prod.mk.injEq]
  constructor
  · tauto
  · rintro ⟨⟨hnode, hpid, hpstart, hid, htype⟩, huser, hstart, hend, hstatus⟩
    simp only [hnode, hpid, hpstart, hid, htype, huser, hstart, hend, hstatus, and_self]

theorem find_foldl_setDefault {upid : String} {rows : List Row} : ∀ {collected : List Row},
    (rows.foldl Run.setDefault collected).find? (·.key = some upid) =
      (collected ++ rows).find? (·.key = some upid) := by
  induction rows with
  | nil => intro collected; simp
  | cons row rows ih =>
    intro collected
    have hrow : (Run.setDefault collected row).find? (·.key = some upid) =
        (collected ++ [row]).find? (·.key = some upid) := by
      unfold Run.setDefault
      cases hkey : row.key with
      | none => simp [List.find?_append, hkey]
      | some u =>
        simp only
        split
        · next hseen =>
          by_cases hu : u = upid
          · subst hu
            have hfound : (collected.find? (·.key = some u)).isSome := by
              rw [List.find?_isSome]
              simpa [isSeen] using hseen
            rw [List.find?_append, Option.or_of_isSome hfound]
          · simp [List.find?_append, hkey, hu]
        · rfl
    rw [List.foldl_cons, ih, List.find?_append, hrow, ← List.find?_append]
    simp

/-- The keys of the rows are distinct and none is empty. -/
theorem distinct_foldl_setDefault {rows : List Row} : ∀ {collected : List Row},
    Distinct collected → Distinct (rows.foldl Run.setDefault collected) := by
  induction rows with
  | nil => intro collected h; exact h
  | cons row rows ih =>
    intro collected h
    apply ih
    unfold Run.setDefault
    cases hkey : row.key with
    | none => exact h
    | some u =>
      simp only
      split
      · exact h
      · next hseen =>
        rw [isSeen_iff, ← hkey] at hseen
        constructor
        · intro r hr
          rcases List.mem_append.mp hr with hr | hr
          · exact h.named r hr
          · rw [List.mem_singleton.mp hr, hkey]
            exact Option.some_ne_none u
        · rw [List.map_append, List.map_cons, List.map_nil, List.nodup_append]
          refine ⟨h.once, List.nodup_singleton _, ?_⟩
          rintro k hk _ hrow rfl
          rw [List.mem_singleton.mp hrow] at hk
          exact hseen hk

/-- Where the keys are distinct, a row is the first with its key. -/
theorem Distinct.mem_iff {rows : List Row} (h : Distinct rows) {row : Row} {upid : String}
    (hkey : row.key = some upid) :
    row ∈ rows ↔ rows.find? (·.key = some upid) = some row := by
  constructor
  · intro hrow
    cases hfind : rows.find? (·.key = some upid) with
    | none =>
      rw [List.find?_eq_none] at hfind
      exact absurd (by simpa using hkey) (hfind row hrow)
    | some r =>
      have hr : r.key = some upid := by simpa using List.find?_some hfind
      rw [List.inj_on_of_nodup_map h.once (List.mem_of_find?_eq_some hfind) hrow
        (hr.trans hkey.symm)]
  · exact List.mem_of_find?_eq_some

theorem appendUnique_eq (node : String) (collected : List Row) (task : Row) :
    appendUnique node collected task = Run.setDefault collected (task.onNode node) := rfl

theorem distinct_nil : Distinct [] where
  named _ hrow := absurd hrow List.not_mem_nil
  once := List.nodup_nil

/-- Of an archive that is read without an error a UPID has its first row. -/
theorem find_tasks {node : String} {archive : Archive}
    (h : (fetchNodeArchive node archive).errors = 0) (upid : String) :
    (fetchNodeArchive node archive).tasks.find? (·.key = some upid) =
      (archive.rows.map (·.onNode node)).find? (·.key = some upid) := by
  rw [tasks_of_errors h]
  simp only [funext₂ (appendUnique_eq node)]
  rw [← List.foldl_map, find_foldl_setDefault, List.nil_append]

theorem distinct_tasks {node : String} {archive : Archive}
    (h : (fetchNodeArchive node archive).errors = 0) :
    Distinct (fetchNodeArchive node archive).tasks := by
  rw [tasks_of_errors h]
  simp only [funext₂ (appendUnique_eq node)]
  rw [← List.foldl_map]
  exact distinct_foldl_setDefault distinct_nil

theorem mem_rows_of_tasks {node : String} {archive : Archive}
    (h : (fetchNodeArchive node archive).errors = 0) {row : Row}
    (hrow : row ∈ (fetchNodeArchive node archive).tasks) :
    row ∈ archive.rows.map (·.onNode node) := by
  obtain ⟨upid, hkey⟩ := Option.ne_none_iff_exists'.mp ((distinct_tasks h).named row hrow)
  have hfirst := ((distinct_tasks h).mem_iff hkey).mp hrow
  rw [find_tasks h] at hfirst
  exact List.mem_of_find?_eq_some hfirst

theorem Distinct.filter_key {rows : List Row} (h : Distinct rows) (upid : String) :
    rows.filter (·.key = some upid) = (rows.find? (·.key = some upid)).toList := by
  induction rows with
  | nil => rfl
  | cons row rows ih =>
    by_cases hkey : row.key = some upid
    · have hrest : rows.filter (·.key = some upid) = [] := by
        rw [List.filter_eq_nil_iff]
        intro r hr hsame
        have honce := h.once
        rw [List.map_cons, List.nodup_cons] at honce
        apply honce.1
        rw [hkey, ← of_decide_eq_true hsame]
        exact List.mem_map_of_mem hr
      simp [hkey, hrest]
    · have htail := ih (h.sublist (List.sublist_cons_self row rows))
      simp [hkey, htail]

namespace Run

variable (py : Python) (epochIso : ℤ → Option String) (capitalize : String → String)
variable (run : Run)

/-- The first row of a UPID in the archive of a node. -/
def firstRow (upid : String) (node : ArchiveNode) : Option Row :=
  (((run.archive node.session node.nodeName).rows.map (·.onNode node.nodeName)).find?
    (·.key = some upid))

/-- The first row of a UPID for a guest, over the nodes of its cluster and endpoint. -/
def firstOf (t : Target) (upid : String) : Option Row :=
  (run.findClusterSources (some t.clusterName) t.endpointId).findSome? fun node =>
    (((run.archive node.session node.nodeName).rows.map (·.onNode node.nodeName)).find? fun row =>
      row.key = some upid ∧ taskVmid py row = some t.vmid)

/-- The owned rows of a UPID, the first of each node. -/
def sightings (upid : String) : List (Target × Row) :=
  run.archiveNodes.filterMap fun node => (run.firstRow upid node).bind fun row =>
    observation (run.attributionOf py node row, row)

/-- The condition of agreement: every UPID that the nodes of the target list for it has the target as
its only owner, and the first of these rows says what the latest says. -/
def FirstIsLatest (t : Target) : Prop :=
  ∀ upid first, run.firstOf py t upid = some first →
    (∀ o ∈ run.sightings py upid, o.1 = t) ∧
      ∃ latest, ((run.sightings py upid).argmax fun o => times o.2) = some latest ∧
        latest.2.details epochIso = first.details epochIso

variable {run}

theorem mem_findClusterSources {t : Target} (ht : t ∈ run.targets) {endpointId : ℤ}
    (hendpoint : t.endpointId = some endpointId) {node : ArchiveNode} :
    node ∈ run.findClusterSources (some t.clusterName) t.endpointId ↔ node ∈ run.archiveNodes ∧
      node.clusterName = t.clusterName ∧ node.endpointId = t.endpointId := by
  have hnamed := run.targets_named t ht
  have hscopes : run.matchedScopes t.endpointId t.clusterName ≠ [] := by
    apply List.ne_nil_of_mem
    rw [matchedScopes, List.mem_filter]
    exact ⟨List.mem_cons_self, List.any_eq_true.mpr ⟨t, ht, by simp⟩⟩
  rw [mem_archiveNodes_iff]
  unfold findClusterSources
  simp only [hendpoint, Option.getD_some, hnamed, false_or, Option.some.injEq, List.mem_flatMap,
    List.mem_filter, decide_eq_true_eq, List.mem_map]
  constructor
  · rintro ⟨⟨session, status⟩, ⟨⟨hpair, hname⟩, hsession⟩, nodeName, hnode, rfl⟩
    refine ⟨⟨_, hpair, rfl, rfl, hnode, rfl, ?_⟩, hname.symm, hsession⟩
    rw [hsession, ← hendpoint, ← hname]
    exact hscopes
  · rintro ⟨⟨⟨session, status⟩, hpair, rfl, hcluster, hnode, hof, -⟩, hname, hsession⟩
    refine ⟨_, ⟨⟨hpair, (hcluster.trans hname).symm⟩, hof ▸ hsession⟩, node.nodeName, hnode, ?_⟩
    cases node
    simp only at hcluster hof
    simp [hcluster, hof]

/-- The UPID of an observation is its row's. -/
theorem filter_observations (upid : String) (node : ArchiveNode) (rows : List Row) :
    ((rows.map fun row => (run.attributionOf py node row, row)).filterMap observation).filter
        (·.2.key = some upid) =
      (rows.filter (·.key = some upid)).filterMap
        fun row => observation (run.attributionOf py node row, row) := by
  rw [List.filterMap_map, List.filter_filterMap, List.filterMap_filter]
  apply List.filterMap_congr
  intro row _
  simp only [Function.comp_apply]
  cases run.attributionOf py node row with
  | owned t => simp [observation, Option.filter]
  | skipped => simp [observation]
  | ambiguous => simp [observation]

theorem observationsOf_eq (herrors : ∀ node ∈ run.archiveNodes, (run.archiveResult node).errors = 0)
    (upid : String) : run.observationsOf py upid = run.sightings py upid := by
  unfold observationsOf observations attributions sightings
  rw [List.filterMap_flatMap, List.filter_flatMap, List.filterMap_eq_flatMap_toList]
  apply List.flatMap_congr
  intro node hnode
  have herror := herrors node hnode
  have hrows : (run.tasks node).filter (·.key = some upid) = (run.firstRow upid node).toList :=
    calc
      _ = ((run.tasks node).find? (·.key = some upid)).toList :=
        (distinct_tasks herror).filter_key upid
      _ = _ := congrArg Option.toList (find_tasks herror upid)
  rw [filter_observations, hrows]
  cases run.firstRow upid node with
  | none => rfl
  | some row =>
    rw [Option.toList_some, Option.bind_some, List.filterMap_cons, List.filterMap_nil]
    cases observation (run.attributionOf py node row, row) <;> rfl

/-- The rows that a source answers with are the guest's. -/
theorem taskVmid_of_guestResult {t : Target} {node : ArchiveNode}
    (h : (run.guestResult py t.vmid node).errors = 0) {row : Row}
    (hrow : row ∈ (run.guestResult py t.vmid node).tasks) : taskVmid py row = some t.vmid := by
  obtain ⟨r, hr, rfl⟩ := List.mem_map.mp (mem_rows_of_tasks h hrow)
  exact of_decide_eq_true (List.mem_filter.mp hr).2

theorem find_guestTasks {t : Target}
    (herrors : ∀ node ∈ run.findClusterSources (some t.clusterName) t.endpointId,
      (run.guestResult py t.vmid node).errors = 0) (upid : String) :
    (run.guestTasks py t.vmid (run.findClusterSources (some t.clusterName) t.endpointId)).find?
      (·.key = some upid) = run.firstOf py t upid := by
  have hguest : run.guestTasks py t.vmid (run.findClusterSources (some t.clusterName) t.endpointId) =
      (run.findClusterSources (some t.clusterName) t.endpointId).flatMap
        fun source => (run.guestResult py t.vmid source).tasks := by
    unfold guestTasks
    rw [List.filter_eq_self]
    intro row hrow
    obtain ⟨source, hsource, hrow⟩ := List.mem_flatMap.mp hrow
    exact decide_eq_true (taskVmid_of_guestResult py (herrors source hsource) hrow)
  rw [hguest, List.find?_flatMap]
  apply Outcomes.findSome_congr
  intro source hsource
  calc
    _ = ((run.guestArchive py t.vmid source).rows.map (·.onNode source.nodeName)).find?
        (·.key = some upid) := find_tasks (herrors source hsource) upid
    _ = _ := by
      unfold guestArchive
      rw [List.find?_map, List.find?_map, List.find?_filter]
      congr 2
      funext row
      have hvmid : taskVmid py (row.onNode source.nodeName) = taskVmid py row := rfl
      simp [hvmid, and_comm]

theorem mem_targeted_iff {t : Target}
    (herrors : ∀ node ∈ run.findClusterSources (some t.clusterName) t.endpointId,
      (run.guestResult py t.vmid node).errors = 0) {p : Payload} :
    p ∈ run.targeted py epochIso capitalize t ↔ ∃ first, run.firstOf py t p.upid = some first ∧
      buildTaskPayload py epochIso capitalize t.netboxId t.vmType first = p := by
  unfold targeted syncVirtualMachineTaskHistory
  simp only [List.mem_map, ofText_text, ← find_guestTasks py herrors]
  have hdistinct := @distinct_foldl_setDefault (run.guestTasks py t.vmid
    (run.findClusterSources (some t.clusterName) t.endpointId)) [] distinct_nil
  constructor
  · rintro ⟨row, hrow, rfl⟩
    obtain ⟨upid, hkey⟩ := Option.ne_none_iff_exists'.mp (hdistinct.named row hrow)
    have hupid : (buildTaskPayload py epochIso capitalize t.netboxId t.vmType row).upid = upid := by
      simp [buildTaskPayload, hkey]
    rw [hdistinct.mem_iff hkey, find_foldl_setDefault] at hrow
    exact ⟨row, by rw [hupid]; exact hrow, rfl⟩
  · rintro ⟨row, hfirst, hbuild⟩
    have hkey : row.key = some p.upid := by simpa using List.find?_some hfirst
    refine ⟨row, ?_, hbuild⟩
    rw [hdistinct.mem_iff hkey, find_foldl_setDefault]
    exact hfirst

theorem firstOf_key {t : Target} {upid : String} {row : Row}
    (h : run.firstOf py t upid = some row) : row.key = some upid := by
  obtain ⟨node, -, hfind⟩ := List.exists_of_findSome?_eq_some h
  have hrow := List.find?_some hfind
  exact (of_decide_eq_true hrow).1

/-- A node whose first row of a UPID is a guest's is a source that lists the UPID for the guest. -/
theorem firstOf_isSome {t : Target} (ht : t ∈ run.targets) {endpointId : ℤ}
    (hendpoint : t.endpointId = some endpointId) {upid : String} {node : ArchiveNode}
    (hnode : node ∈ run.archiveNodes) {row : Row} (herror : (run.archiveResult node).errors = 0)
    (hrow : row ∈ run.tasks node) (hkey : row.key = some upid) (howns : run.Owns py node row t) :
    (run.firstOf py t upid).isSome := by
  obtain ⟨-, ⟨-, hvmid, hcluster, hscope⟩, -⟩ := howns
  have hsource : node ∈ run.findClusterSources (some t.clusterName) t.endpointId := by
    rw [mem_findClusterSources ht hendpoint]
    rw [hendpoint] at hscope ⊢
    exact ⟨hnode, hcluster, (hscope.resolve_left (Option.some_ne_none _)).symm⟩
  unfold firstOf
  rw [List.findSome?_isSome_iff]
  refine ⟨node, hsource, ?_⟩
  rw [List.find?_isSome]
  exact ⟨row, mem_rows_of_tasks herror hrow, decide_eq_true ⟨hkey, hvmid⟩⟩

theorem sighting_spec (herrors : ∀ node ∈ run.archiveNodes, (run.archiveResult node).errors = 0)
    {upid : String} {o : Target × Row} (h : o ∈ run.sightings py upid) :
    o.1 ∈ run.targets ∧ o.2.key = some upid := by
  rw [← observationsOf_eq py herrors] at h
  exact ⟨mem_targets_of_observed py h, ((mem_observationsOf_iff py).mp h).1⟩

/-- The payloads of the targeted run are those of the run over all VMs exactly if the target alone
owns its UPIDs and the first row of each says what the latest says. -/
theorem targeted_agrees_iff {t : Target} (ht : t ∈ run.targets) {endpointId : ℤ}
    (hendpoint : t.endpointId = some endpointId)
    (herrors : ∀ node ∈ run.archiveNodes, (run.archiveResult node).errors = 0)
    (hguest : ∀ node ∈ run.findClusterSources (some t.clusterName) t.endpointId,
      (run.guestResult py t.vmid node).errors = 0) :
    (∀ p, p ∈ run.targeted py epochIso capitalize t ↔
      p ∈ run.written py epochIso capitalize ∧ p.virtualMachine = t.netboxId) ↔
        run.FirstIsLatest py epochIso t := by
  simp only [written_eq, mem_payloads_iff, payloadOf_eq_some_iff, SoleOwner,
    observationsOf_eq py herrors, mem_targeted_iff py epochIso capitalize hguest]
  constructor
  · intro h upid first hfirst
    have hkey := firstOf_key py hfirst
    have hupid : (buildTaskPayload py epochIso capitalize t.netboxId t.vmType first).upid = upid := by
      simp [buildTaskPayload, hkey]
    -- The first row is also built by the run over all VMs, from the latest row of its owner.
    obtain ⟨⟨o, hsole, hlatest, hbuild⟩, -⟩ := (h _).mp ⟨first, by rw [hupid]; exact hfirst, rfl⟩
    rw [hupid] at hsole hlatest
    obtain ⟨htarget, hkey'⟩ := sighting_spec py herrors (List.argmax_mem hlatest)
    have howner : o.1 = t := eq_of_netboxId htarget ht (congrArg Payload.virtualMachine hbuild)
    rw [howner] at hsole hbuild
    exact ⟨hsole, o, hlatest, (buildTaskPayload_eq_iff (hkey'.trans hkey.symm)).mp hbuild⟩
  · intro h p
    constructor
    · rintro ⟨first, hfirst, rfl⟩
      obtain ⟨hsole, latest, hlatest, hdetails⟩ := h _ first hfirst
      have howner := hsole latest (List.argmax_mem hlatest)
      obtain ⟨-, hkey⟩ := sighting_spec py herrors (List.argmax_mem hlatest)
      refine ⟨⟨latest, howner ▸ hsole, hlatest, ?_⟩, rfl⟩
      rw [howner, buildTaskPayload_eq_iff (hkey.trans (firstOf_key py hfirst).symm)]
      exact hdetails
    · rintro ⟨⟨o, -, hlatest, hbuild⟩, hvm⟩
      have ho := List.argmax_mem hlatest
      obtain ⟨htarget, hkey⟩ := sighting_spec py herrors ho
      have howner : o.1 = t :=
        eq_of_netboxId htarget ht ((congrArg Payload.virtualMachine hbuild).trans hvm)
      have hobserved := observationsOf_eq py herrors p.upid ▸ ho
      obtain ⟨-, node, hnode, hrow, howns⟩ := (mem_observationsOf_iff py).mp hobserved
      rw [howner] at howns hbuild
      obtain ⟨first, hfirst⟩ := Option.isSome_iff_exists.mp
        (firstOf_isSome py ht hendpoint hnode (herrors node hnode) hrow hkey howns)
      obtain ⟨-, latest, hlatest', hdetails⟩ := h _ first hfirst
      obtain rfl : latest = o := Option.some.inj (hlatest'.symm.trans hlatest)
      refine ⟨first, hfirst, ?_⟩
      rw [← hbuild, eq_comm, buildTaskPayload_eq_iff (hkey.trans (firstOf_key py hfirst).symm)]
      exact hdetails

/-- The guest 100 has moved from `n1` to `n2`, and both nodes list its migration. -/
def migratedRun (endtime : ℤ) : Run where
  targets := [⟨7, some 1, "lab", 100, .qemu⟩]
  targets_nodup := List.nodup_singleton _
  targets_named := by simp
  pairs := [(0, ⟨"lab", ["n1", "n2"]⟩)]
  endpointOf session := some (session + 1)
  archive _ node := ⟨[migrationRow "100" (if node = "n1" then 10 else endtime)], false⟩

theorem targeted_agrees_iff_migrated :
    (∀ p, p ∈ (migratedRun 20).targeted .ascii sampleIso id ⟨7, some 1, "lab", 100, .qemu⟩ ↔
      p ∈ (migratedRun 20).written .ascii sampleIso id ∧ p.virtualMachine = 7) ↔
        (migratedRun 20).FirstIsLatest .ascii sampleIso ⟨7, some 1, "lab", 100, .qemu⟩ :=
  targeted_agrees_iff .ascii sampleIso id (List.mem_singleton_self _) rfl
    (by decide +kernel) (by decide +kernel)

/-- The targeted run keeps the row of the old node, the run over all VMs that of the new one. -/
theorem migrated_differs :
    (∀ node ∈ (migratedRun 20).archiveNodes, ((migratedRun 20).archiveResult node).errors = 0) ∧
    (∀ node ∈ (migratedRun 20).findClusterSources (some "lab") (some 1),
      ((migratedRun 20).guestResult .ascii 100 node).errors = 0) ∧
    (∃ p ∈ (migratedRun 20).targeted .ascii sampleIso id ⟨7, some 1, "lab", 100, .qemu⟩,
      p.endTime = some "1970-01-01T00:00:10+00:00" ∧
        p ∉ (migratedRun 20).written .ascii sampleIso id) ∧
    ∃ p ∈ (migratedRun 20).written .ascii sampleIso id, p.virtualMachine = 7 ∧
      p.endTime = some "1970-01-01T00:00:20+00:00" := by
  refine ⟨?_, ?_, ?_, ?_⟩ <;> decide +kernel

end Run
end ProxboxApi.TaskHistory
