import ProxboxApi.Outcomes
import ProxboxApi.TaskHistory

/-! Who owns the tasks of a run: the attribution of the archive rows, and what is written in any
order of the sessions, the nodes and the rows. -/

namespace ProxboxApi.TaskHistory

namespace Run

variable (py : Python) (epochIso : ℤ → Option String) (capitalize : String → String)
variable (run : Run)

/-- A row that a node lists has the Proxmox id of the target, on its cluster and, for a target with
an endpoint, on its endpoint. -/
def Matches (node : ArchiveNode) (row : Row) (t : Target) : Prop :=
  row.key ≠ none ∧ taskVmid py row = some t.vmid ∧ node.clusterName = t.clusterName ∧
    (t.endpointId = none ∨ t.endpointId = node.endpointId)

instance {node : ArchiveNode} {row : Row} {t : Target} : Decidable (Matches py node row t) :=
  inferInstanceAs (Decidable (_ ∧ _ ∧ _ ∧ _))

/-- A target without an endpoint stands alone: no target with one has its id on its cluster, and the
nodes of the cluster come from one source. -/
def StandsAlone (t : Target) : Prop :=
  (∀ t' ∈ run.targets, t'.endpointId ≠ none → t'.clusterName = t.clusterName → t'.vmid ≠ t.vmid) ∧
    ∀ node ∈ run.archiveNodes, ∀ node' ∈ run.archiveNodes, node.clusterName = t.clusterName →
      node'.clusterName = t.clusterName → node.scope = node'.scope

/-- The row is the target's: the target is the only one that it matches. -/
def Owns (node : ArchiveNode) (row : Row) (t : Target) : Prop :=
  t ∈ run.targets ∧ Matches py node row t ∧ (∀ t' ∈ run.targets, Matches py node row t' → t' = t) ∧
    (t.endpointId = none → run.StandsAlone t)

theorem ofCandidates_owned_iff {candidates : List Target} {t : Target} :
    ofCandidates candidates = .owned t ↔ candidates = [t] := by
  unfold ofCandidates
  split <;> simp_all

variable {run}

theorem targets_nodup' : run.targets.Nodup := run.targets_nodup.of_map _

theorem filter_eq_singleton_iff {p : Target → Bool} {t : Target} :
    run.targets.filter p = [t] ↔
      t ∈ run.targets ∧ p t ∧ ∀ t' ∈ run.targets, p t' → t' = t := by
  constructor
  · intro h
    have ht : t ∈ run.targets.filter p := h ▸ List.mem_singleton_self t
    rw [List.mem_filter] at ht
    refine ⟨ht.1, ht.2, fun t' ht' hp => ?_⟩
    exact List.mem_singleton.mp (h ▸ List.mem_filter.mpr ⟨ht', hp⟩)
  · rintro ⟨ht, hp, hall⟩
    rw [← List.perm_singleton,
      List.perm_ext_iff_of_nodup (targets_nodup'.filter p) (List.nodup_singleton t)]
    intro t'
    rw [List.mem_filter, List.mem_singleton]
    exact ⟨fun h => hall t' h.1 h.2, fun h => h ▸ ⟨ht, hp⟩⟩

theorem isLegacySafeCluster_iff {clusterName : String}
    (hnode : ∃ node ∈ run.archiveNodes, node.clusterName = clusterName) :
    run.isLegacySafeCluster clusterName ↔
      ∀ node ∈ run.archiveNodes, ∀ node' ∈ run.archiveNodes, node.clusterName = clusterName →
        node'.clusterName = clusterName → node.scope = node'.scope := by
  rw [isLegacySafeCluster, decide_eq_true_iff, sourceScopes, Outcomes.length_eraseDups_eq_one_iff]
  simp only [List.mem_map, List.mem_filter, decide_eq_true_eq]
  constructor
  · rintro ⟨scope, -, hall⟩ node hnode node' hnode' hname hname'
    rw [hall _ ⟨node, ⟨hnode, hname⟩, rfl⟩, hall _ ⟨node', ⟨hnode', hname'⟩, rfl⟩]
  · intro hall
    obtain ⟨node, hnode, hname⟩ := hnode
    refine ⟨node.scope, ⟨node, ⟨hnode, hname⟩, rfl⟩, ?_⟩
    rintro _ ⟨node', ⟨hnode', hname'⟩, rfl⟩
    exact hall node' hnode' node hnode hname' hname

/-- The target has the endpoint of the node. -/
def IsExact (node : ArchiveNode) (vmid : ℤ) (t : Target) : Prop :=
  (t.endpointId ≠ none ∧ t.endpointId = node.endpointId) ∧ t.clusterName = node.clusterName ∧
    t.vmid = vmid

def IsLegacy (clusterName : String) (vmid : ℤ) (t : Target) : Prop :=
  t.endpointId = none ∧ t.clusterName = clusterName ∧ t.vmid = vmid

theorem exactCandidates_eq (node : ArchiveNode) (vmid : ℤ) :
    run.exactCandidates node vmid = run.targets.filter fun t =>
      (t.endpointId ≠ none ∧ t.endpointId = node.endpointId) ∧ t.clusterName = node.clusterName ∧
        t.vmid = vmid := by
  unfold exactCandidates
  cases hendpoint : node.endpointId with
  | none =>
    symm
    rw [List.filter_eq_nil_iff]
    intro t _
    simp
  | some endpointId =>
    apply List.filter_congr
    intro t _
    rw [decide_eq_decide]
    exact ⟨fun h => ⟨⟨h.1 ▸ Option.some_ne_none _, h.1⟩, h.2⟩, fun h => ⟨h.1.2, h.2⟩⟩

theorem exactCandidates_eq_nil_iff {node : ArchiveNode} {vmid : ℤ} :
    run.exactCandidates node vmid = [] ↔ ∀ t ∈ run.targets, ¬ IsExact node vmid t := by
  simp only [exactCandidates_eq, List.filter_eq_nil_iff, decide_eq_true_eq, IsExact]

theorem exactCandidates_eq_singleton_iff {node : ArchiveNode} {vmid : ℤ} {t : Target} :
    run.exactCandidates node vmid = [t] ↔
      t ∈ run.targets ∧ IsExact node vmid t ∧ ∀ t' ∈ run.targets, IsExact node vmid t' → t' = t := by
  simp only [exactCandidates_eq, filter_eq_singleton_iff, decide_eq_true_eq, IsExact]

theorem legacy_eq_singleton_iff {clusterName : String} {vmid : ℤ} {t : Target} :
    run.legacy clusterName vmid = [t] ↔ t ∈ run.targets ∧ IsLegacy clusterName vmid t ∧
      ∀ t' ∈ run.targets, IsLegacy clusterName vmid t' → t' = t := by
  simp only [legacy, filter_eq_singleton_iff, decide_eq_true_eq, IsLegacy]

theorem isMixedIdentityCollision_iff {clusterName : String} {vmid : ℤ} :
    run.isMixedIdentityCollision clusterName vmid ↔
      (∃ t ∈ run.targets, t.endpointId ≠ none ∧ t.clusterName = clusterName ∧ t.vmid = vmid) ∧
        ∃ t ∈ run.targets, IsLegacy clusterName vmid t := by
  simp [isMixedIdentityCollision, legacy, IsLegacy]

theorem matches_iff {node : ArchiveNode} {row : Row} {vmid : ℤ} {upid : String}
    (hvmid : taskVmid py row = some vmid) (hkey : row.key = some upid) (t : Target) :
    Matches py node row t ↔ IsExact node vmid t ∨ IsLegacy node.clusterName vmid t := by
  simp only [Matches, IsExact, IsLegacy, hvmid, hkey, ne_eq, reduceCtorEq, not_false_iff, true_and,
    Option.some.injEq]
  by_cases hnone : t.endpointId = none
  · simp only [hnone, not_true, false_and, false_or, true_or, true_and, and_true]
    exact ⟨fun h => ⟨h.2.symm, h.1.symm⟩, fun h => ⟨h.2.symm, h.1.symm⟩⟩
  · simp only [hnone, not_false_iff, false_and, or_false, false_or, true_and]
    exact ⟨fun h => ⟨h.2.2, h.2.1.symm, h.1.symm⟩, fun h => ⟨h.2.2.symm, h.2.1.symm, h.1⟩⟩

theorem attributeTo_owned_iff {node : ArchiveNode} {vmid : ℤ} {t : Target} :
    run.attributeTo node vmid = .owned t ↔
      run.isMixedIdentityCollision node.clusterName vmid = false ∧
        (run.exactCandidates node vmid = [t] ∨ run.exactCandidates node vmid = [] ∧
          run.legacy node.clusterName vmid = [t] ∧ run.isLegacySafeCluster node.clusterName) := by
  unfold attributeTo
  cases run.isMixedIdentityCollision node.clusterName vmid with
  | true => simp
  | false =>
    cases run.exactCandidates node vmid with
    | cons c cs => simp [ofCandidates_owned_iff]
    | nil =>
      cases hlegacy : run.legacy node.clusterName vmid with
      | nil => simp
      | cons l ls =>
        cases run.isLegacySafeCluster node.clusterName <;> simp [ofCandidates_owned_iff]

theorem owns_of_exact {node : ArchiveNode} {row : Row} {vmid : ℤ} {t : Target}
    (hmatches : ∀ t, Matches py node row t ↔ IsExact node vmid t ∨ IsLegacy node.clusterName vmid t)
    (hmixed : run.isMixedIdentityCollision node.clusterName vmid = false)
    (h : run.exactCandidates node vmid = [t]) : run.Owns py node row t := by
  obtain ⟨ht, hexact, honly⟩ := exactCandidates_eq_singleton_iff.mp h
  refine ⟨ht, (hmatches t).mpr (.inl hexact), fun t' ht' hmatch => ?_, fun hnone => ?_⟩
  · rcases (hmatches t').mp hmatch with hexact' | hlegacy'
    · exact honly t' ht' hexact'
    · have hcollision := isMixedIdentityCollision_iff.mpr
        ⟨⟨t, ht, hexact.1.1, hexact.2⟩, t', ht', hlegacy'⟩
      rw [hmixed] at hcollision
      cases hcollision
  · exact absurd hnone hexact.1.1

theorem owns_of_legacy {node : ArchiveNode} (hnode : node ∈ run.archiveNodes) {row : Row} {vmid : ℤ}
    {t : Target}
    (hmatches : ∀ t, Matches py node row t ↔ IsExact node vmid t ∨ IsLegacy node.clusterName vmid t)
    (hmixed : run.isMixedIdentityCollision node.clusterName vmid = false)
    (hexact : run.exactCandidates node vmid = []) (h : run.legacy node.clusterName vmid = [t])
    (hsafe : run.isLegacySafeCluster node.clusterName) : run.Owns py node row t := by
  obtain ⟨ht, hlegacy, honly⟩ := legacy_eq_singleton_iff.mp h
  have hnoExact := exactCandidates_eq_nil_iff.mp hexact
  refine ⟨ht, (hmatches t).mpr (.inr hlegacy), fun t' ht' hmatch => ?_, fun _ => ⟨?_, ?_⟩⟩
  · rcases (hmatches t').mp hmatch with hexact' | hlegacy'
    · exact absurd hexact' (hnoExact t' ht')
    · exact honly t' ht' hlegacy'
  · intro t' ht' hendpoint hname hvmid
    have hcollision := isMixedIdentityCollision_iff.mpr
      ⟨⟨t', ht', hendpoint, hname.trans hlegacy.2.1, hvmid.trans hlegacy.2.2⟩, t, ht, hlegacy⟩
    rw [hmixed] at hcollision
    cases hcollision
  · rw [hlegacy.2.1]
    exact (isLegacySafeCluster_iff ⟨node, hnode, rfl⟩).mp hsafe

/-- A row is attributed to the one target that owns it. -/
theorem attributionOf_owned_iff {node : ArchiveNode} (hnode : node ∈ run.archiveNodes) {row : Row}
    {t : Target} : run.attributionOf py node row = .owned t ↔ run.Owns py node row t := by
  unfold attributionOf
  cases hvmid : taskVmid py row with
  | none => simp [Owns, Matches, hvmid]
  | some vmid =>
    cases hkey : row.key with
    | none => simp [Owns, Matches, hkey]
    | some upid =>
      have hmatches := @matches_iff py node row vmid upid hvmid hkey
      simp only
      rw [attributeTo_owned_iff]
      constructor
      · rintro ⟨hmixed, hexact | ⟨hexact, hlegacy, hsafe⟩⟩
        · exact owns_of_exact py hmatches hmixed hexact
        · exact owns_of_legacy py hnode hmatches hmixed hexact hlegacy hsafe
      · rintro ⟨ht, hmatch, honly, halone⟩
        rcases (hmatches t).mp hmatch with hexact | hlegacy
        · refine ⟨?_, .inl ?_⟩
          · rw [Bool.eq_false_iff, ne_eq, isMixedIdentityCollision_iff]
            rintro ⟨-, t', ht', hlegacy'⟩
            have hsame := honly t' ht' ((hmatches t').mpr (.inr hlegacy'))
            exact hexact.1.1 (hsame ▸ hlegacy'.1)
          · rw [exactCandidates_eq_singleton_iff]
            exact ⟨ht, hexact, fun t' ht' h => honly t' ht' ((hmatches t').mpr (.inl h))⟩
        · obtain ⟨hapart, hsource⟩ := halone hlegacy.1
          refine ⟨?_, .inr ⟨?_, ?_, ?_⟩⟩
          · rw [Bool.eq_false_iff, ne_eq, isMixedIdentityCollision_iff]
            rintro ⟨⟨t', ht', hendpoint, hname, hvmid'⟩, -⟩
            exact hapart t' ht' hendpoint (hname.trans hlegacy.2.1.symm)
              (hvmid'.trans hlegacy.2.2.symm)
          · rw [exactCandidates_eq_nil_iff]
            intro t' ht' hexact'
            have hsame := honly t' ht' ((hmatches t').mpr (.inl hexact'))
            exact hexact'.1.1 (hsame ▸ hlegacy.1)
          · rw [legacy_eq_singleton_iff]
            exact ⟨ht, hlegacy, fun t' ht' h => honly t' ht' ((hmatches t').mpr (.inr h))⟩
          · rw [hlegacy.2.1] at hsource
            exact (isLegacySafeCluster_iff ⟨node, hnode, rfl⟩).mpr hsource

theorem observation_eq_some_iff {a : Attribution} {row : Row} {o : Target × Row} :
    observation (a, row) = some o ↔ a = .owned o.1 ∧ row = o.2 := by
  cases a <;> simp [observation, Prod.ext_iff]

theorem mem_observationsOf_iff {upid : String} {t : Target} {row : Row} :
    (t, row) ∈ run.observationsOf py upid ↔
      row.key = some upid ∧ ∃ node ∈ run.archiveNodes, row ∈ run.tasks node ∧
        run.Owns py node row t := by
  simp only [observationsOf, observations, attributions, List.mem_filter, List.mem_filterMap,
    List.mem_flatMap, List.mem_map, decide_eq_true_eq]
  constructor
  · rintro ⟨⟨_, ⟨node, hnode, row', hrow', rfl⟩, h⟩, hkey⟩
    obtain ⟨howned, rfl⟩ := observation_eq_some_iff.mp h
    exact ⟨hkey, node, hnode, hrow', (attributionOf_owned_iff py hnode).mp howned⟩
  · rintro ⟨hkey, node, hnode, hrow, howns⟩
    refine ⟨⟨_, ⟨node, hnode, row, hrow, rfl⟩, ?_⟩, hkey⟩
    exact observation_eq_some_iff.mpr ⟨(attributionOf_owned_iff py hnode).mpr howns, rfl⟩

theorem mem_targets_of_observed {upid : String} {o : Target × Row}
    (h : o ∈ run.observationsOf py upid) : o.1 ∈ run.targets := by
  obtain ⟨t, row⟩ := o
  obtain ⟨-, node, -, -, howns⟩ := (mem_observationsOf_iff py).mp h
  exact howns.1

theorem eq_of_netboxId {t t' : Target} (ht : t ∈ run.targets) (ht' : t' ∈ run.targets)
    (h : t.netboxId = t'.netboxId) : t = t' :=
  List.inj_on_of_nodup_map run.targets_nodup ht ht' h

/-- All the observations of a UPID are one target's. -/
def SoleOwner (run : Run) (upid : String) (t : Target) : Prop :=
  ∀ o ∈ run.observationsOf py upid, o.1 = t

/-- A UPID is written for its sole owner, from the latest of its rows. -/
theorem payloadOf_eq_some_iff {upid : String} {p : Payload} :
    run.payloadOf py epochIso capitalize upid = some p ↔ ∃ o, SoleOwner py run upid o.1 ∧
      ((run.observationsOf py upid).argmax fun o => times o.2) = some o ∧
      buildTaskPayload py epochIso capitalize o.1.netboxId o.1.vmType o.2 = p := by
  have howners : (run.owners py upid).length = 1 ↔ ∃ o ∈ run.observationsOf py upid,
      SoleOwner py run upid o.1 := by
    rw [owners, Outcomes.length_eraseDups_eq_one_iff]
    simp only [List.mem_map]
    constructor
    · rintro ⟨_, ⟨o, ho, rfl⟩, hall⟩
      refine ⟨o, ho, fun o' ho' => ?_⟩
      exact eq_of_netboxId (mem_targets_of_observed py ho') (mem_targets_of_observed py ho)
        (hall _ ⟨o', ho', rfl⟩)
    · rintro ⟨o, ho, hsole⟩
      refine ⟨_, ⟨o, ho, rfl⟩, ?_⟩
      rintro _ ⟨o', ho', rfl⟩
      rw [hsole o' ho']
  unfold payloadOf
  rw [Option.ite_none_right_eq_some, howners, Option.map_eq_some_iff]
  constructor
  · rintro ⟨⟨o, -, hsole⟩, latest, hlatest, rfl⟩
    have heq : latest.1 = o.1 := hsole latest (List.argmax_mem hlatest)
    exact ⟨latest, heq ▸ hsole, hlatest, rfl⟩
  · rintro ⟨latest, hsole, hlatest, rfl⟩
    exact ⟨⟨latest, List.argmax_mem hlatest, hsole⟩, latest, hlatest, rfl⟩

theorem payloadOf_isSome_iff {upid : String} :
    (run.payloadOf py epochIso capitalize upid).isSome ↔
      ∃ o ∈ run.observationsOf py upid, SoleOwner py run upid o.1 := by
  rw [Option.isSome_iff_exists]
  constructor
  · rintro ⟨p, hp⟩
    obtain ⟨o, hsole, hlatest, -⟩ := (payloadOf_eq_some_iff py epochIso capitalize).mp hp
    exact ⟨o, List.argmax_mem hlatest, hsole⟩
  · rintro ⟨o, ho, hsole⟩
    cases hlatest : (run.observationsOf py upid).argmax (fun o => times o.2) with
    | none =>
      rw [List.argmax_eq_none] at hlatest
      rw [hlatest] at ho
      cases ho
    | some latest =>
      have howner : latest.1 = o.1 := hsole latest (List.argmax_mem hlatest)
      exact ⟨_, (payloadOf_eq_some_iff py epochIso capitalize).mpr
        ⟨latest, howner ▸ hsole, hlatest, rfl⟩⟩

theorem upid_of_payloadOf {upid : String} {p : Payload}
    (h : run.payloadOf py epochIso capitalize upid = some p) : p.upid = upid := by
  obtain ⟨o, -, hlatest, rfl⟩ := (payloadOf_eq_some_iff py epochIso capitalize).mp h
  have hkey := ((mem_observationsOf_iff py).mp (List.argmax_mem hlatest)).1
  simp [buildTaskPayload, hkey]

theorem mem_upids_of_observed {upid : String} {o : Target × Row}
    (h : o ∈ run.observationsOf py upid) : upid ∈ run.upids py := by
  rw [observationsOf, List.mem_filter, decide_eq_true_iff] at h
  rw [upids, List.mem_eraseDups, List.mem_filterMap]
  exact ⟨o, h.1, h.2⟩

theorem mem_payloads_iff {p : Payload} : p ∈ run.payloads py epochIso capitalize ↔
    run.payloadOf py epochIso capitalize p.upid = some p := by
  rw [payloads, List.mem_filterMap]
  constructor
  · rintro ⟨upid, -, h⟩
    rw [upid_of_payloadOf py epochIso capitalize h]
    exact h
  · intro h
    obtain ⟨o, -, hlatest, -⟩ := (payloadOf_eq_some_iff py epochIso capitalize).mp h
    exact ⟨p.upid, mem_upids_of_observed py (List.argmax_mem hlatest), h⟩

theorem payloads_nodup :
    ((run.payloads py epochIso capitalize).map Payload.upid).Nodup := by
  have hupids : ((run.upids py).filterMap (run.payloadOf py epochIso capitalize)).map Payload.upid
      = (run.upids py).filter fun upid => (run.payloadOf py epochIso capitalize upid).isSome := by
    rw [List.map_filterMap, ← List.filterMap_eq_filter]
    apply List.filterMap_congr
    intro upid _
    cases h : run.payloadOf py epochIso capitalize upid with
    | none => simp [Option.guard, h]
    | some p => simp [Option.guard, h, upid_of_payloadOf py epochIso capitalize h]
  unfold payloads
  rw [hupids]
  exact (Outcomes.nodup_eraseDups _).filter _

theorem payloads_eq_nil (h : ∀ node ∈ run.archiveNodes, ∀ row ∈ run.tasks node, ∀ t,
    ¬ run.Owns py node row t) : run.payloads py epochIso capitalize = [] := by
  rw [List.eq_nil_iff_forall_not_mem]
  intro p hp
  rw [mem_payloads_iff, payloadOf_eq_some_iff] at hp
  obtain ⟨o, -, hlatest, -⟩ := hp
  obtain ⟨-, node, hnode, hrow, howns⟩ :=
    (mem_observationsOf_iff py).mp (List.argmax_mem hlatest)
  exact h node hnode o.2 hrow o.1 howns

/-- A run that raises has nothing to write. -/
theorem written_eq :
    run.written py epochIso capitalize = run.payloads py epochIso capitalize := by
  unfold written syncAllVirtualMachineTaskHistories
  simp only
  split_ifs with htargets hfailed
  · symm
    apply payloads_eq_nil
    intro node _ row _ t howns
    rw [List.isEmpty_iff] at htargets
    exact absurd howns.1 (htargets ▸ List.not_mem_nil)
  · symm
    apply payloads_eq_nil
    intro node hnode row hrow
    rw [List.all_map, List.all_eq_true] at hfailed
    have hunread : (run.archiveResult node).successfulRequest = false := by
      simpa using hfailed node hnode
    have hempty : run.tasks node = [] := tasks_of_unsuccessful hunread
    rw [hempty] at hrow
    cases hrow
  · rfl

/-- The same run in another order: the targets, the sessions with their nodes, and the rows of
archives that name each of their tasks once. -/
structure Reordered (run run' : Run) : Prop where
  targets : run'.targets.Perm run.targets
  endpointOf : run'.endpointOf = run.endpointOf
  pairs : ∃ pairs, pairs.Perm run.pairs ∧ List.Forall₂ (fun pair pair' =>
    pair'.1 = pair.1 ∧ pair'.2.name = pair.2.name ∧ pair'.2.nodes.Perm pair.2.nodes) pairs run'.pairs
  archive : ∀ session node, run'.archive session node = run.archive session node ∨
    Distinct (run.archive session node).rows ∧
      (run'.archive session node).rows.Perm (run.archive session node).rows

/-- Two collected rows of the UPID differ and have the same times. -/
def Tied (run : Run) (upid : String) : Prop :=
  ∃ node ∈ run.archiveNodes, ∃ row ∈ run.tasks node, ∃ node' ∈ run.archiveNodes,
    ∃ row' ∈ run.tasks node', row.key = some upid ∧ row'.key = some upid ∧ row ≠ row' ∧
      times row = times row'

theorem mem_archiveNodes_iff {node : ArchiveNode} : node ∈ run.archiveNodes ↔
    ∃ pair ∈ run.pairs, pair.1 = node.session ∧ pair.2.name = node.clusterName ∧
      node.nodeName ∈ pair.2.nodes ∧ node.endpointId = run.endpointOf node.session ∧
        run.matchedScopes node.endpointId node.clusterName ≠ [] := by
  rw [archiveNodes, List.mem_eraseDups, List.mem_flatMap]
  constructor
  · rintro ⟨⟨session, status⟩, hpair, hnode⟩
    simp only at hnode
    split_ifs at hnode with hscopes
    · cases hnode
    · obtain ⟨name, hname, rfl⟩ := List.mem_map.mp hnode
      rw [List.isEmpty_iff] at hscopes
      exact ⟨_, hpair, rfl, rfl, hname, rfl, hscopes⟩
  · rintro ⟨⟨session, status⟩, hpair, hsession, hcluster, hname, hendpoint, hscopes⟩
    refine ⟨_, hpair, ?_⟩
    simp only at hsession hcluster hname
    subst hsession
    simp only [hcluster, ← hendpoint, List.isEmpty_iff, hscopes, if_false]
    exact List.mem_map.mpr ⟨_, hname, rfl⟩

theorem Reordered.matchedScopes {run run' : Run} (h : Reordered run run') :
    run'.matchedScopes = run.matchedScopes := by
  funext endpointId clusterName
  unfold Run.matchedScopes
  apply List.filter_congr
  intro scope _
  exact h.targets.any_eq

theorem Reordered.mem_archiveNodes {run run' : Run} (h : Reordered run run')
    {node : ArchiveNode} : node ∈ run'.archiveNodes ↔ node ∈ run.archiveNodes := by
  obtain ⟨pairs, hperm, hpairs⟩ := h.pairs
  rw [mem_archiveNodes_iff, mem_archiveNodes_iff, h.endpointOf, h.matchedScopes]
  constructor
  · rintro ⟨pair', hpair', hsession, hcluster, hname, hrest⟩
    obtain ⟨pair, hpair, hsession', hcluster', hnodes⟩ := Outcomes.exists_of_forall₂ hpairs hpair'
    exact ⟨pair, hperm.mem_iff.mp hpair, hsession' ▸ hsession, hcluster' ▸ hcluster,
      hnodes.mem_iff.mp hname, hrest⟩
  · rintro ⟨pair, hpair, hsession, hcluster, hname, hrest⟩
    obtain ⟨pair', hpair', hsession', hcluster', hnodes⟩ :=
      Outcomes.exists_of_forall₂ hpairs.flip (hperm.mem_iff.mpr hpair)
    exact ⟨pair', hpair', hsession'.trans hsession, hcluster'.trans hcluster,
      hnodes.mem_iff.mpr hname, hrest⟩

theorem Reordered.mem_tasks {run run' : Run} (h : Reordered run run') {node : ArchiveNode}
    {row : Row} : row ∈ run'.tasks node ↔ row ∈ run.tasks node := by
  unfold tasks archiveResult
  rcases h.archive node.session node.nodeName with heq | ⟨hdistinct, hperm⟩
  · rw [heq]
  · rw [tasks_of_distinct hdistinct, tasks_of_distinct (hdistinct.perm hperm)]
    exact (hperm.map _).mem_iff

theorem Reordered.owns_iff {run run' : Run} (h : Reordered run run') {node : ArchiveNode}
    {row : Row} {t : Target} : run'.Owns py node row t ↔ run.Owns py node row t := by
  simp only [Owns, StandsAlone, h.targets.mem_iff, h.mem_archiveNodes]

theorem Reordered.mem_observationsOf {run run' : Run} (h : Reordered run run') {upid : String}
    {o : Target × Row} : o ∈ run'.observationsOf py upid ↔ o ∈ run.observationsOf py upid := by
  obtain ⟨t, row⟩ := o
  simp only [mem_observationsOf_iff, h.mem_archiveNodes, h.mem_tasks, h.owns_iff py]

theorem Reordered.soleOwner_iff {run run' : Run} (h : Reordered run run') {upid : String}
    {t : Target} : SoleOwner py run' upid t ↔ SoleOwner py run upid t := by
  simp only [SoleOwner, h.mem_observationsOf py]

/-- A UPID that one run writes is written by the other for the same target, and from the same row
unless two rows tie. -/
theorem Reordered.payloadOf_eq {run run' : Run} (h : Reordered run run') {upid : String}
    {p p' : Payload} (hp : run.payloadOf py epochIso capitalize upid = some p)
    (hp' : run'.payloadOf py epochIso capitalize upid = some p') :
    p'.virtualMachine = p.virtualMachine ∧ (Tied run upid ∨ p' = p) := by
  obtain ⟨o, hsole, hlatest, rfl⟩ := (payloadOf_eq_some_iff py epochIso capitalize).mp hp
  obtain ⟨o', -, hlatest', rfl⟩ := (payloadOf_eq_some_iff py epochIso capitalize).mp hp'
  have ho := List.argmax_mem hlatest
  have ho' := (h.mem_observationsOf py).mp (List.argmax_mem hlatest')
  have howner : o'.1 = o.1 := hsole o' ho'
  refine ⟨by rw [howner]; rfl, ?_⟩
  by_cases hrow : o'.2 = o.2
  · right
    rw [howner, hrow]
  · left
    have hle := List.le_of_mem_argmax ho' hlatest
    have hge := List.le_of_mem_argmax ((h.mem_observationsOf py).mpr ho) hlatest'
    obtain ⟨hkey', node', hnode', hrow', -⟩ := (mem_observationsOf_iff py).mp ho'
    obtain ⟨hkey, node, hnode, hrow'', -⟩ := (mem_observationsOf_iff py).mp ho
    exact ⟨node', hnode', o'.2, hrow', node, hnode, o.2, hrow'', hkey', hkey, hrow,
      le_antisymm hle hge⟩

theorem Reordered.isSome_payloadOf {run run' : Run} (h : Reordered run run') (upid : String) :
    (run'.payloadOf py epochIso capitalize upid).isSome =
      (run.payloadOf py epochIso capitalize upid).isSome := by
  rw [Bool.eq_iff_iff, payloadOf_isSome_iff, payloadOf_isSome_iff]
  simp only [h.mem_observationsOf py, h.soleOwner_iff py]

theorem Reordered.map_payloadOf {run run' : Run} (h : Reordered run run') (upid : String) :
    (run'.payloadOf py epochIso capitalize upid).map Payload.virtualMachine =
      (run.payloadOf py epochIso capitalize upid).map Payload.virtualMachine := by
  have hsome := h.isSome_payloadOf py epochIso capitalize upid
  cases hp : run.payloadOf py epochIso capitalize upid with
  | none =>
    rw [hp, Option.isSome_none, Option.isSome_eq_false_iff, Option.isNone_iff_eq_none] at hsome
    rw [hsome]
  | some p =>
    rw [hp, Option.isSome_some, Option.isSome_iff_exists] at hsome
    obtain ⟨p', hp'⟩ := hsome
    rw [hp', Option.map_some, Option.map_some,
      (h.payloadOf_eq py epochIso capitalize hp hp').1]

theorem Reordered.payloadOf_of_not_tied {run run' : Run} (h : Reordered run run') {upid : String}
    (htied : ¬ Tied run upid) : run'.payloadOf py epochIso capitalize upid =
      run.payloadOf py epochIso capitalize upid := by
  have hsome := h.isSome_payloadOf py epochIso capitalize upid
  cases hp : run.payloadOf py epochIso capitalize upid with
  | none =>
    rw [hp, Option.isSome_none, Option.isSome_eq_false_iff, Option.isNone_iff_eq_none] at hsome
    exact hsome
  | some p =>
    rw [hp, Option.isSome_some, Option.isSome_iff_exists] at hsome
    obtain ⟨p', hp'⟩ := hsome
    rcases (h.payloadOf_eq py epochIso capitalize hp hp').2 with htie | rfl
    · exact absurd htie htied
    · exact hp'

theorem exists_payload_iff {upid : String} {vm : ℤ} :
    (∃ p ∈ run.payloads py epochIso capitalize, p.upid = upid ∧ p.virtualMachine = vm) ↔
      (run.payloadOf py epochIso capitalize upid).map Payload.virtualMachine = some vm := by
  rw [Option.map_eq_some_iff]
  constructor
  · rintro ⟨p, hp, rfl, rfl⟩
    exact ⟨p, (mem_payloads_iff py epochIso capitalize).mp hp, rfl⟩
  · rintro ⟨p, hp, rfl⟩
    obtain rfl := upid_of_payloadOf py epochIso capitalize hp
    exact ⟨p, (mem_payloads_iff py epochIso capitalize).mpr hp, rfl, rfl⟩

variable (run)

/-- Each UPID is written once, for the owner of its rows, in any order of the run. -/
theorem written_owned :
    (∀ p ∈ run.written py epochIso capitalize, ∃ t ∈ run.targets, p.virtualMachine = t.netboxId ∧
      (∃ node ∈ run.archiveNodes, ∃ row ∈ run.tasks node, row.key = some p.upid ∧
        run.Owns py node row t ∧
        p = buildTaskPayload py epochIso capitalize t.netboxId t.vmType row) ∧
      ∀ node ∈ run.archiveNodes, ∀ row ∈ run.tasks node, row.key = some p.upid →
        ∀ t', run.Owns py node row t' → t' = t) ∧
    ((run.written py epochIso capitalize).map Payload.upid).Nodup ∧
    ∀ run', Reordered run run' →
      (∀ upid vm,
        (∃ p ∈ run'.written py epochIso capitalize, p.upid = upid ∧ p.virtualMachine = vm) ↔
          ∃ p ∈ run.written py epochIso capitalize, p.upid = upid ∧ p.virtualMachine = vm) ∧
      ∀ p : Payload, ¬ Tied run p.upid →
        (p ∈ run'.written py epochIso capitalize ↔ p ∈ run.written py epochIso capitalize) := by
  simp only [written_eq]
  refine ⟨fun p hp => ?_, payloads_nodup py epochIso capitalize, fun run' h => ⟨?_, ?_⟩⟩
  · obtain ⟨o, hsole, hlatest, hbuild⟩ := (payloadOf_eq_some_iff py epochIso capitalize).mp
      ((mem_payloads_iff py epochIso capitalize).mp hp)
    have ho := List.argmax_mem hlatest
    obtain ⟨hkey, node, hnode, hrow, howns⟩ := (mem_observationsOf_iff py).mp ho
    refine ⟨o.1, howns.1, by rw [← hbuild]; rfl, ⟨node, hnode, o.2, hrow, hkey, howns, hbuild.symm⟩, ?_⟩
    intro node' hnode' row' hrow' hkey' t' howns'
    exact hsole (t', row')
      ((mem_observationsOf_iff py).mpr ⟨hkey', node', hnode', hrow', howns'⟩)
  · intro upid vm
    rw [exists_payload_iff, exists_payload_iff, h.map_payloadOf]
  · intro p htied
    rw [mem_payloads_iff, mem_payloads_iff,
      h.payloadOf_of_not_tied py epochIso capitalize htied]

/-- The migration of a guest, as a node reports it. -/
def migrationRow (vmid : String) (endtime : ℤ) : Row where
  upid := some "UPID:n1:0001:qmigrate:root@pam:"
  id := some vmid
  vmid := none
  node := some "n1"
  type := some "qmigrate"
  user := some "root@pam"
  status := some "OK"
  exitstatus := none
  pid := some 1
  pstart := some 1
  starttime := some 0
  endtime := some endtime

def sampleIso : ℤ → Option String
  | 0 => some "1970-01-01T00:00:00+00:00"
  | 10 => some "1970-01-01T00:00:10+00:00"
  | 20 => some "1970-01-01T00:00:20+00:00"
  | _ => none

/-- The node `n1` lists rows of the guest 100, and the node `n2` one of the guest 200. -/
def migrationRun (endpointId : Option ℤ) (endtimes : List ℤ) (pairs : List (ℕ × ClusterStatus)) :
    Run where
  targets := [⟨7, endpointId, "lab", 100, .qemu⟩]
  targets_nodup := List.nodup_singleton _
  targets_named := by simp
  pairs := pairs
  endpointOf session := some (session + 1)
  archive _ node :=
    if node = "n1" then ⟨endtimes.map (migrationRow "100"), false⟩
    else ⟨[migrationRow "200" 10], false⟩

/-- A UPID is written although another guest's row has it; which of two rows of one archive it is
written from goes by their order; and a cluster with a second source that lists no nodes still has
its task written for a target without an endpoint. -/
theorem stray_rows_ignored :
    (let run := migrationRun (some 1) [10] [(0, ⟨"lab", ["n1", "n2"]⟩)]
      ∃ p ∈ run.written .ascii sampleIso id, p.virtualMachine = 7 ∧
        ∃ node ∈ run.archiveNodes, ∃ row ∈ run.tasks node, row.key = some p.upid ∧
          ∀ t ∈ run.targets, ¬ Matches .ascii node row t) ∧
    (migrationRun (some 1) [10, 20] [(0, ⟨"lab", ["n1"]⟩)]).written .ascii sampleIso id ≠
      (migrationRun (some 1) [20, 10] [(0, ⟨"lab", ["n1"]⟩)]).written .ascii sampleIso id ∧
    times (migrationRow "100" 10) ≠ times (migrationRow "100" 20) ∧
    (migrationRun none [10] [(0, ⟨"lab", ["n1"]⟩), (1, ⟨"lab", []⟩)]).written .ascii sampleIso id ≠
      [] := by
  refine ⟨?_, ?_, ?_, ?_⟩ <;> decide +kernel

end Run
end ProxboxApi.TaskHistory
