import ProxboxApi.IdentityVerdict
import ProxboxApi.Outcomes
import ProxboxApi.SidecarQueue

/-! When the hydration of the snapshot leads the queue to the records that the sidecar names. -/

namespace ProxboxApi.VmQueue

open SyncState

variable {py : Python} {inv : Inventory py} {legacyEnabled : Bool} {indexes : Indexes}
variable {s s' t : HydrationState} {w vm : StoredVm py} {g p q : KindedGuest}

section Turn

variable (inv legacyEnabled) in
theorem sidecarVm_cases (g : Guest) :
    (∃ found w, resolvePayload inv legacyEnabled g.prepared.desiredPayload g.vmid
        (some g.clusterId) (some g.clusterId) = some ⟨found, w.id, .sidecar⟩ ∧
      inv.find w.id = some w ∧ sidecarVm inv legacyEnabled g = some w) ∨
    (sidecarVm inv legacyEnabled g = none ∧ ∀ found id,
      resolvePayload inv legacyEnabled g.prepared.desiredPayload g.vmid (some g.clusterId)
        (some g.clusterId) = some ⟨found, id, .sidecar⟩ → inv.find id = none) := by
  unfold sidecarVm
  split
  · rename_i found id hresolve
    cases hfind : inv.find id with
    | some w =>
      obtain ⟨-, rfl⟩ := Inventory.find_eq_some_iff.mp hfind
      exact Or.inl ⟨found, w, hresolve, hfind, rfl⟩
    | none =>
      refine Or.inr ⟨rfl, ?_⟩
      intro found' id' hresolve'
      rw [hresolve] at hresolve'
      cases hresolve'
      exact hfind
  · rename_i hother
    exact Or.inr ⟨rfl, fun found id hresolve => absurd hresolve (hother found id)⟩

/-- A turn overlays the VM that the resolver names, or leaves the snapshot. -/
theorem turn_snapshot (hs : OfInventory inv s.snapshot)
    (h : turn inv legacyEnabled indexes s g = some s') :
    s'.snapshot = match overlaidVm inv legacyEnabled indexes s g.toGuest with
      | some w => overlaid py s.snapshot w g
      | none => s.snapshot := by
  have hvmid : preparedProxmoxVmid py g.prepared = some (some g.vmid) := by
    simp [preparedProxmoxVmid, g.vmid_eq, relationId, relationCandidate, Option.filter, g.vmid_pos]
  have hcluster : relationId py (field "cluster" g.prepared.desiredPayload) =
      some (some g.clusterId) := by
    rw [g.cluster_eq]
    rfl
  unfold turn hydrateOne at h
  rw [hvmid, Option.bind_eq_bind, Option.bind_some] at h
  dsimp only at h
  rw [hcluster] at h
  simp only [Option.bind_some] at h
  unfold overlaidVm Guest.endpointId
  split_ifs at h ⊢
  · obtain rfl := Option.some.inj h
    rfl
  · obtain rfl := Option.some.inj h
    rfl
  · rcases sidecarVm_cases inv legacyEnabled g.toGuest with
      ⟨found, w, hresolve, hfind, hsidecar⟩ | ⟨hsidecar, hnone⟩
    · rw [hresolve] at h
      dsimp only at h
      rw [hfind] at h
      obtain rfl := Option.some.inj h
      rw [hsidecar]
      exact overlay_snapshot hs (Inventory.find_eq_some_iff.mp hfind).1
    · rw [hsidecar]
      split at h
      · rename_i found id hresolve
        rw [hnone found id hresolve] at h
        obtain rfl := Option.some.inj h
        rfl
      · obtain rfl := Option.some.inj h
        rfl

theorem turn_ofInventory (hs : OfInventory inv s.snapshot)
    (h : turn inv legacyEnabled indexes s g = some s') : OfInventory inv s'.snapshot := by
  rcases hydrateOne_snapshot h with heq | ⟨vm, hvm, vmid, endpointId, heq⟩
  · exact heq ▸ hs
  · exact heq ▸ hs.overlay hvm

/-- An overlaid VM is one of NetBox, in the cluster of the guest. -/
theorem overlaidVm_mem
    (h : overlaidVm inv legacyEnabled indexes s g.toGuest = some w) :
    w ∈ inv.vms ∧ w.cluster = some g.clusterId := by
  unfold overlaidVm at h
  split_ifs at h
  rcases sidecarVm_cases inv legacyEnabled g.toGuest with
    ⟨found, w', hresolve, hfind, hsidecar⟩ | ⟨hsidecar, -⟩
  · obtain rfl : w = w' := Option.some.inj (h.symm.trans hsidecar)
    refine ⟨(Inventory.find_eq_some_iff.mp hfind).1, ?_⟩
    unfold resolvePayload at hresolve
    rw [if_pos g.vmid_pos] at hresolve
    have hread := sidecarRead_of_source (Option.join_eq_some_iff.mp hresolve) rfl
    obtain ⟨i, row, -, hverified⟩ := hread
    obtain ⟨-, vm, hvm, hcluster⟩ := hverified g.clusterId rfl
    have hidentity : inv.netBox.find w.id = some w.identity := by
      unfold NetBox.find
      unfold Inventory.find at hfind
      change (inv.vms.map (·.identity)).find? (·.id = w.id) = _
      rw [List.find?_map]
      exact congrArg (Option.map _) hfind
    obtain rfl := Option.some.inj (hidentity.symm.trans hvm)
    exact hcluster
  · rw [hsidecar] at h
    contradiction

/-- The match of another guest stays through a turn exactly if the overlay does not disturb it. -/
theorem steady_iff (hs : OfInventory inv s.snapshot) {guests : List KindedGuest}
    (h : turn inv legacyEnabled indexes s q = some s') :
    Steady inv legacyEnabled indexes guests s q ↔
      ∀ w, overlaidVm inv legacyEnabled indexes s q.toGuest = some w → ∀ p ∈ guests,
        p.identity py ≠ q.identity py → Undisturbed s.snapshot w q p := by
  have hsnapshot := turn_snapshot hs h
  unfold Steady
  simp only [h, Option.some.injEq, forall_eq']
  rw [hsnapshot]
  cases hoverlaid : overlaidVm inv legacyEnabled indexes s q.toGuest with
  | none => simp
  | some w =>
    obtain ⟨a, r, b, hsplit, hbetween⟩ := hs.split (overlaidVm_mem hoverlaid).1
    simp only [Option.some.injEq, forall_eq']
    rw [hsplit]
    constructor
    · intro hsteady p hp hne
      exact hbetween.matchedId_overlaid_iff.mp (hsteady p hp hne)
    · intro hundisturbed p hp hne
      exact hbetween.matchedId_overlaid_iff.mpr (hundisturbed p hp hne)

/-- After its turn a guest is matched with a VM exactly if the turn reaches it. -/
theorem matchedId_turn (hint : ∀ n : ℤ, py.parseInt (toString n) = some n)
    (hs : OfInventory inv s.snapshot) (h : turn inv legacyEnabled indexes s q = some s') :
    matchedId py s'.snapshot q.prepared = some (some vm.id) ↔
      Reaches inv legacyEnabled indexes s q vm := by
  unfold Reaches
  rw [turn_snapshot hs h]
  cases hoverlaid : overlaidVm inv legacyEnabled indexes s q.toGuest with
  | none => rfl
  | some w =>
    obtain ⟨hw, hcluster⟩ := overlaidVm_mem hoverlaid
    obtain ⟨a, r, b, hsplit, hbetween⟩ := hs.split hw
    have hkey := recordKey_overlay hint hbetween.same fun _ => hcluster
    dsimp only
    rw [hsplit, hbetween.overlaid_eq, hbetween.before_eq, matchedId, matched_append_cons]
    unfold TypedPick.pick
    rw [TypedPick.find_among hkey extractProxmoxVmType_overlay]
    unfold firstOf
    cases (candidates py a (q.key py).1 (q.key py).2).find? fun record =>
        extractProxmoxVmType py record = some q.kind.name with
    | some x => simp [hasId_iff_ident]
    | none =>
      have hid : identOf py (overlaySidecarIdentity py q.prepared q.vmid (q.endpointId py) r) =
          some w.id := by
        rw [sameFields_overlay.identOf_eq, hbetween.ident]
      simp [hid]

end Turn

section Batch

variable {guests rest : List KindedGuest}

/-- The match of a guest stays through the turns of others. -/
theorem matchedId_exec (hp : p ∈ guests) (hrest : ∀ q ∈ rest, p.identity py ≠ q.identity py)
    (hsteady : Runs.Guarded (turn inv legacyEnabled indexes)
      (Steady inv legacyEnabled indexes guests) s rest)
    (hrun : Runs.exec (turn inv legacyEnabled indexes) s rest = some t) :
    matchedId py t.snapshot p.prepared = matchedId py s.snapshot p.prepared := by
  induction rest generalizing s with
  | nil =>
    cases hrun
    rfl
  | cons q rest ih =>
    obtain ⟨u, hu, hrun⟩ := Runs.exec_cons_iff.mp hrun
    obtain ⟨hq, hsteady⟩ := Runs.guarded_cons hu hsteady
    have hmatch := ih (fun q' hq' => hrest q' (List.mem_cons_of_mem _ hq')) hsteady hrun
    rw [hmatch]
    exact hq u hu p hp (hrest q List.mem_cons_self)

/-- The turns are fair exactly if they are steady and each bound guest ends up matched with its
VM. -/
theorem guarded_fair_iff (hint : ∀ n : ℤ, py.parseInt (toString n) = some n)
    (hdistinct : rest.Pairwise fun p q => p.identity py ≠ q.identity py)
    (hsub : ∀ q ∈ rest, q ∈ guests) (hs : OfInventory inv s.snapshot)
    (hrun : Runs.exec (turn inv legacyEnabled indexes) s rest = some t) :
    Runs.Guarded (turn inv legacyEnabled indexes) (Fair inv legacyEnabled indexes guests) s rest ↔
      Runs.Guarded (turn inv legacyEnabled indexes) (Steady inv legacyEnabled indexes guests) s
        rest ∧
      ∀ q ∈ rest, ∀ vm ∈ inv.vms, Binds inv q vm →
        matchedId py t.snapshot q.prepared = some (some vm.id) := by
  induction rest generalizing s with
  | nil => simp [Runs.Guarded]
  | cons q rest ih =>
    obtain ⟨u, hu, hrun⟩ := Runs.exec_cons_iff.mp hrun
    obtain ⟨hq, hdistinct⟩ := List.pairwise_cons.mp hdistinct
    have hrest := ih hdistinct (fun p hp => hsub p (List.mem_cons_of_mem _ hp))
      (turn_ofInventory hs hu) hrun
    have hguest : q ∈ guests := hsub q List.mem_cons_self
    have hfair : Fair inv legacyEnabled indexes guests s q ↔
        Steady inv legacyEnabled indexes guests s q ∧ ∀ vm ∈ inv.vms, Binds inv q vm →
          matchedId py u.snapshot q.prepared = some (some vm.id) := by
      rw [steady_iff hs hu]
      constructor
      · rintro ⟨hbound, hsteady⟩
        exact ⟨hsteady, fun vm hvm hb => (matchedId_turn hint hs hu).mpr (hbound vm hvm hb)⟩
      · rintro ⟨hsteady, hbound⟩
        exact ⟨fun vm hvm hb => (matchedId_turn hint hs hu).mp (hbound vm hvm hb), hsteady⟩
    simp only [Runs.Guarded, hu, List.forall_mem_cons]
    rw [hrest, hfair]
    constructor
    · rintro ⟨⟨hsteady, hbound⟩, hguarded, hothers⟩
      refine ⟨⟨hsteady, hguarded⟩, ?_, hothers⟩
      rw [matchedId_exec hguest hq hguarded hrun]
      exact hbound
    · rintro ⟨⟨hsteady, hguarded⟩, hbound, hothers⟩
      rw [matchedId_exec hguest hq hguarded hrun] at hbound
      exact ⟨⟨hsteady, hbound⟩, hguarded, hothers⟩

variable (py) in
theorem operation_not_create {flags : Flags} {snapshot : List Record} {indexes : Indexes}
    {p : PreparedVMState} {op : NetBoxVMOperation} {record : Record}
    (hindexes : buildVmSnapshotIdentityIndexes py snapshot = some indexes)
    (h : operation py flags indexes p = some op) (hrecord : op.existingRecord = some record) :
    op.method ≠ .create := by
  have hids := h
  obtain ⟨clusterId, hcluster, hids⟩ := Option.bind_eq_some_iff.mp hids
  obtain ⟨vmid, hvmid, -⟩ := Option.bind_eq_some_iff.mp hids
  rw [operation_eq py flags hindexes hcluster hvmid] at h
  split at h
  · obtain rfl := Option.some.inj h
    contradiction
  · obtain ⟨patch, -, rfl⟩ := Option.map_eq_some_iff.mp h
    dsimp only
    split_ifs <;> decide

variable (py) in
/-- An operation on a record is not a `CREATE`. -/
theorem queue_not_create {flags : Flags} {snapshot : List Record}
    {prepared : List PreparedVMState} {ops : List NetBoxVMOperation}
    (h : buildVmOperationQueuePython py flags prepared snapshot = some ops)
    {op : NetBoxVMOperation} (hop : op ∈ ops) {record : Record}
    (hrecord : op.existingRecord = some record) : op.method ≠ .create := by
  obtain ⟨indexes, hindexes, h⟩ := Option.bind_eq_some_iff.mp h
  obtain ⟨p, -, hoperation⟩ := (Outcomes.mem_mapM_iff h).mp hop
  exact operation_not_create py hindexes hoperation hrecord

/-- What the queue does for the guests, by the records they are matched with. -/
theorem queue_bound_iff {flags : Flags} {snapshot : List Record} {ops : List NetBoxVMOperation}
    (h : buildVmOperationQueuePython py flags (guests.map (·.prepared)) snapshot = some ops) :
    (∀ op ∈ ops, ∀ g ∈ guests, op.prepared = g.prepared → ∀ vm ∈ inv.vms, Binds inv g vm →
      op.method ≠ .create ∧
        ∃ record, op.existingRecord = some record ∧ hasId py vm.id record = true) ↔
      ∀ g ∈ guests, ∀ vm ∈ inv.vms, Binds inv g vm →
        matchedId py snapshot g.prepared = some (some vm.id) := by
  have hmatched := queue_matched py flags h
  constructor
  · intro hbound g hg vm hvm hbinds
    have hmem : (g.prepared, matched py snapshot g.prepared) ∈
        ops.map fun o => (o.prepared, o.existingRecord) := by
      rw [hmatched]
      exact List.mem_map_of_mem (f := fun p => (p, matched py snapshot p))
        (List.mem_map_of_mem hg)
    obtain ⟨op, hop, hpair⟩ := List.mem_map.mp hmem
    obtain ⟨hprepared, hexisting⟩ := Prod.mk.inj hpair
    obtain ⟨-, record, hrecord, hid⟩ := hbound op hop g hg hprepared vm hvm hbinds
    exact matchedId_eq_some_iff.mpr ⟨record, hexisting.symm.trans hrecord, hid⟩
  · intro hbound op hop g hg hprepared vm hvm hbinds
    have hmem : (op.prepared, op.existingRecord) ∈
        (guests.map (·.prepared)).map fun p => (p, matched py snapshot p) := by
      rw [← hmatched]
      exact List.mem_map_of_mem (f := fun o : NetBoxVMOperation => (o.prepared, o.existingRecord))
        hop
    obtain ⟨p, -, hpair⟩ := List.mem_map.mp hmem
    obtain ⟨rfl, hexisting⟩ := Prod.mk.inj hpair
    obtain ⟨record, hrecord, hid⟩ := matchedId_eq_some_iff.mp (hbound g hg vm hvm hbinds)
    rw [← hprepared, hexisting] at hrecord
    exact ⟨queue_not_create py h hop hrecord, record, hrecord, hid⟩

end Batch

/-- The sidecar identities are honoured exactly if every turn of the hydration is fair: it leads a
bound guest to the first record of its identity, that of its VM, and it disturbs no other guest. -/
theorem sidecar_honoured_iff (flags : Flags) {guests : List KindedGuest} {snapshot : List Record}
    {hydrated : ℕ} {ops : List NetBoxVMOperation}
    (hint : ∀ n : ℤ, py.parseInt (toString n) = some n)
    (hdistinct : guests.Pairwise fun p q => p.identity py ≠ q.identity py)
    (hindexes : buildVmSnapshotIdentityIndexes py inv.snapshot = some indexes)
    (hhydrate : hydrateVmSnapshotWithSidecarIdentity inv legacyEnabled inv.snapshot
      (guests.map (·.prepared)) = some (snapshot, hydrated))
    (hqueue : buildVmOperationQueuePython py flags (guests.map (·.prepared)) snapshot =
      some ops) :
    Honoured inv legacyEnabled indexes guests ops ↔
      Runs.Guarded (turn inv legacyEnabled indexes) (Fair inv legacyEnabled indexes guests)
        ⟨inv.snapshot, [], 0⟩ guests := by
  obtain ⟨t, hrun, rfl⟩ : ∃ t, Runs.exec (turn inv legacyEnabled indexes)
      ⟨inv.snapshot, [], 0⟩ guests = some t ∧ t.snapshot = snapshot := by
    unfold hydrateVmSnapshotWithSidecarIdentity at hhydrate
    split_ifs at hhydrate with hempty
    · have hnil : guests = [] := by simpa using hempty
      subst hnil
      cases hhydrate
      exact ⟨_, rfl, rfl⟩
    · rw [hindexes] at hhydrate
      simp only [Option.bind_eq_bind, Option.bind_some] at hhydrate
      obtain ⟨t, hrun, heq⟩ := Option.bind_eq_some_iff.mp hhydrate
      cases heq
      refine ⟨t, ?_, rfl⟩
      rw [Runs.exec_eq_foldlM]
      rwa [List.foldlM_map] at hrun
  rw [guarded_fair_iff hint hdistinct (fun _ h => h) (ofInventory_snapshot inv) hrun,
    ← queue_bound_iff hqueue]
  exact ⟨fun h => ⟨h.steady, h.bound⟩, fun h => ⟨h.2, h.1⟩⟩

theorem web_ne : "web" ≠ "" := by decide

theorem cluster_two_pos : (0 : ℤ) < 2 := by decide

theorem vmid_hundred_pos : (0 : ℤ) < 100 := by decide

/-- The VM of a cluster, without an identity of its own. -/
def clusterVm (id : ℤ) (hid : 0 < id) : StoredVm .ascii where
  record := [("id", .int id), ("name", .str "web"), ("status", .str "active"),
    ("cluster", .obj [("id", .int id)]), ("custom_fields", .obj [])]
  id := id
  name := "web"
  cluster := some id
  id_eq := rfl
  id_pos := hid
  name_eq := rfl
  name_ne := web_ne
  cluster_eq := rfl
  cfEndpoint_eq := rfl
  endpoint_eq := rfl

/-- The VMs 100 of two clusters, bound by the sync state. -/
def twoClusters : Inventory .ascii where
  vms := [clusterVm 1 Int.zero_lt_one, clusterVm 2 cluster_two_pos]
  rows := [⟨⟨some 1, some 100, none⟩, some "qemu", .str "web"⟩,
    ⟨⟨some 2, some 100, none⟩, some "qemu", .str "web"⟩]
  sidecarInstalled := true
  distinct := by decide
  installed := by decide

/-- The guest 100 of a cluster. -/
def clusterGuest (clusterId : ℤ) : KindedGuest where
  prepared :=
    { clusterName := "lab"
      resource := [("vmid", .int 100)]
      desiredPayload := [("name", .str "web"), ("status", .str "running"),
        ("cluster", .int clusterId)]
      vmType := "qemu" }
  clusterId := clusterId
  vmid := 100
  vmid_pos := vmid_hundred_pos
  cluster_eq := rfl
  vmid_eq := rfl
  kind := .qemu
  kind_eq := rfl

theorem binds_cluster_two : Binds twoClusters (clusterGuest 2) (clusterVm 2 (by decide)) :=
  ⟨⟨⟨some 2, some 100, none⟩, some "qemu", .str "web"⟩, by simp [twoClusters], rfl, rfl, rfl, rfl,
    fun _ => rfl⟩

theorem distinctRows_twoClusters : DistinctRows twoClusters := by
  constructor
  · intro row hrow
    simp only [twoClusters, List.mem_cons, List.not_mem_nil, or_false] at hrow
    rcases hrow with rfl | rfl
    · exact ⟨clusterVm 1 (by decide), List.mem_cons_self, rfl⟩
    · exact ⟨clusterVm 2 (by decide), by simp [twoClusters], rfl⟩
  · simp only [twoClusters, List.pairwise_cons, List.mem_singleton, forall_eq, List.not_mem_nil,
      false_implies, implies_true, List.Pairwise.nil, and_true]
    exact ⟨by decide, by decide⟩

/-- The guests 100 of the two clusters, of which the resolver is asked for the first only. -/
theorem sidecar_honoured_iff_fair : ∃ indexes snapshot hydrated ops,
    buildVmSnapshotIdentityIndexes .ascii twoClusters.snapshot = some indexes ∧
    hydrateVmSnapshotWithSidecarIdentity twoClusters false twoClusters.snapshot
      ([clusterGuest 1, clusterGuest 2].map (·.prepared)) = some (snapshot, hydrated) ∧
    buildVmOperationQueuePython .ascii allFlags
      ([clusterGuest 1, clusterGuest 2].map (·.prepared)) snapshot = some ops ∧
    (Honoured twoClusters false indexes [clusterGuest 1, clusterGuest 2] ops ↔
      Runs.Guarded (turn twoClusters false indexes)
        (Fair twoClusters false indexes [clusterGuest 1, clusterGuest 2])
        ⟨twoClusters.snapshot, [], 0⟩ [clusterGuest 1, clusterGuest 2]) :=
  ⟨_, _, _, _, rfl, rfl, rfl, sidecar_honoured_iff allFlags Vmid.parseAscii_toString (by decide)
    rfl rfl rfl⟩

/-- The guest of the second cluster has the key of the first one, so that the resolver is not asked
again, and it is created although its identity is bound. -/
theorem second_cluster_created :
    DistinctRows twoClusters ∧
    ([clusterGuest 1, clusterGuest 2].Pairwise fun p q =>
      p.identity .ascii ≠ q.identity .ascii) ∧
    ∃ indexes snapshot hydrated ops,
      buildVmSnapshotIdentityIndexes .ascii twoClusters.snapshot = some indexes ∧
      hydrateVmSnapshotWithSidecarIdentity twoClusters false twoClusters.snapshot
        ([clusterGuest 1, clusterGuest 2].map (·.prepared)) = some (snapshot, hydrated) ∧
      buildVmOperationQueuePython .ascii allFlags
        ([clusterGuest 1, clusterGuest 2].map (·.prepared)) snapshot = some ops ∧
      ¬ Honoured twoClusters false indexes [clusterGuest 1, clusterGuest 2] ops := by
  refine ⟨distinctRows_twoClusters, by decide, _, _, _, _, rfl, rfl, rfl, ?_⟩
  intro h
  have hcreated := (h.bound _ (List.mem_cons_of_mem _ List.mem_cons_self) (clusterGuest 2)
    (List.mem_cons_of_mem _ List.mem_cons_self) rfl (clusterVm 2 (by decide))
    (List.mem_cons_of_mem _ List.mem_cons_self) binds_cluster_two).1
  exact hcreated rfl

end ProxboxApi.VmQueue
