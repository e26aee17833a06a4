import Mathlib.Data.List.Pairwise
import ProxboxApi.VmQueue

/-! Which NetBox records the operations of the queue are attached to. -/

namespace ProxboxApi.VmQueue

variable (py : Python) (flags : Flags)

def preparedVmType (p : PreparedVMState) : Option String :=
  normalizeProxmoxVmType py (.str p.vmType)

/-- The scope and the key under which a prepared VM is looked up. -/
def target (p : PreparedVMState) : Option (Scope × (ℤ × ℤ)) :=
  (relationId py (field "cluster" p.desiredPayload)).bind fun clusterId =>
    (relationId py (field "vmid" p.resource)).join.bind fun vmid =>
      match extractProxmoxEndpointId py p.desiredPayload with
      | some endpointId => some (.endpoint, (endpointId, vmid))
      | none => clusterId.map fun clusterId => (.cluster, (clusterId, vmid))

/-- The identity of a prepared VM, if it has one. -/
def identity (p : PreparedVMState) : Option ((Scope × (ℤ × ℤ)) × Option String) :=
  (target py p).map fun t => (t, preparedVmType py p)

/-- The record a prepared VM is matched with, stated on the snapshot. -/
def matched (snapshot : List Record) (p : PreparedVMState) : Option Record :=
  (target py p).bind fun t => choose py (preparedVmType py p) (candidates py snapshot t.1 t.2)

/-- Nothing the record says of its own identity differs from the prepared VM. -/
structure Fits (p : PreparedVMState) (r : Record) : Prop where
  endpoint : ∀ e, extractProxmoxEndpointId py p.desiredPayload = some e →
    extractProxmoxEndpointId py r = some e
  cluster : extractProxmoxEndpointId py p.desiredPayload = none →
    relationId py (field "cluster" r) = relationId py (field "cluster" p.desiredPayload)
  vmid : relationId py (field "vmid" p.resource) = some (storedVmid py r)
  vmType : ∀ t, extractProxmoxVmType py r = some t → preparedVmType py p = some t

/-- The operations are a partial injection of the prepared VMs into the records, and each
record fits. -/
structure PartialInjection (ops : List NetBoxVMOperation) : Prop where
  distinct : ops.Pairwise fun o o' => ∀ r r', o.existingRecord = some r →
    o'.existingRecord = some r' → field "id" r ≠ field "id" r'
  fits : ∀ o ∈ ops, ∀ r, o.existingRecord = some r → Fits py o.prepared r

/-- A record is the first of a key with the type, or the only one of the key and untyped. -/
def Takes (snapshot : List Record) (p : PreparedVMState) (t : Scope × (ℤ × ℤ)) (r : Record) :
    Prop :=
  (∃ vmType, preparedVmType py p = some vmType ∧
    (candidates py snapshot t.1 t.2).find? (fun r => extractProxmoxVmType py r = some vmType) =
      some r) ∨
  (candidates py snapshot t.1 t.2 = [r] ∧ extractProxmoxVmType py r = none)

/-- The snapshot leaves no room for a guess: a prepared VM without a type meets no lone typed
record, two prepared VMs of one key no lone untyped record, and no record is taken from both
scopes. -/
structure Unambiguous (prepared : List PreparedVMState) (snapshot : List Record) : Prop where
  typeless : ∀ p ∈ prepared, preparedVmType py p = none → ∀ t, target py p = some t →
    ∀ r, candidates py snapshot t.1 t.2 = [r] → extractProxmoxVmType py r = none
  untyped : prepared.Pairwise fun p q => ∀ t, target py p = some t → target py q = some t →
    ∀ r, candidates py snapshot t.1 t.2 = [r] → extractProxmoxVmType py r ≠ none
  scopes : ∀ p ∈ prepared, ∀ q ∈ prepared, ∀ k k', target py p = some (.endpoint, k) →
    target py q = some (.cluster, k') →
      ∀ r, Takes py snapshot p (.endpoint, k) r → ¬ Takes py snapshot q (.cluster, k') r

theorem mem_candidates {snapshot : List Record} {scope : Scope} {key : ℤ × ℤ} {r : Record} :
    r ∈ candidates py snapshot scope key ↔ r ∈ snapshot ∧ recordKey py scope r = some key := by
  simp [candidates]

/-- A choice is the first of the type, or else the only candidate. -/
theorem choose_cases {vmType : Option String} {cands : List Record} {r : Record}
    (h : choose py vmType cands = some r) :
    (∃ t, vmType = some t ∧
      cands.find? (fun r => extractProxmoxVmType py r = some t) = some r) ∨
    (cands = [r] ∧ (extractProxmoxVmType py r = none ∨ vmType = none)) := by
  unfold choose at h
  split at h
  · rename_i t
    split at h
    · rename_i record hfind
      obtain rfl : record = r := by simpa using h
      exact Or.inl ⟨t, rfl, hfind⟩
    · split at h
      · split at h
        · rename_i htype
          obtain rfl := Option.some.inj h
          exact Or.inr ⟨rfl, Or.inl htype⟩
        · simp at h
      · simp at h
  · split at h
    · obtain rfl := Option.some.inj h
      exact Or.inr ⟨rfl, Or.inr rfl⟩
    · simp at h

theorem choose_of_takes {snapshot : List Record} {p : PreparedVMState} {t : Scope × (ℤ × ℤ)}
    {r : Record} (h : Takes py snapshot p t r) :
    choose py (preparedVmType py p) (candidates py snapshot t.1 t.2) = some r := by
  rcases h with ⟨vmType, htype, hfind⟩ | ⟨hone, hnone⟩
  · simp [choose, htype, hfind]
  · cases hp : preparedVmType py p with
    | none => simp [choose, hone]
    | some vmType => simp [choose, hone, hnone]

/-- The selection by the indexes is the match stated on the snapshot. -/
theorem select_matched {snapshot : List Record} {indexes : Indexes} {p : PreparedVMState}
    {clusterId vmid : Option ℤ}
    (hindexes : buildVmSnapshotIdentityIndexes py snapshot = some indexes)
    (hcluster : relationId py (field "cluster" p.desiredPayload) = some clusterId)
    (hvmid : relationId py (field "vmid" p.resource) = some vmid) :
    selectExistingVmRecord py p (extractProxmoxEndpointId py p.desiredPayload) clusterId vmid
      indexes = matched py snapshot p := by
  unfold selectExistingVmRecord matched target
  rw [hcluster, hvmid]
  cases vmid with
  | none => rfl
  | some vmid =>
    cases hendpoint : extractProxmoxEndpointId py p.desiredPayload with
    | some endpointId => exact select_eq py .endpoint hindexes
    | none =>
      cases clusterId with
      | none => rfl
      | some clusterId => exact select_eq py .cluster hindexes

/-- An operation is a `CREATE` without a match, and else compares the two payloads. -/
theorem operation_eq {snapshot : List Record} {indexes : Indexes} {p : PreparedVMState}
    {clusterId vmid : Option ℤ}
    (hindexes : buildVmSnapshotIdentityIndexes py snapshot = some indexes)
    (hcluster : relationId py (field "cluster" p.desiredPayload) = some clusterId)
    (hvmid : relationId py (field "vmid" p.resource) = some vmid) :
    operation py flags indexes p = match matched py snapshot p with
      | none => some ⟨.create, p, none, []⟩
      | some existing => (patchPayload py flags p existing).map fun patch =>
          ⟨if patch.isEmpty then .get else .update, p, some existing, patch⟩ := by
  unfold operation
  rw [hcluster, hvmid]
  change (match selectExistingVmRecord py p _ clusterId vmid indexes with
    | none => _
    | some existing => _) = _
  rw [select_matched py hindexes hcluster hvmid]
  cases matched py snapshot p with
  | none => rfl
  | some existing => exact Option.map_eq_bind.symm

/-- Each operation is on the record its prepared VM is matched with. -/
theorem operation_matched {snapshot : List Record} {indexes : Indexes} {p : PreparedVMState}
    {op : NetBoxVMOperation} (hindexes : buildVmSnapshotIdentityIndexes py snapshot = some indexes)
    (h : operation py flags indexes p = some op) :
    op.prepared = p ∧ op.existingRecord = matched py snapshot p := by
  have hids := h
  obtain ⟨clusterId, hcluster, hids⟩ := Option.bind_eq_some_iff.mp hids
  obtain ⟨vmid, hvmid, -⟩ := Option.bind_eq_some_iff.mp hids
  rw [operation_eq py flags hindexes hcluster hvmid] at h
  cases hmatched : matched py snapshot p with
  | none =>
    rw [hmatched] at h
    obtain rfl := Option.some.inj h
    exact ⟨rfl, rfl⟩
  | some existing =>
    rw [hmatched] at h
    obtain ⟨patch, -, rfl⟩ := Option.map_eq_some_iff.mp h
    exact ⟨rfl, rfl⟩

theorem mapM_matched {snapshot : List Record} {indexes : Indexes}
    (hindexes : buildVmSnapshotIdentityIndexes py snapshot = some indexes)
    {prepared : List PreparedVMState} {ops : List NetBoxVMOperation}
    (h : prepared.mapM (operation py flags indexes) = some ops) :
    ops.map (fun o => (o.prepared, o.existingRecord)) =
      prepared.map fun p => (p, matched py snapshot p) := by
  induction prepared generalizing ops with
  | nil =>
    obtain rfl : ops = [] := by simpa using h.symm
    rfl
  | cons p prepared ih =>
    rw [List.mapM_cons] at h
    obtain ⟨op, hop, h⟩ := Option.bind_eq_some_iff.mp h
    obtain ⟨rest, hrest, h⟩ := Option.bind_eq_some_iff.mp h
    obtain rfl := Option.some.inj h
    obtain ⟨hprepared, hexisting⟩ := operation_matched py flags hindexes hop
    rw [List.map_cons, List.map_cons, ih hrest, hprepared, hexisting]

/-- The operations of a queue, by the records their prepared VMs are matched with. -/
theorem queue_matched {snapshot : List Record} {prepared : List PreparedVMState}
    {ops : List NetBoxVMOperation}
    (h : buildVmOperationQueuePython py flags prepared snapshot = some ops) :
    ops.map (fun o => (o.prepared, o.existingRecord)) =
      prepared.map fun p => (p, matched py snapshot p) := by
  obtain ⟨indexes, hindexes, h⟩ := Option.bind_eq_some_iff.mp h
  exact mapM_matched py flags hindexes h

/-- The record matched comes from the snapshot and carries the key of the look-up. -/
theorem matched_cases {snapshot : List Record} {p : PreparedVMState} {r : Record}
    (h : matched py snapshot p = some r) :
    ∃ t, target py p = some t ∧ r ∈ candidates py snapshot t.1 t.2 ∧
      (Takes py snapshot p t r ∨
        (preparedVmType py p = none ∧ candidates py snapshot t.1 t.2 = [r])) := by
  obtain ⟨t, htarget, hchoose⟩ := Option.bind_eq_some_iff.mp h
  refine ⟨t, htarget, ?_⟩
  rcases choose_cases py hchoose with ⟨vmType, htype, hfind⟩ | ⟨hone, hnone | hnone⟩
  · exact ⟨List.mem_of_find?_eq_some hfind, Or.inl (Or.inl ⟨vmType, htype, hfind⟩)⟩
  · exact ⟨by simp [hone], Or.inl (Or.inr ⟨hone, hnone⟩)⟩
  · exact ⟨by simp [hone], Or.inr ⟨hnone, hone⟩⟩

theorem matched_of_takes {snapshot : List Record} {p : PreparedVMState} {t : Scope × (ℤ × ℤ)}
    {r : Record} (htarget : target py p = some t) (h : Takes py snapshot p t r) :
    matched py snapshot p = some r := by
  unfold matched
  rw [htarget]
  exact choose_of_takes py h

/-- Without a guess on types, whatever is matched is taken. -/
theorem takes_of_matched {snapshot : List Record} {p : PreparedVMState} {r : Record}
    (htypeless : preparedVmType py p = none → ∀ t, target py p = some t →
      ∀ r, candidates py snapshot t.1 t.2 = [r] → extractProxmoxVmType py r = none)
    (h : matched py snapshot p = some r) :
    ∃ t, target py p = some t ∧ r ∈ candidates py snapshot t.1 t.2 ∧ Takes py snapshot p t r := by
  obtain ⟨t, htarget, hmem, htakes | ⟨hnone, hone⟩⟩ := matched_cases py h
  · exact ⟨t, htarget, hmem, htakes⟩
  · exact ⟨t, htarget, hmem, Or.inr ⟨hone, htypeless hnone t htarget r hone⟩⟩

/-- What a target says of the payload and the resource it is read from. -/
theorem target_cases {p : PreparedVMState} {t : Scope × (ℤ × ℤ)} (h : target py p = some t) :
    relationId py (field "vmid" p.resource) = some (some t.2.2) ∧
      ((t.1 = .endpoint ∧ extractProxmoxEndpointId py p.desiredPayload = some t.2.1) ∨
        (t.1 = .cluster ∧ extractProxmoxEndpointId py p.desiredPayload = none ∧
          relationId py (field "cluster" p.desiredPayload) = some (some t.2.1))) := by
  obtain ⟨clusterId, hcluster, h⟩ := Option.bind_eq_some_iff.mp h
  obtain ⟨vmid, hvmid, h⟩ := Option.bind_eq_some_iff.mp h
  rw [Option.join_eq_some_iff] at hvmid
  cases hendpoint : extractProxmoxEndpointId py p.desiredPayload with
  | some endpointId =>
    rw [hendpoint] at h
    obtain rfl := Option.some.inj h
    exact ⟨hvmid, Or.inl ⟨rfl, rfl⟩⟩
  | none =>
    rw [hendpoint] at h
    obtain ⟨id, rfl, rfl⟩ := Option.map_eq_some_iff.mp h
    exact ⟨hvmid, Or.inr ⟨rfl, rfl, hcluster⟩⟩

/-- A record that carries the key of a look-up agrees with it. -/
theorem fits_of_key {p : PreparedVMState} {t : Scope × (ℤ × ℤ)} {r : Record}
    (htarget : target py p = some t) (hkey : recordKey py t.1 r = some t.2)
    (htype : ∀ s, extractProxmoxVmType py r = some s → preparedVmType py p = some s) :
    Fits py p r := by
  obtain ⟨hvmid, ⟨hscope, hendpoint⟩ | ⟨hscope, hendpoint, hcluster⟩⟩ := target_cases py htarget
  · rw [hscope] at hkey
    obtain ⟨endpointId, he, hkey⟩ := Option.bind_eq_some_iff.mp hkey
    obtain ⟨vmid, hv, hkey⟩ := Option.bind_eq_some_iff.mp hkey
    have hpair := Option.some.inj hkey
    refine ⟨?_, ?_, ?_, htype⟩
    · intro e hp
      rw [he, ← hp, hendpoint, ← hpair]
    · intro hnone
      rw [hendpoint] at hnone
      simp at hnone
    · rw [hvmid, hv, ← hpair]
  · rw [hscope] at hkey
    have hjoin := Option.join_eq_some_iff.mp hkey
    obtain ⟨clusterId, hc, hrest⟩ := Option.bind_eq_some_iff.mp hjoin
    cases clusterId with
    | none => simp at hrest
    | some clusterId =>
      obtain ⟨vmid, hv, hpair⟩ := Option.map_eq_some_iff.mp (Option.some.inj hrest)
      refine ⟨?_, ?_, ?_, htype⟩
      · intro e hp
        rw [hendpoint] at hp
        simp at hp
      · intro _
        rw [hc, hcluster, ← hpair]
      · rw [hvmid, hv, ← hpair]

theorem takes_vmType {snapshot : List Record} {p : PreparedVMState} {t : Scope × (ℤ × ℤ)}
    {r : Record} (h : Takes py snapshot p t r) :
    ∀ s, extractProxmoxVmType py r = some s → preparedVmType py p = some s := by
  intro s hs
  rcases h with ⟨vmType, htype, hfind⟩ | ⟨-, hnone⟩
  · have hfound := List.find?_some hfind
    simp only [decide_eq_true_eq] at hfound
    rw [htype, ← hs, hfound]
  · rw [hnone] at hs
    simp at hs

/-- Two prepared VMs that take one record from one scope are the same, or share a lone
untyped record. -/
theorem takes_same_key {snapshot : List Record} {p q : PreparedVMState} {t : Scope × (ℤ × ℤ)}
    {r : Record} (hp : Takes py snapshot p t r) (hq : Takes py snapshot q t r) :
    preparedVmType py p = preparedVmType py q ∨
      (candidates py snapshot t.1 t.2 = [r] ∧ extractProxmoxVmType py r = none) := by
  cases hr : extractProxmoxVmType py r with
  | some s => exact Or.inl ((takes_vmType py hp s hr).trans (takes_vmType py hq s hr).symm)
  | none =>
    right
    rcases hp with ⟨vmType, -, hfind⟩ | hlone
    · have hfound := List.find?_some hfind
      simp [hr] at hfound
    · exact ⟨hlone.1, rfl⟩

/-- A list of distinct ids has no two records with one id. -/
theorem eq_of_id {snapshot : List Record} (hids : (snapshot.map (field "id")).Nodup)
    {r r' : Record} (hr : r ∈ snapshot) (hr' : r' ∈ snapshot) (h : field "id" r = field "id" r') :
    r = r' :=
  List.inj_on_of_nodup_map hids hr hr' h

theorem distinct_iff {prepared : List PreparedVMState} {snapshot : List Record}
    {ops : List NetBoxVMOperation}
    (hmatched : ops.map (fun o => (o.prepared, o.existingRecord)) =
      prepared.map fun p => (p, matched py snapshot p)) :
    (ops.Pairwise fun o o' => ∀ r r', o.existingRecord = some r →
      o'.existingRecord = some r' → field "id" r ≠ field "id" r') ↔
      prepared.Pairwise fun p q => ∀ r r', matched py snapshot p = some r →
        matched py snapshot q = some r' → field "id" r ≠ field "id" r' := by
  have hexisting : ops.map (fun o => o.existingRecord) = prepared.map (matched py snapshot) := by
    simpa [List.map_map, Function.comp_def] using congrArg (List.map Prod.snd) hmatched
  have hops := List.pairwise_map (f := fun o : NetBoxVMOperation => o.existingRecord) (l := ops)
    (R := fun x y => ∀ r r', x = some r → y = some r' → field "id" r ≠ field "id" r')
  have hprepared := List.pairwise_map (f := matched py snapshot) (l := prepared)
    (R := fun x y => ∀ r r', x = some r → y = some r' → field "id" r ≠ field "id" r')
  rw [hexisting] at hops
  exact hops.symm.trans hprepared

theorem fits_iff {prepared : List PreparedVMState} {snapshot : List Record}
    {ops : List NetBoxVMOperation}
    (hmatched : ops.map (fun o => (o.prepared, o.existingRecord)) =
      prepared.map fun p => (p, matched py snapshot p)) :
    (∀ o ∈ ops, ∀ r, o.existingRecord = some r → Fits py o.prepared r) ↔
      ∀ p ∈ prepared, ∀ r, matched py snapshot p = some r → Fits py p r := by
  constructor
  · intro h p hp r hr
    have hmem : (p, matched py snapshot p) ∈ ops.map fun o => (o.prepared, o.existingRecord) :=
      hmatched ▸ List.mem_map_of_mem hp
    obtain ⟨o, ho, hpair⟩ := List.mem_map.mp hmem
    obtain ⟨hop, hoe⟩ := Prod.mk.inj hpair
    exact hop ▸ h o ho r (hoe.trans hr)
  · intro h o ho r hr
    have hmem : (o.prepared, o.existingRecord) ∈
        prepared.map fun p => (p, matched py snapshot p) :=
      hmatched ▸ List.mem_map_of_mem (f := fun o : NetBoxVMOperation =>
        (o.prepared, o.existingRecord)) ho
    obtain ⟨p, hp, hpair⟩ := List.mem_map.mp hmem
    obtain ⟨hop, hoe⟩ := Prod.mk.inj hpair
    exact hop ▸ h p hp r (hoe.trans hr)

/-- The queue is a partial injection exactly when the snapshot leaves no room for a guess. -/
theorem partialInjection_iff {prepared : List PreparedVMState} {snapshot : List Record}
    {ops : List NetBoxVMOperation}
    (hids : (snapshot.map (field "id")).Nodup)
    (hidentities : prepared.Pairwise fun p q =>
      identity py p = identity py q → identity py p = none)
    (hqueue : buildVmOperationQueuePython py flags prepared snapshot = some ops) :
    PartialInjection py ops ↔ Unambiguous py prepared snapshot := by
  have hmatched := queue_matched py flags hqueue
  have hdistinct := distinct_iff py hmatched
  have hfits := fits_iff py hmatched
  constructor
  · intro h
    have hpairwise := hdistinct.mp h.distinct
    have hall := hfits.mp h.fits
    refine ⟨?_, ?_, ?_⟩
    · intro p hp hnone t htarget r hone
      have hr : matched py snapshot p = some r := by
        simp [matched, htarget, choose, hnone, hone]
      cases htype : extractProxmoxVmType py r with
      | none => rfl
      | some s =>
        have hps := (hall p hp r hr).vmType s htype
        rw [hnone] at hps
        simp at hps
    · refine hpairwise.imp ?_
      intro p q hne t hpt hqt r hone hnone
      have htakes : ∀ v, Takes py snapshot v t r := fun v => Or.inr ⟨hone, hnone⟩
      exact hne r r (matched_of_takes py hpt (htakes p)) (matched_of_takes py hqt (htakes q)) rfl
    · intro p hp q hq k k' hpt hqt r htp htq
      have hpq : p ≠ q := by
        rintro rfl
        rw [hpt] at hqt
        simp at hqt
      have hsymm : Std.Symm fun p q : PreparedVMState => ∀ r r', matched py snapshot p = some r →
          matched py snapshot q = some r' → field "id" r ≠ field "id" r' :=
        ⟨fun p q h r r' hr hr' heq => h r' r hr' hr heq.symm⟩
      exact hpairwise.forall hp hq hpq r r (matched_of_takes py hpt htp)
        (matched_of_takes py hqt htq) rfl
  · intro h
    refine ⟨hdistinct.mpr ?_, hfits.mpr ?_⟩
    · refine ((List.Pairwise.and_mem.mp hidentities).and h.untyped).imp ?_
      · rintro p q ⟨⟨hp, hq, hident⟩, huntyped⟩ r r' hr hr' hid
        obtain ⟨t, hpt, hmem, htp⟩ := takes_of_matched py (h.typeless p hp) hr
        obtain ⟨t', hqt, hmem', htq⟩ := takes_of_matched py (h.typeless q hq) hr'
        obtain ⟨hsnap, hkey⟩ := (mem_candidates py).mp hmem
        obtain ⟨hsnap', hkey'⟩ := (mem_candidates py).mp hmem'
        obtain rfl := eq_of_id hids hsnap hsnap' hid
        obtain ⟨scope, key⟩ := t
        obtain ⟨scope', key'⟩ := t'
        cases scope <;> cases scope'
        case endpoint.cluster => exact h.scopes p hp q hq key key' hpt hqt r htp htq
        case cluster.endpoint => exact h.scopes q hq p hp key' key hqt hpt r htq htp
        all_goals
          -- in one scope the record has one key, so the two look-ups are of that key
          obtain rfl : key = key' := Option.some.inj (hkey.symm.trans hkey')
          rcases takes_same_key py htp htq with htype | ⟨hone, hnone⟩
          · have hsame := hident (by simp [identity, hpt, hqt, htype])
            simp [identity, hpt] at hsame
          · exact huntyped _ hpt hqt r hone hnone
    · intro p hp r hr
      obtain ⟨t, hpt, hmem, htp⟩ := takes_of_matched py (h.typeless p hp) hr
      exact fits_of_key py hpt ((mem_candidates py).mp hmem).2 (takes_vmType py htp)

def allFlags : Flags := ⟨true, true, true, true, true, true⟩

/-- Guest 100 of endpoint 500. -/
def guest100 (vmType : String) : PreparedVMState where
  clusterName := "lab"
  resource := [("vmid", .int 100)]
  desiredPayload := [("name", .str vmType), ("status", .str "running"), ("cluster", .int 1),
    ("custom_fields", .obj [("proxmox_endpoint_id", .int 500), ("proxmox_vm_id", .int 100),
      ("proxmox_vm_type", .str vmType)])]
  vmType

/-- The NetBox record of a guest 100 of endpoint 500 of a type, if one is stored. -/
def record100 (id : ℤ) (vmType : Json) : Record :=
  [("id", .int id), ("name", .str "guest-100"), ("status", .str "active"),
    ("cluster", .obj [("id", .int 1)]),
    ("custom_fields", .obj [("proxmox_endpoint_id", .int 500), ("proxmox_vm_id", .int 100),
      ("proxmox_vm_type", vmType)])]

/-- Each of the two guests 100 is matched with the record of its type. -/
theorem partialInjection_iff_typed : ∃ ops,
    buildVmOperationQueuePython .ascii allFlags [guest100 "qemu", guest100 "lxc"]
      [record100 7 (.str "qemu"), record100 8 (.str "lxc")] = some ops ∧
    (PartialInjection .ascii ops ↔ Unambiguous .ascii [guest100 "qemu", guest100 "lxc"]
      [record100 7 (.str "qemu"), record100 8 (.str "lxc")]) :=
  ⟨_, rfl, partialInjection_iff .ascii allFlags (by simp [record100, field, Dict.get]) (by decide)
    rfl⟩

/-- Two guests of different types are attached to one record that has no type. -/
theorem untyped_record_shared :
    ([guest100 "qemu", guest100 "lxc"].Pairwise fun p q =>
      identity .ascii p = identity .ascii q → identity .ascii p = none) ∧
    ∃ ops, buildVmOperationQueuePython .ascii allFlags [guest100 "qemu", guest100 "lxc"]
      [record100 7 .null] = some ops ∧ ¬ PartialInjection .ascii ops := by
  refine ⟨by decide, _, rfl, ?_⟩
  intro h
  have hpair := (List.pairwise_cons.mp h.distinct).1 _ List.mem_cons_self
  exact hpair (record100 7 .null) (record100 7 .null) rfl rfl rfl

end ProxboxApi.VmQueue
