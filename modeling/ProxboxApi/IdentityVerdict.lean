import ProxboxApi.SyncStateReader

/-! When the verdict of the identity resolution is right, over every state of NetBox and every
failure of its reads. -/

namespace ProxboxApi.SyncState

variable {nb : NetBox} {legacyEnabled : Bool} {failures : Failures} {identity : Identity}

theorem find_eq_some_iff {id : ℤ} {vm : VirtualMachine} :
    nb.find id = some vm ↔ vm ∈ nb.vms ∧ vm.id = id := by
  constructor
  · intro h
    exact ⟨List.mem_of_find?_eq_some h, by simpa using List.find?_some h⟩
  · rintro ⟨hmem, rfl⟩
    have hex : ∃ found, nb.find vm.id = some found := by
      rw [← Option.isSome_iff_exists, NetBox.find, List.find?_isSome]
      exact ⟨vm, hmem, by simp⟩
    obtain ⟨found, hfound⟩ := hex
    have hid : found.id = vm.id := by simpa using List.find?_some hfound
    rw [hfound, List.inj_on_of_nodup_map nb.distinct (List.mem_of_find?_eq_some hfound) hmem hid]

/-- A row is a candidate where its VM needs no cluster, or is verified to be in it. -/
theorem rowOutcome_candidate_iff {fails : Bool} {row : SidecarRow} {c : Candidate} :
    rowOutcome nb identity fails row = .candidate c ↔ row.endpointMatches identity = true ∧
      row.virtualMachine = some c.recordId ∧ c.source = .sidecar ∧
        ((identity.clusterId = none ∧ c.record = none) ∨ ∃ k vm, identity.clusterId = some k ∧
          fails = false ∧ nb.find c.recordId = some vm ∧ vm.cluster = some k ∧
            c.record = some vm) := by
  constructor
  · intro h
    unfold rowOutcome fetchVmById at h
    split at h
    · contradiction
    · rename_i hendpoint
      have hmatches : row.endpointMatches identity = true := by simpa using hendpoint
      split at h
      · contradiction
      · rename_i id hid
        split at h
        · rename_i hcluster
          cases h
          exact ⟨hmatches, hid, rfl, Or.inl ⟨hcluster, rfl⟩⟩
        · rename_i k hk
          split at h
          · contradiction
          · rename_i vm hvm
            split at h
            · contradiction
            · rename_i resolved hresolved
              split at h
              · rename_i hsame
                cases h
                subst hsame
                cases fails with
                | true => contradiction
                | false => exact ⟨hmatches, hid, rfl, Or.inr ⟨_, vm, hk, rfl, hvm, hresolved, rfl⟩⟩
              · contradiction
  · obtain ⟨recordId, source, record⟩ := c
    rintro ⟨hmatches, hid, hsource, ⟨hcluster, hrecord⟩ | ⟨k, vm, hk, hfails, hvm, hresolved, hrecord⟩⟩
    · simp only at hid hsource hrecord
      simp [rowOutcome, hmatches, hid, hcluster, hsource, hrecord]
    · simp only at hid hsource hvm hrecord
      simp [rowOutcome, fetchVmById, hmatches, hid, hk, hfails, hvm, hresolved, hsource, hrecord]

theorem rowOutcome_refused_iff {fails : Bool} {row : SidecarRow} :
    (rowOutcome nb identity fails row).isRefused = true ↔ row.endpointMatches identity = true ∧
      ∃ id, row.virtualMachine = some id ∧ identity.clusterId.isSome = true ∧
        (fails = true ∨ ∀ vm, nb.find id = some vm → vm.cluster = none) := by
  unfold rowOutcome fetchVmById
  cases row.endpointMatches identity with
  | false => simp [RowOutcome.isRefused]
  | true =>
    cases row.virtualMachine with
    | none => simp [RowOutcome.isRefused]
    | some id =>
      cases identity.clusterId with
      | none => simp [RowOutcome.isRefused]
      | some k =>
        cases fails with
        | true => simp [RowOutcome.isRefused]
        | false =>
          cases hfind : nb.find id with
          | none => simp [RowOutcome.isRefused, hfind]
          | some vm =>
            cases hcluster : vm.cluster with
            | none => simp [RowOutcome.isRefused, hfind, hcluster]
            | some resolved =>
              by_cases hsame : resolved = k <;>
                simp [RowOutcome.isRefused, hfind, hcluster, hsame]

/-- The candidates of the sidecar rows. -/
theorem mem_sidecars {c : Candidate} :
    c ∈ (listSidecarVmIdentityCandidates nb failures identity).1.getD [] ↔
      c.source = .sidecar ∧ ∃ i row, RowRead nb failures identity i row c.recordId ∧
        ((identity.clusterId = none ∧ c.record = none) ∨ ∃ k vm, identity.clusterId = some k ∧
          failures.verify i = false ∧ nb.find c.recordId = some vm ∧ vm.cluster = some k ∧
            c.record = some vm) := by
  unfold listSidecarVmIdentityCandidates
  cases hinstalled : nb.sidecarInstalled with
  | false =>
    simp only [Bool.not_false, if_true, Option.getD_none, List.not_mem_nil, false_iff]
    rintro ⟨-, i, row, hrow, -⟩
    exact absurd hrow.installed (by simp [hinstalled])
  | true =>
    cases hfails : failures.sidecars with
    | true =>
      simp only [Bool.not_true, Bool.false_eq_true, if_false, if_true, Option.getD_none,
        List.not_mem_nil, false_iff]
      rintro ⟨-, i, row, hrow, -⟩
      exact absurd hrow.read (by simp [hfails])
    | false =>
      simp only [Bool.not_true, Bool.false_eq_true, if_false, Option.getD_some, List.mem_filterMap,
        List.mem_mapIdx]
      constructor
      · rintro ⟨outcome, ⟨i, hi, houtcome⟩, hc⟩
        have hcandidate : rowOutcome nb identity (failures.verify i) (nb.sidecarRows identity)[i] =
            .candidate c := by
          rw [houtcome]
          cases outcome <;> simp_all [RowOutcome.candidate?]
        obtain ⟨hendpoint, hvm, hsource, hrest⟩ := rowOutcome_candidate_iff.mp hcandidate
        exact ⟨hsource, i, _, ⟨hinstalled, hfails, List.getElem?_eq_getElem hi, hendpoint, hvm⟩, hrest⟩
      · rintro ⟨hsource, i, row, hrow, hrest⟩
        obtain ⟨hi, hget⟩ := List.getElem?_eq_some_iff.mp hrow.listed
        refine ⟨.candidate c, ⟨i, hi, ?_⟩, rfl⟩
        rw [hget]
        exact rowOutcome_candidate_iff.mpr ⟨hrow.endpoint, hrow.vm, hsource, hrest⟩

theorem refused_iff :
    (listSidecarVmIdentityCandidates nb failures identity).2 = true ↔
      Unverified nb failures identity := by
  unfold listSidecarVmIdentityCandidates Unverified
  cases hinstalled : nb.sidecarInstalled with
  | false =>
    simp only [Bool.not_false, if_true, Bool.false_eq_true, false_and, false_or, false_iff]
    rintro ⟨i, row, id, hrow, -⟩
    exact absurd hrow.installed (by simp [hinstalled])
  | true =>
    cases hfails : failures.sidecars with
    | true => simp
    | false =>
      simp only [Bool.not_true, Bool.false_eq_true, if_false, and_false, false_or, List.any_eq_true,
        List.mem_mapIdx]
      constructor
      · rintro ⟨outcome, ⟨i, hi, rfl⟩, hrefused⟩
        obtain ⟨hendpoint, id, hvm, hcluster, hrest⟩ := rowOutcome_refused_iff.mp hrefused
        exact ⟨i, _, id, ⟨hinstalled, hfails, List.getElem?_eq_getElem hi, hendpoint, hvm⟩, hcluster,
          hrest⟩
      · rintro ⟨i, row, id, hrow, hcluster, hrest⟩
        obtain ⟨hi, hget⟩ := List.getElem?_eq_some_iff.mp hrow.listed
        refine ⟨_, ⟨i, hi, rfl⟩, ?_⟩
        rw [hget]
        exact rowOutcome_refused_iff.mpr ⟨hrow.endpoint, id, hrow.vm, hcluster, hrest⟩

theorem sidecars_isNone_iff :
    (listSidecarVmIdentityCandidates nb failures identity).1.isNone = true ↔
      ¬ (nb.sidecarInstalled = true ∧ failures.sidecars = false) := by
  unfold listSidecarVmIdentityCandidates
  cases nb.sidecarInstalled <;> cases failures.sidecars <;> simp

/-- The candidates of the custom fields, where these are enabled. -/
def legacyCandidates (nb : NetBox) (legacyEnabled : Bool) (failures : Failures)
    (identity : Identity) : Option (List Candidate) × Bool :=
  if legacyEnabled then listCustomFieldVmIdentityCandidates nb failures identity else (none, false)

theorem mem_legacyCandidates {c : Candidate} :
    c ∈ (legacyCandidates nb legacyEnabled failures identity).1.getD [] ↔
      c.source = .customFields ∧ legacyEnabled = true ∧ failures.customFields = false ∧
        ∃ vm ∈ nb.legacyVms identity, vm.id = c.recordId ∧ c.record = some vm := by
  unfold legacyCandidates listCustomFieldVmIdentityCandidates
  cases legacyEnabled with
  | false => simp
  | true =>
    cases failures.customFields with
    | true => simp
    | false =>
      simp only [if_true, Bool.false_eq_true, if_false, Option.getD_some, List.mem_map, true_and]
      constructor
      · rintro ⟨vm, hvm, rfl⟩
        exact ⟨rfl, vm, hvm, rfl, rfl⟩
      · rintro ⟨hsource, vm, hvm, hid, hrecord⟩
        refine ⟨vm, hvm, ?_⟩
        obtain ⟨recordId, source, record⟩ := c
        cases hsource
        cases hid
        cases hrecord
        rfl

theorem legacyCandidates_snd :
    (legacyCandidates nb legacyEnabled failures identity).2 =
      (legacyEnabled && failures.customFields) := by
  unfold legacyCandidates listCustomFieldVmIdentityCandidates
  cases legacyEnabled <;> cases failures.customFields <;> rfl

theorem exists_legacyCandidate_iff {id : ℤ} :
    (∃ c ∈ (legacyCandidates nb legacyEnabled failures identity).1.getD [], c.recordId = id) ↔
      LegacyRead nb legacyEnabled failures identity id := by
  constructor
  · rintro ⟨c, hc, rfl⟩
    obtain ⟨-, henabled, hread, vm, hvm, hid, -⟩ := mem_legacyCandidates.mp hc
    exact ⟨henabled, hread, vm, hvm, hid⟩
  · rintro ⟨henabled, hread, vm, hvm, rfl⟩
    exact ⟨⟨vm.id, .customFields, some vm⟩, mem_legacyCandidates.mpr
      ⟨rfl, henabled, hread, vm, hvm, rfl, rfl⟩, rfl⟩

theorem exists_sidecar_iff {id : ℤ} :
    (∃ c ∈ (listSidecarVmIdentityCandidates nb failures identity).1.getD [], c.recordId = id) ↔
      SidecarRead nb failures identity id := by
  constructor
  · rintro ⟨c, hc, rfl⟩
    obtain ⟨-, i, row, hrow, ⟨hcluster, -⟩ | ⟨k, vm, hk, hverify, hvm, hresolved, -⟩⟩ :=
      mem_sidecars.mp hc
    · exact ⟨i, row, hrow, by simp [hcluster]⟩
    · refine ⟨i, row, hrow, ?_⟩
      intro k' hk'
      rw [hk] at hk'
      cases hk'
      exact ⟨hverify, vm, hvm, hresolved⟩
  · rintro ⟨i, row, hrow, hcluster⟩
    cases hk : identity.clusterId with
    | none =>
      exact ⟨⟨id, .sidecar, none⟩, mem_sidecars.mpr ⟨rfl, i, row, hrow, Or.inl ⟨hk, rfl⟩⟩, rfl⟩
    | some k =>
      obtain ⟨hverify, vm, hvm, hresolved⟩ := hcluster k hk
      exact ⟨⟨id, .sidecar, some vm⟩, mem_sidecars.mpr
        ⟨rfl, i, row, hrow, Or.inr ⟨k, vm, hk, hverify, hvm, hresolved, rfl⟩⟩, rfl⟩

/-- All the candidates of the two sources. -/
def allCandidates (nb : NetBox) (legacyEnabled : Bool) (failures : Failures)
    (identity : Identity) : List Candidate :=
  (listSidecarVmIdentityCandidates nb failures identity).1.getD [] ++
    (legacyCandidates nb legacyEnabled failures identity).1.getD []

theorem mem_candidateIds_iff {id : ℤ} :
    id ∈ ((allCandidates nb legacyEnabled failures identity).map (·.recordId)).dedup ↔
      Read nb legacyEnabled failures identity id := by
  rw [List.mem_dedup, List.mem_map, Read, ← exists_sidecar_iff, ← exists_legacyCandidate_iff]
  simp only [allCandidates, List.mem_append, or_and_right, exists_or]

theorem binds_of_legacyRead {id : ℤ} (h : LegacyRead nb legacyEnabled failures identity id) :
    ∃ vm, nb.find id = some vm ∧ Binds nb legacyEnabled identity id := by
  obtain ⟨henabled, -, vm, hlegacy, rfl⟩ := h
  have hmem : vm ∈ nb.vms := (List.mem_filter.mp hlegacy).1
  exact ⟨vm, find_eq_some_iff.mpr ⟨hmem, rfl⟩, vm, hmem, rfl, Or.inr ⟨henabled, hlegacy⟩⟩

/-- A sidecar row that has been read binds its VM, if the VM exists. -/
theorem binds_of_sidecarRead {id : ℤ} {vm : VirtualMachine}
    (h : SidecarRead nb failures identity id) (hvm : nb.find id = some vm) :
    Binds nb legacyEnabled identity id := by
  obtain ⟨i, row, hrow, hcluster⟩ := h
  obtain ⟨hmem, rfl⟩ := find_eq_some_iff.mp hvm
  refine ⟨vm, hmem, rfl, Or.inl ⟨row, List.mem_of_getElem? hrow.listed,
    hrow.vm, ?_⟩⟩
  cases hk : identity.clusterId with
  | none => rfl
  | some k =>
    obtain ⟨-, vm', hvm', hresolved⟩ := hcluster k hk
    rw [hvm] at hvm'
    cases hvm'
    simp [admits, hresolved]

/-- The record of a candidate is the VM with its id. -/
theorem find_of_record {c : Candidate} {vm : VirtualMachine}
    (hc : c ∈ allCandidates nb legacyEnabled failures identity) (hrecord : c.record = some vm) :
    nb.find c.recordId = some vm := by
  rcases List.mem_append.mp hc with hc | hc
  · obtain ⟨-, i, row, -, ⟨-, hnone⟩ | ⟨k, vm', -, -, hvm, -, hsome⟩⟩ := mem_sidecars.mp hc
    · rw [hnone] at hrecord
      contradiction
    · rw [hsome] at hrecord
      cases hrecord
      exact hvm
  · obtain ⟨-, -, -, vm', hmem, hid, hsome⟩ := mem_legacyCandidates.mp hc
    rw [hsome] at hrecord
    cases hrecord
    exact find_eq_some_iff.mpr ⟨(List.mem_filter.mp hmem).1, hid⟩

theorem legacyRead_of_source {c : Candidate}
    (hc : c ∈ allCandidates nb legacyEnabled failures identity) (hsource : c.source = .customFields) :
    LegacyRead nb legacyEnabled failures identity c.recordId ∧ c.record.isSome = true := by
  rcases List.mem_append.mp hc with hc | hc
  · have hsidecar := (mem_sidecars.mp hc).1
    rw [hsource] at hsidecar
    contradiction
  · obtain ⟨-, -, -, vm, -, -, hrecord⟩ := mem_legacyCandidates.mp hc
    exact ⟨exists_legacyCandidate_iff.mp ⟨c, hc, rfl⟩, by simp [hrecord]⟩

/-- The only id read by custom fields, or by a sidecar row with a verified cluster, has its
record. -/
theorem candidateRecord_of_known {id : ℤ}
    (hall : ∀ c ∈ allCandidates nb legacyEnabled failures identity, c.recordId = id)
    (hknown : LegacyRead nb legacyEnabled failures identity id ∨
      (SidecarRead nb failures identity id ∧ identity.clusterId.isSome = true)) :
    ∃ vm, nb.find id = some vm ∧ candidateRecord nb failures
      (allCandidates nb legacyEnabled failures identity) id = some vm := by
  have hsome : ∃ c ∈ allCandidates nb legacyEnabled failures identity, c.record.isSome = true := by
    rcases hknown with hlegacy | ⟨hsidecar, hcluster⟩
    · obtain ⟨c, hc, -⟩ := exists_legacyCandidate_iff.mpr hlegacy
      exact ⟨c, List.mem_append_right _ hc,
        (legacyRead_of_source (List.mem_append_right _ hc) (mem_legacyCandidates.mp hc).1).2⟩
    · obtain ⟨c, hc, -⟩ := exists_sidecar_iff.mpr hsidecar
      refine ⟨c, List.mem_append_left _ hc, ?_⟩
      obtain ⟨-, i, row, -, ⟨hnone, -⟩ | ⟨k, vm, -, -, -, -, hrecord⟩⟩ := mem_sidecars.mp hc
      · simp [hnone] at hcluster
      · simp [hrecord]
  have hfound : ∀ vm, (∃ c ∈ allCandidates nb legacyEnabled failures identity, c.record = some vm) →
      nb.find id = some vm := by
    rintro vm ⟨c, hc, hrecord⟩
    have := find_of_record hc hrecord
    rwa [hall c hc] at this
  unfold candidateRecord
  cases hcustom : (allCandidates nb legacyEnabled failures identity).find?
      (fun c => c.source = .customFields) with
  | some c =>
    have hc := List.mem_of_find?_eq_some hcustom
    have hsource : c.source = .customFields := by simpa using List.find?_some hcustom
    obtain ⟨vm, hvm⟩ := Option.isSome_iff_exists.mp (legacyRead_of_source hc hsource).2
    exact ⟨vm, hfound vm ⟨c, hc, hvm⟩, by simp [hvm]⟩
  | none =>
    obtain ⟨c, hc, hrecord⟩ := hsome
    have hex : ((allCandidates nb legacyEnabled failures identity).findSome?
        (·.record)).isSome = true := List.findSome?_isSome_iff.mpr ⟨c, hc, hrecord⟩
    obtain ⟨vm, hvm⟩ := Option.isSome_iff_exists.mp hex
    obtain ⟨c', hc', hrecord'⟩ := List.exists_of_findSome?_eq_some hvm
    exact ⟨vm, hfound vm ⟨c', hc', hrecord'⟩, by simp [hvm]⟩

/-- An id that only sidecar rows name, without a cluster to verify, is fetched. -/
theorem candidateRecord_of_unknown {id : ℤ}
    (hall : ∀ c ∈ allCandidates nb legacyEnabled failures identity, c.recordId = id)
    (hlegacy : ¬ LegacyRead nb legacyEnabled failures identity id)
    (hcluster : identity.clusterId = none) :
    candidateRecord nb failures (allCandidates nb legacyEnabled failures identity) id =
      fetchVmById nb failures.fetch id := by
  have hsource : ∀ c ∈ allCandidates nb legacyEnabled failures identity,
      c.source ≠ .customFields := by
    intro c hc hcustom
    have := (legacyRead_of_source hc hcustom).1
    rw [hall c hc] at this
    exact hlegacy this
  have hrecord : ∀ c ∈ allCandidates nb legacyEnabled failures identity, c.record = none := by
    intro c hc
    rcases List.mem_append.mp hc with hside | hcustom
    · obtain ⟨-, i, row, -, ⟨-, hnone⟩ | ⟨k, vm, hk, -⟩⟩ := mem_sidecars.mp hside
      · exact hnone
      · simp [hcluster] at hk
    · exact absurd (mem_legacyCandidates.mp hcustom).1 (hsource c hc)
  have hfind : (allCandidates nb legacyEnabled failures identity).find?
      (fun c => c.source = .customFields) = none := by
    rw [List.find?_eq_none]
    simpa using hsource
  have hfirst : (allCandidates nb legacyEnabled failures identity).findSome? (·.record) = none := by
    rw [List.findSome?_eq_none_iff]
    exact hrecord
  simp [candidateRecord, hfind, hfirst]

theorem find_of_fetchVmById {fails : Bool} {id : ℤ} {vm : VirtualMachine}
    (h : fetchVmById nb fails id = some vm) : nb.find id = some vm := by
  unfold fetchVmById at h
  split at h
  · contradiction
  · exact h

/-- An id that is read, though not by custom fields or with a cluster, is read by sidecar rows. -/
theorem sidecar_only {x : ℤ} (hx : ∀ id, Read nb legacyEnabled failures identity id ↔ id = x)
    (hunknown : ¬ (LegacyRead nb legacyEnabled failures identity x ∨
      (SidecarRead nb failures identity x ∧ identity.clusterId.isSome = true))) :
    identity.clusterId = none ∧ SidecarRead nb failures identity x ∧
      ¬ LegacyRead nb legacyEnabled failures identity x := by
  have hlegacy : ¬ LegacyRead nb legacyEnabled failures identity x := fun h => hunknown (Or.inl h)
  have hsidecar := ((hx x).mpr rfl).resolve_right hlegacy
  refine ⟨?_, hsidecar, hlegacy⟩
  cases hk : identity.clusterId with
  | none => rfl
  | some k => exact absurd (Or.inr ⟨hsidecar, by simp [hk]⟩) hunknown

theorem record_fetched {x : ℤ} (hx : ∀ id, Read nb legacyEnabled failures identity id ↔ id = x)
    (hids : ∀ c ∈ allCandidates nb legacyEnabled failures identity, c.recordId = x)
    (hunknown : ¬ (LegacyRead nb legacyEnabled failures identity x ∨
      (SidecarRead nb failures identity x ∧ identity.clusterId.isSome = true))) :
    candidateRecord nb failures (allCandidates nb legacyEnabled failures identity) x =
      fetchVmById nb failures.fetch x := by
  obtain ⟨hcluster, -, hlegacy⟩ := sidecar_only hx hunknown
  exact candidateRecord_of_unknown hids hlegacy hcluster

theorem resolve_eq :
    resolveUniqueVmIdentityCandidate nb failures legacyEnabled identity =
      if !legacyEnabled &&
          (listSidecarVmIdentityCandidates nb failures identity).1.isNone then (none, true)
      else if (listSidecarVmIdentityCandidates nb failures identity).2 &&
          ((legacyCandidates nb legacyEnabled failures identity).1.getD []).isEmpty then
        (none, true)
      else decideCandidate nb failures (allCandidates nb legacyEnabled failures identity)
        (legacyEnabled && failures.customFields) := by
  rw [← legacyCandidates_snd]
  rfl

theorem complete_of_known {x : ℤ} (hx : ∀ {id : ℤ},
      Read nb legacyEnabled failures identity id ↔ id = x)
    (hknown : LegacyRead nb legacyEnabled failures identity x ∨
      (SidecarRead nb failures identity x ∧ identity.clusterId.isSome = true))
    (hbound : ∀ id, Binds nb legacyEnabled identity id → id = x) :
    Complete nb legacyEnabled failures identity := by
  refine ⟨fun id hid => hx.mpr (hbound id hid), ?_⟩
  intro id hcluster hsidecar hlegacy
  have hid := hx.mp (Or.inl hsidecar)
  subst hid
  rcases hknown with h | ⟨-, h⟩
  · exact absurd h hlegacy
  · simp [hcluster] at h

/-- The verdict on a single id. -/
theorem right_single_iff {x : ℤ} {source : Source} (hx : ∀ {id : ℤ},
      Read nb legacyEnabled failures identity id ↔ id = x)
    (hids : ∀ c ∈ allCandidates nb legacyEnabled failures identity, c.recordId = x) :
    Right nb legacyEnabled identity (match candidateRecord nb failures
        (allCandidates nb legacyEnabled failures identity) x with
      | none => (none, false)
      | some record => (some ⟨record, x, source⟩, false)) ↔
      Complete nb legacyEnabled failures identity := by
  by_cases hknown : LegacyRead nb legacyEnabled failures identity x ∨
      (SidecarRead nb failures identity x ∧ identity.clusterId.isSome = true)
  · obtain ⟨vm, hvm, hrecord⟩ := candidateRecord_of_known hids hknown
    have hbinds : Binds nb legacyEnabled identity x := by
      rcases hknown with h | ⟨h, -⟩
      · exact (binds_of_legacyRead h).choose_spec.2
      · exact binds_of_sidecarRead h hvm
    obtain ⟨hmem, hid⟩ := find_eq_some_iff.mp hvm
    rw [hrecord]
    constructor
    · rintro ⟨-, -, hbound⟩
      exact complete_of_known hx hknown fun id h => (hbound id).mp h
    · intro hcomplete
      refine ⟨hmem, hid, fun id => ⟨fun h => hx.mp (hcomplete.read id h), ?_⟩⟩
      rintro rfl
      exact hbinds
  · obtain ⟨hcluster, hsidecar, hlegacy⟩ := sidecar_only (fun _ => hx) hknown
    have hnone : nb.find x = none → ¬ Binds nb legacyEnabled identity x := by
      rintro hfind ⟨vm, hmem, rfl, -⟩
      have := find_eq_some_iff.mpr ⟨hmem, rfl⟩
      rw [hfind] at this
      contradiction
    rw [candidateRecord_of_unknown hids hlegacy hcluster, fetchVmById]
    cases hfetch : failures.fetch with
    | true =>
      simp only [if_true, Right]
      constructor
      · intro hunbound
        refine ⟨fun id hid => absurd hid (hunbound id), fun id _ hside _ _ => ?_⟩
        cases hfind : nb.find id with
        | none => rfl
        | some vm => exact absurd (binds_of_sidecarRead hside hfind) (hunbound id)
      · intro hcomplete id hid
        have hidx := hx.mp (hcomplete.read id hid)
        subst hidx
        exact hnone (hcomplete.fetched id hcluster hsidecar hlegacy hfetch) hid
    | false =>
      simp only [Bool.false_eq_true, if_false]
      have hfetched : ∀ id, identity.clusterId = none → SidecarRead nb failures identity id →
          ¬ LegacyRead nb legacyEnabled failures identity id → failures.fetch = true →
            nb.find id = none := by
        intro id _ _ _ h
        rw [hfetch] at h
        contradiction
      cases hfind : nb.find x with
      | none =>
        simp only [Right]
        constructor
        · intro hunbound
          exact ⟨fun id hid => absurd hid (hunbound id), hfetched⟩
        · intro hcomplete id hid
          have hidx := hx.mp (hcomplete.read id hid)
          subst hidx
          exact hnone hfind hid
      | some vm =>
        obtain ⟨hmem, hid⟩ := find_eq_some_iff.mp hfind
        constructor
        · rintro ⟨-, -, hbound⟩
          exact ⟨fun id h => hx.mpr ((hbound id).mp h), hfetched⟩
        · intro hcomplete
          refine ⟨hmem, hid, fun id => ⟨fun h => hx.mp (hcomplete.read id h), ?_⟩⟩
          rintro rfl
          exact binds_of_sidecarRead hsidecar hfind

/-- What `decideCandidate` makes of sources that are read or stood in for. -/
theorem decide_cases
    (hreadable : legacyEnabled = true ∨ (nb.sidecarInstalled = true ∧ failures.sidecars = false))
    (hverified : Unverified nb failures identity →
      ∃ id, LegacyRead nb legacyEnabled failures identity id)
    {verdict : Option Resolution × Bool}
    (h : verdict = decideCandidate nb failures (allCandidates nb legacyEnabled failures identity)
      (legacyEnabled && failures.customFields)) :
    (¬ Decided nb legacyEnabled failures identity ∧ verdict = (none, true)) ∨
    (Decided nb legacyEnabled failures identity ∧
      (∀ id, ¬ Read nb legacyEnabled failures identity id) ∧ verdict = (none, false)) ∨
    ∃ x source, Decided nb legacyEnabled failures identity ∧
      (∀ id, Read nb legacyEnabled failures identity id ↔ id = x) ∧
      (∀ c ∈ allCandidates nb legacyEnabled failures identity, c.recordId = x) ∧
      verdict = match candidateRecord nb failures
          (allCandidates nb legacyEnabled failures identity) x with
        | none => (none, false)
        | some record => (some ⟨record, x, source⟩, false) := by
  have hread : ∀ {id : ℤ}, id ∈ ((allCandidates nb legacyEnabled failures identity).map
      (·.recordId)).dedup ↔ Read nb legacyEnabled failures identity id := mem_candidateIds_iff
  have hnodup := List.nodup_dedup ((allCandidates nb legacyEnabled failures identity).map
    (·.recordId))
  have hall : ∀ c ∈ allCandidates nb legacyEnabled failures identity, c.recordId ∈
      ((allCandidates nb legacyEnabled failures identity).map (·.recordId)).dedup := by
    intro c hc
    exact List.mem_dedup.mpr (List.mem_map_of_mem hc)
  unfold decideCandidate at h
  generalize ((allCandidates nb legacyEnabled failures identity).map (·.recordId)).dedup = ids
    at hread hnodup hall h
  match ids with
  | [] =>
    have hnone : ∀ id, ¬ Read nb legacyEnabled failures identity id := by
      intro id hid
      exact absurd (hread.mpr hid) (by simp)
    cases hfailed : legacyEnabled && failures.customFields with
    | true =>
      rw [hfailed] at h
      refine Or.inl ⟨?_, h⟩
      intro hdecided
      rw [Bool.and_eq_true] at hfailed
      obtain ⟨id, hid⟩ := hdecided.legacy hfailed.1 hfailed.2
      exact hnone id hid
    | false =>
      rw [hfailed] at h
      refine Or.inr (Or.inl ⟨⟨hreadable, hverified, fun id _ hid => absurd hid (hnone id), ?_⟩,
        hnone, h⟩)
      intro henabled hcustom
      simp [henabled, hcustom] at hfailed
  | [x] =>
    have hx : ∀ id, Read nb legacyEnabled failures identity id ↔ id = x := by
      intro id
      rw [← hread, List.mem_singleton]
    refine Or.inr (Or.inr ⟨x, _, ⟨hreadable, hverified, ?_, ?_⟩, hx, ?_, h⟩)
    · intro id id' hid hid'
      exact ((hx id).mp hid).trans ((hx id').mp hid').symm
    · intro _ _
      exact ⟨x, (hx x).mpr rfl⟩
    · intro c hc
      simpa using hall c hc
  | x :: y :: rest =>
    refine Or.inl ⟨?_, h⟩
    intro hdecided
    have hxy := hdecided.single x y (hread.mp (by simp)) (hread.mp (by simp))
    simp [hxy] at hnodup

/-- The three verdicts: the reads do not decide, or they name no VM, or one. -/
theorem verdict_cases (nb : NetBox) (legacyEnabled : Bool) (failures : Failures)
    (identity : Identity) :
    (¬ Decided nb legacyEnabled failures identity ∧
      resolveUniqueVmIdentityCandidate nb failures legacyEnabled identity = (none, true)) ∨
    (Decided nb legacyEnabled failures identity ∧
      (∀ id, ¬ Read nb legacyEnabled failures identity id) ∧
      resolveUniqueVmIdentityCandidate nb failures legacyEnabled identity = (none, false)) ∨
    ∃ x source, Decided nb legacyEnabled failures identity ∧
      (∀ id, Read nb legacyEnabled failures identity id ↔ id = x) ∧
      (∀ c ∈ allCandidates nb legacyEnabled failures identity, c.recordId = x) ∧
      resolveUniqueVmIdentityCandidate nb failures legacyEnabled identity =
        match candidateRecord nb failures (allCandidates nb legacyEnabled failures identity) x with
        | none => (none, false)
        | some record => (some ⟨record, x, source⟩, false) := by
  have hlegacy : ((legacyCandidates nb legacyEnabled failures identity).1.getD []).isEmpty = true ↔
      ¬ ∃ id, LegacyRead nb legacyEnabled failures identity id := by
    simp only [← exists_legacyCandidate_iff]
    cases (legacyCandidates nb legacyEnabled failures identity).1.getD [] with
    | nil => simp
    | cons c cs => simp
  rw [resolve_eq]
  split
  · rename_i hunreadable
    rw [Bool.and_eq_true, sidecars_isNone_iff] at hunreadable
    refine Or.inl ⟨?_, rfl⟩
    intro hdecided
    rcases hdecided.readable with h | h
    · simp [h] at hunreadable
    · exact hunreadable.2 h
  · rename_i hreadable
    rw [Bool.and_eq_true, sidecars_isNone_iff] at hreadable
    split
    · rename_i hunverified
      rw [Bool.and_eq_true, refused_iff, hlegacy] at hunverified
      exact Or.inl ⟨fun hdecided => hunverified.2 (hdecided.verified hunverified.1), rfl⟩
    · rename_i hverified
      rw [Bool.and_eq_true, refused_iff, hlegacy] at hverified
      refine decide_cases ?_ ?_ rfl
      · cases henabled : legacyEnabled with
        | true => exact Or.inl rfl
        | false =>
          right
          by_contra hread
          exact hreadable ⟨by simp [henabled], hread⟩
      · intro h
        by_contra hnone
        exact hverified ⟨h, hnone⟩

/-- The verdict on an identity is right exactly if, where the reads decide it, they show every VM
that is bound, and the VM that only a sidecar row names is fetched. -/
theorem right_iff (nb : NetBox) (legacyEnabled : Bool) (failures : Failures)
    (identity : Identity) :
    Right nb legacyEnabled identity
        (resolveUniqueVmIdentityCandidate nb failures legacyEnabled identity) ↔
      (Decided nb legacyEnabled failures identity →
        Complete nb legacyEnabled failures identity) := by
  rcases verdict_cases nb legacyEnabled failures identity with ⟨hnot, hverdict⟩ |
    ⟨hdecided, hnone, hverdict⟩ | ⟨x, source, hdecided, hx, hids, hverdict⟩
  · rw [hverdict]
    simp only [Right, true_iff]
    exact fun hdecided => absurd hdecided hnot
  · rw [hverdict]
    simp only [Right]
    constructor
    · intro h _
      exact ⟨fun id hid => absurd hid (h id), fun id _ hid => absurd (Or.inl hid) (hnone id)⟩
    · intro h id hid
      exact hnone id ((h hdecided).read id hid)
  · rw [hverdict]
    exact (right_single_iff (hx _) hids).trans ⟨fun h _ => h, fun h => h hdecided⟩

/-- Sources that are read show every VM that is bound. -/
theorem read_of_binds {id : ℤ} (hall : AllRead nb legacyEnabled failures identity)
    (h : Binds nb legacyEnabled identity id) : Read nb legacyEnabled failures identity id := by
  obtain ⟨vm, hmem, rfl, ⟨row, hrow, hvm, hcluster⟩ | ⟨henabled, hlegacy⟩⟩ := h
  · left
    have hfind := find_eq_some_iff.mpr ⟨hmem, rfl⟩
    have hrows : row ∈ nb.rows := (List.mem_filter.mp hrow).1
    have hinstalled : nb.sidecarInstalled = true := by
      by_contra hnot
      rw [nb.installed (by simpa using hnot)] at hrows
      simp at hrows
    have hsidecars : failures.sidecars = false := by
      by_contra hfails
      exact hall.verified (Or.inl ⟨hinstalled, by simpa using hfails⟩)
    obtain ⟨i, hi, hget⟩ := List.getElem_of_mem hrow
    have hget? : (nb.sidecarRows identity)[i]? = some row := by
      rw [List.getElem?_eq_getElem hi, hget]
    have hendpoint : row.endpointMatches identity = true := by
      have hfilter := (List.mem_filter.mp hrow).2
      rw [Bool.and_eq_true] at hfilter
      unfold SidecarRow.endpointMatches
      cases he : identity.endpointId with
      | none => rfl
      | some e =>
        have hraw : row.proxmoxEndpointRawId = some e := by
          simpa [he, admits] using hfilter.2
        simp [hraw, asPositive, identity.endpoint_pos e he]
    have hread : RowRead nb failures identity i row vm.id :=
      ⟨hinstalled, hsidecars, hget?, hendpoint, hvm⟩
    refine ⟨i, row, hread, ?_⟩
    intro k hk
    have hk' : vm.cluster = some k := by simpa [admits, hk] using hcluster
    refine ⟨?_, vm, hfind, hk'⟩
    by_contra hverify
    exact hall.verified (Or.inr ⟨i, row, vm.id, hread, by simp [hk],
      Or.inl (by simpa using hverify)⟩)
  · right
    have hcustom : failures.customFields = false := by
      by_contra hfails
      exact hall.legacy ⟨henabled, by simpa using hfails⟩
    exact ⟨henabled, hcustom, vm, hlegacy, rfl⟩

/-- The only VM that is read, by sidecar rows that cannot be verified or by custom fields that can
be read, or the other way round. -/
theorem standIns {x : ℤ} (hdecided : Decided nb legacyEnabled failures identity)
    (hx : ∀ id, Read nb legacyEnabled failures identity id ↔ id = x) :
    (Unverified nb failures identity → LegacyRead nb legacyEnabled failures identity x) ∧
      (LegacyUnread legacyEnabled failures → SidecarRead nb failures identity x) := by
  constructor
  · intro h
    obtain ⟨id, hid⟩ := hdecided.verified h
    rwa [← (hx id).mp (Or.inr hid)]
  · rintro ⟨henabled, hcustom⟩
    obtain ⟨id, hid⟩ := hdecided.legacy henabled hcustom
    rcases hid with hid | hid
    · rwa [← (hx id).mp (Or.inl hid)]
    · rw [hid.2.1] at hcustom
      contradiction

/-- Over every state of NetBox and every failure of its reads, the verdict is as designed. -/
theorem verdict_asDesigned (nb : NetBox) (legacyEnabled : Bool) (failures : Failures)
    (identity : Identity) :
    AsDesigned nb legacyEnabled failures identity
      (resolveUniqueVmIdentityCandidate nb failures legacyEnabled identity) := by
  rcases verdict_cases nb legacyEnabled failures identity with ⟨-, hverdict⟩ |
    ⟨hdecided, hnone, hverdict⟩ | ⟨x, source, hdecided, hx, hids, hverdict⟩
  · rw [hverdict]
    trivial
  · rw [hverdict]
    have hverified : ¬ Unverified nb failures identity := by
      intro h
      obtain ⟨id, hid⟩ := hdecided.verified h
      exact hnone id (Or.inr hid)
    have hlegacy : ¬ LegacyUnread legacyEnabled failures := by
      rintro ⟨henabled, hcustom⟩
      obtain ⟨id, hid⟩ := hdecided.legacy henabled hcustom
      exact hnone id hid
    refine Or.inr ⟨hnone, hverified, hlegacy, ?_⟩
    intro id hid
    exact hnone id (read_of_binds ⟨hverified, hlegacy⟩ hid)
  · rw [hverdict]
    have hempty : candidateRecord nb failures (allCandidates nb legacyEnabled failures identity) x =
        none → EmptyFetch nb legacyEnabled failures identity := by
      intro hrecord
      have hunknown : ¬ (LegacyRead nb legacyEnabled failures identity x ∨
          (SidecarRead nb failures identity x ∧ identity.clusterId.isSome = true)) := by
        intro hknown
        obtain ⟨vm, -, hsome⟩ := candidateRecord_of_known hids hknown
        rw [hrecord] at hsome
        contradiction
      obtain ⟨hcluster, hsidecar, hlegacy⟩ := sidecar_only hx hunknown
      exact ⟨hcluster, x, hsidecar, hlegacy, (record_fetched hx hids hunknown).symm.trans hrecord⟩
    cases hrecord : candidateRecord nb failures
        (allCandidates nb legacyEnabled failures identity) x with
    | none => exact Or.inl (hempty hrecord)
    | some vm =>
      have hfind : nb.find x = some vm := by
        by_cases hknown : LegacyRead nb legacyEnabled failures identity x ∨
            (SidecarRead nb failures identity x ∧ identity.clusterId.isSome = true)
        · obtain ⟨vm', hvm', hrecord'⟩ := candidateRecord_of_known hids hknown
          rw [hrecord] at hrecord'
          cases hrecord'
          exact hvm'
        · have hfetched := record_fetched hx hids hknown
          rw [hrecord] at hfetched
          exact find_of_fetchVmById hfetched.symm
      have hbinds : Binds nb legacyEnabled identity x := by
        rcases (hx x).mpr rfl with hsidecar | hlegacy
        · exact binds_of_sidecarRead hsidecar hfind
        · exact (binds_of_legacyRead hlegacy).choose_spec.2
      obtain ⟨hmem, hid⟩ := find_eq_some_iff.mp hfind
      obtain ⟨hunverified, hunread⟩ := standIns hdecided hx
      refine ⟨rfl, hmem, hid, hbinds, hx, hunverified, hunread, ?_⟩
      intro hall id
      constructor
      · intro hbound
        exact (hx id).mp (read_of_binds hall hbound)
      · rintro rfl
        exact hbinds

/-- A caller that fails on ambiguity takes a VM for absent only where the reads do not decide it
wrongly: if they are complete, no VM is bound. -/
theorem absent_of_failOnAmbiguous {nb : NetBox} {legacyEnabled : Bool} {failures : Failures}
    {identity : Identity} (hcomplete : Decided nb legacyEnabled failures identity →
      Complete nb legacyEnabled failures identity)
    (h : resolveVirtualMachineBySyncState nb failures legacyEnabled true identity = some none) :
    ∀ id, ¬ Binds nb legacyEnabled identity id := by
  have hright := (right_iff nb legacyEnabled failures identity).mpr hcomplete
  unfold resolveVirtualMachineBySyncState at h
  generalize resolveUniqueVmIdentityCandidate nb failures legacyEnabled identity = verdict
    at h hright
  obtain ⟨resolution, ambiguous⟩ := verdict
  cases ambiguous with
  | true => simp at h
  | false =>
    simp only [Bool.false_and, Bool.false_eq_true, if_false, Option.some.injEq] at h
    subst h
    exact hright

/-- A VM that is resolved by the sidecar has a row that was read. -/
theorem sidecarRead_of_source {nb : NetBox} {legacyEnabled : Bool} {failures : Failures}
    {identity : Identity} {r : Resolution}
    (h : resolveVirtualMachineBySyncState nb failures legacyEnabled false identity = some (some r))
    (hsource : r.source = .sidecar) : SidecarRead nb failures identity r.recordId := by
  simp only [resolveVirtualMachineBySyncState, Bool.and_false, Bool.false_eq_true, if_false,
    Option.some.injEq] at h
  rw [resolve_eq] at h
  split_ifs at h
  unfold decideCandidate at h
  split at h
  · contradiction
  · rename_i x hids
    split at h
    · contradiction
    · obtain rfl := Option.some.inj h
      obtain ⟨c, hhead, hc⟩ : ∃ c,
          (allCandidates nb legacyEnabled failures identity).head? = some c ∧
            c.source = .sidecar := by
        cases hhead : (allCandidates nb legacyEnabled failures identity).head? with
        | none => simp [hhead] at hsource
        | some c => exact ⟨c, rfl, by simpa [hhead] using hsource⟩
      have hmem := List.mem_of_head? hhead
      have hid : c.recordId = x := by
        have hdedup := List.mem_dedup.mpr (List.mem_map_of_mem (f := (·.recordId)) hmem)
        rw [hids] at hdedup
        exact List.mem_singleton.mp hdedup
      subst hid
      rcases List.mem_append.mp hmem with hsidecar | hlegacy
      · exact exists_sidecar_iff.mp ⟨c, hsidecar, rfl⟩
      · rw [(mem_legacyCandidates.mp hlegacy).1] at hc
        contradiction
  · contradiction

/-- One VM that a sidecar row binds, and one that its custom fields bind. -/
def twoVms : NetBox where
  vms := [⟨7, some 1, none, none⟩, ⟨8, some 1, some 100, some 1⟩]
  rows := [⟨some 7, some 100, some 1⟩]
  sidecarInstalled := true
  distinct := by decide
  installed := by decide

/-- One VM, bound by one sidecar row. -/
def oneVm : NetBox where
  vms := [⟨7, some 1, none, none⟩]
  rows := [⟨some 7, some 100, some 1⟩]
  sidecarInstalled := true
  distinct := by decide
  installed := by decide

def vm100 : Identity := ⟨100, some 1, none, none, by simp⟩

/-- The custom fields cannot be read: the VM of the sidecar row is taken for the only one. -/
theorem sidecar_adopted_unread_fields : ¬ Right twoVms true vm100
    (resolveUniqueVmIdentityCandidate twoVms ⟨false, true, fun _ => false, false⟩ true vm100) := by
  have hverdict : resolveUniqueVmIdentityCandidate twoVms ⟨false, true, fun _ => false, false⟩ true
      vm100 = (some ⟨⟨7, some 1, none, none⟩, 7, .sidecar⟩, false) := by decide
  rw [hverdict]
  rintro ⟨-, -, honly⟩
  have hbinds : Binds twoVms true vm100 8 :=
    ⟨⟨8, some 1, some 100, some 1⟩, by decide, rfl, Or.inr ⟨rfl, by decide⟩⟩
  exact absurd ((honly 8).mp hbinds) (by decide)

/-- The row is read and then the VM cannot be fetched: the VM is reported as absent. -/
theorem live_vm_reported_absent : ¬ Right oneVm false vm100
    (resolveUniqueVmIdentityCandidate oneVm ⟨false, false, fun _ => false, true⟩ false
      vm100) := by
  have hverdict : resolveUniqueVmIdentityCandidate oneVm ⟨false, false, fun _ => false, true⟩ false
      vm100 = (none, false) := by decide
  rw [hverdict]
  intro hright
  exact hright 7 ⟨⟨7, some 1, none, none⟩, by decide, rfl,
    Or.inl ⟨⟨some 7, some 100, some 1⟩, by decide, rfl, rfl⟩⟩

end ProxboxApi.SyncState
