import Mathlib.Data.List.Pairwise
import Mathlib.Data.String.Basic
import ProxboxApi.NameFixpoint

/-! The pre-pass over a snapshot that stores the names of an earlier pre-pass, and over the same
lists in another order. -/

namespace ProxboxApi.VmNames

open ProxboxApi.VmQueue

variable (py : Python)

/-- The record that a prepared VM is matched with. -/
def ownRecordOf (indexes : Indexes) (p : PreparedVMState) : Option Record :=
  existingOf py indexes (clusterOf py p).join p

/-- The names in a cluster of the records that no named VM is matched with. -/
def restingNames (indexes : Indexes) (snapshot : List Record) (prepared : List PreparedVMState)
    (c : ℤ) : Set String :=
  {name | ∃ r ∈ snapshot, relationId py (field "cluster" r) = some (some c) ∧
    snapshotName r = some name ∧ ∀ p ∈ prepared, Named py p → ownRecordOf py indexes p ≠ some r}

/-- The names of the records of a cluster's VMs that are not named. -/
def skippedNames (indexes : Indexes) (prepared : List PreparedVMState) (c : ℤ) : Set String :=
  {name | ∃ p ∈ prepared, clusterOf py p = some (some c) ∧ ¬ Named py p ∧
    ∃ r, ownRecordOf py indexes p = some r ∧ field "name" r = .str name}

/-- The names that operators gave the VMs of a cluster. -/
def operatorNames (indexes : Indexes) (lastSyncedNames : List (ℤ × String))
    (prepared : List PreparedVMState) (c : ℤ) : Set String :=
  {name | ∃ p ∈ prepared, clusterOf py p = some (some c) ∧ Named py p ∧
    (turn py indexes lastSyncedNames (some c) p).rename = .operator name}

/-- The names of a cluster's other records, without those that one of its VMs has anyway. -/
def keptNames (indexes : Indexes) (lastSyncedNames : List (ℤ × String)) (snapshot : List Record)
    (prepared : List PreparedVMState) (c : ℤ) : Set String :=
  restingNames py indexes snapshot prepared c \
    (skippedNames py indexes prepared c ∪ operatorNames py indexes lastSyncedNames prepared c)

/-- The turns of the named VMs of a cluster. -/
def namedTurns (indexes : Indexes) (lastSyncedNames : List (ℤ × String))
    (prepared : List PreparedVMState) (c : ℤ) : List Turn :=
  (namedOrder py prepared (some c)).map fun x => turn py indexes lastSyncedNames (some c) x.1

/-- Every turn of a cluster is stable. -/
def StableCluster (indexes : Indexes) (lastSyncedNames : List (ℤ × String))
    (snapshot : List Record) (prepared : List PreparedVMState) (c : ℤ) : Prop :=
  Runs.Guarded (takeTurn py)
    (Stable py (keptNames py indexes lastSyncedNames snapshot prepared c))
    ⟨usedBefore py indexes snapshot prepared c, ∅⟩
    (namedTurns py indexes lastSyncedNames prepared c)

/-- The snapshot stores the names of the pre-pass: each named VM has a record in its cluster with
its name, whose last synced name is unknown or the one in Proxmox; the other records are as
before. -/
structure Stored (indexes indexes' : Indexes) (lastSyncedNames' : List (ℤ × String))
    (snapshot snapshot' : List Record) (prepared after : List PreparedVMState) : Prop where
  named : ∀ x ∈ prepared.zipIdx, Named py x.1 → ∃ r ∈ snapshot',
    ownRecordOf py indexes' x.1 = some r ∧ field "name" r = .str (nameAt py after x.2) ∧
      relationId py (field "cluster" r) = clusterOf py x.1 ∧
      ((lastSyncedName py lastSyncedNames' (some r)).join = none ∨
        (lastSyncedName py lastSyncedNames' (some r)).join = some (candidateName py x.1))
  unnamed : ∀ p ∈ prepared, ¬ Named py p →
    ownRecordOf py indexes' p = ownRecordOf py indexes p
  resting : ∀ c, restingNames py indexes' snapshot' prepared c =
    restingNames py indexes snapshot prepared c

/-- The names in a snapshot are texts. -/
def TextNames (snapshot : List Record) : Prop := ∀ r ∈ snapshot, ∃ name, field "name" r = .str name

section Sets

variable {py} {indexes : Indexes} {lastSyncedNames : List (ℤ × String)} {snapshot : List Record}
  {prepared after : List PreparedVMState}

theorem snapshotName_eq_iff {r : Record} {name : String} :
    snapshotName r = some name ↔ field "name" r = .str name ∧ name ≠ "" := by
  unfold snapshotName
  cases hfield : field "name" r with
  | str s =>
    by_cases hs : s = ""
    · subst hs
      simp only [if_true, Json.str.injEq]
      constructor
      · simp
      · rintro ⟨rfl, hne⟩
        exact absurd rfl hne
    · simp only [hs, if_false, Option.some.injEq, Json.str.injEq]
      constructor
      · rintro rfl
        exact ⟨rfl, hs⟩
      · exact fun h => h.1
  | _ => simp

theorem mem_storedNames {c : ℤ} {name : String} :
    name ∈ storedNames py snapshot c ↔ ∃ r ∈ snapshot,
      relationId py (field "cluster" r) = some (some c) ∧ snapshotName r = some name := by
  simp [storedNames, and_assoc]

theorem mem_strip {c : Option ℤ} {group : Group} {used : Finset String} {name : String} :
    name ∈ strip py indexes c group used ↔ name ∈ used ∧ ∀ x ∈ group, ∀ r,
      existingOf py indexes c x.1 = some r → field "name" r ≠ .str name := by
  unfold strip
  induction group generalizing used with
  | nil => simp
  | cons x group ih =>
    rw [List.foldl_cons, ih, List.forall_mem_cons, ← and_assoc]
    refine and_congr_left fun _ => ?_
    cases hexisting : existingOf py indexes c x.1 with
    | none => simp
    | some r =>
      cases hname : field "name" r with
      | str s =>
        simp only [Finset.mem_erase, Option.some.injEq, forall_eq', hname, ne_eq, Json.str.injEq]
        rw [and_comm, eq_comm]
      | _ => simp [hname]

/-- Who named a record's VM is decided by the record's name. -/
theorem rename_cases (c : Option ℤ) (candidate : String) (existing : Option Record)
    (lastSynced : Option String) :
    rename py c candidate existing lastSynced = .none ∨
      ∃ r d, existing = some r ∧ c = some d ∧ existingName py r ≠ "" ∧
        isAlgorithmicVariant py (existingName py r) candidate = false ∧
        rename py c candidate existing lastSynced =
          if renamedInProxmox py (existingName py r) lastSynced then .proxmox (existingName py r)
          else .operator (existingName py r) := by
  unfold rename
  split
  next r d =>
    by_cases h : existingName py r ≠ "" ∧ !isAlgorithmicVariant py (existingName py r) candidate
    · right
      refine ⟨r, d, rfl, rfl, h.1, by simpa using h.2, ?_⟩
      exact if_pos h
    · left
      exact if_neg h
  next => exact .inl rfl

theorem existingName_of_text {r : Record} {name : String} (h : field "name" r = .str name) :
    existingName py r = name := by
  unfold field at h
  unfold existingName
  cases hget : Dict.get "name" r with
  | none => simp [hget] at h
  | some value =>
    rw [hget] at h
    obtain rfl : value = .str name := h
    rfl

/-- A record that bears a name given to its VM is an operator's if the name is no variant. -/
theorem rename_again {c : ℤ} {candidate name : String} {r : Record} {lastSynced : Option String}
    (hname : field "name" r = .str name) (hne : name ≠ "")
    (hlast : lastSynced = none ∨ lastSynced = some candidate) :
    rename py (some c) candidate (some r) lastSynced =
      if isAlgorithmicVariant py name candidate then .none else .operator name := by
  unfold rename
  dsimp only
  rw [existingName_of_text hname]
  by_cases hvariant : isAlgorithmicVariant py name candidate = true
  · simp [hvariant]
  · have hrenamed : renamedInProxmox py name lastSynced = false := by
      have hcandidate : name ≠ candidate := by
        rintro rfl
        apply hvariant
        simp [isAlgorithmicVariant]
      rcases hlast with rfl | rfl
      · rfl
      · simp [renamedInProxmox, hcandidate, hvariant]
    simp [hne, hvariant, hrenamed]

theorem operator_mem_names {ts : List Turn} {used : Finset String} {t : Turn} {name : String}
    (ht : t ∈ ts) (h : t.rename = .operator name) : name ∈ names py used ts := by
  induction ts generalizing used with
  | nil => simp at ht
  | cons u ts ih =>
    rw [names]
    rcases List.mem_cons.mp ht with rfl | ht
    · exact Turn.name_kept h used ▸ List.mem_cons_self
    · exact List.mem_cons_of_mem _ (ih ht)

theorem mem_turns {c : ℤ} {t : Turn} :
    t ∈ namedTurns py indexes lastSyncedNames prepared c ↔
      ∃ p ∈ prepared, clusterOf py p = some (some c) ∧ Named py p ∧
        turn py indexes lastSyncedNames (some c) p = t := by
  unfold namedTurns
  rw [List.mem_map]
  constructor
  · rintro ⟨x, hx, rfl⟩
    obtain ⟨hplace, hcluster, hnamed⟩ := (mem_namedOrder py).mp hx
    exact ⟨x.1, List.mem_of_getElem? hplace, hcluster, hnamed, rfl⟩
  · rintro ⟨p, hp, hcluster, hnamed, rfl⟩
    obtain ⟨i, hi⟩ := List.mem_iff_getElem?.mp hp
    exact ⟨(p, i), (mem_namedOrder py).mpr ⟨hi, hcluster, hnamed⟩, rfl⟩

theorem ownRecordOf_eq {c : Option ℤ} {p : PreparedVMState} (h : clusterOf py p = some c) :
    ownRecordOf py indexes p = existingOf py indexes c p := by
  rw [ownRecordOf, h, Option.join_some]

theorem sound_namedTurns {c : ℤ} :
    ∀ t ∈ namedTurns py indexes lastSyncedNames prepared c, t.Sound py := by
  intro t ht name hrename
  obtain ⟨p, -, -, -, rfl⟩ := mem_turns.mp ht
  rcases rename_cases (some c) (candidateName py p) (existingOf py indexes (some c) p)
    (lastSyncedName py lastSyncedNames (existingOf py indexes (some c) p)).join with
    hnone | ⟨r, d, -, -, -, hvariant, hcase⟩
  · rw [turn, hnone] at hrename
    cases hrename
  · rw [turn, hcase] at hrename
    dsimp only at hrename
    split at hrename
    · cases hrename
    · obtain rfl := Rename.operator.inj hrename
      exact hvariant

theorem mem_of_choose {vmType : Option String} {cands : List Record} {r : Record}
    (h : choose py vmType cands = some r) : r ∈ cands := by
  unfold choose at h
  split at h
  · split at h
    · rename_i hfind
      exact Option.some.inj h ▸ List.mem_of_find?_eq_some hfind
    · split at h
      · split at h
        · exact Option.some.inj h ▸ List.mem_singleton_self _
        · simp at h
      · simp at h
  · split at h
    · exact Option.some.inj h ▸ List.mem_singleton_self _
    · simp at h

/-- The selected record is the choice among the candidates of a key. -/
theorem existingOf_eq (hindexes : buildVmSnapshotIdentityIndexes py snapshot = some indexes)
    (c : Option ℤ) (p : PreparedVMState) : existingOf py indexes c p =
      if vmidOf py p = 0 then none
      else match extractProxmoxEndpointId py p.desiredPayload, c with
        | some endpointId, _ => choose py (normalizeProxmoxVmType py (.str p.vmType))
            (candidates py snapshot .endpoint (endpointId, vmidOf py p))
        | none, some c => choose py (normalizeProxmoxVmType py (.str p.vmType))
            (candidates py snapshot .cluster (c, vmidOf py p))
        | none, none => none := by
  unfold existingOf selectExistingVmRecord
  by_cases hvmid : vmidOf py p = 0
  · simp [hvmid]
  · cases hendpoint : extractProxmoxEndpointId py p.desiredPayload with
    | some endpointId =>
      simp only [hvmid, if_false]
      exact select_eq py .endpoint hindexes
    | none =>
      cases c with
      | none => simp only [hvmid, if_false]
      | some c =>
        simp only [hvmid, if_false]
        exact select_eq py .cluster hindexes

theorem mem_of_existingOf (hindexes : buildVmSnapshotIdentityIndexes py snapshot = some indexes)
    {c : Option ℤ} {p : PreparedVMState} {r : Record} (h : existingOf py indexes c p = some r) :
    r ∈ snapshot := by
  have hcandidates : ∀ scope key, r ∈ candidates py snapshot scope key → r ∈ snapshot :=
    fun scope key hr => (List.mem_filter.mp hr).1
  rw [existingOf_eq hindexes] at h
  split at h
  · cases h
  · split at h
    · exact hcandidates _ _ (mem_of_choose h)
    · exact hcandidates _ _ (mem_of_choose h)
    · cases h

/-- A name that a VM lost in Proxmox is not among the names used before the first turn. -/
theorem erased_namedTurns (htext : TextNames snapshot)
    (hindexes : buildVmSnapshotIdentityIndexes py snapshot = some indexes) {c : ℤ} :
    ∀ t ∈ namedTurns py indexes lastSyncedNames prepared c, ∀ name, t.rename = .proxmox name →
      name ∉ usedBefore py indexes snapshot prepared c := by
  intro t ht name hrename hmem
  obtain ⟨p, hp, hcluster, -, rfl⟩ := mem_turns.mp ht
  rcases rename_cases (some c) (candidateName py p) (existingOf py indexes (some c) p)
    (lastSyncedName py lastSyncedNames (existingOf py indexes (some c) p)).join with
    hnone | ⟨r, d, hexisting, -, -, -, hcase⟩
  · rw [turn, hnone] at hrename
    cases hrename
  · rw [turn, hcase] at hrename
    dsimp only at hrename
    split at hrename
    · obtain rfl := Rename.proxmox.inj hrename
      obtain ⟨stored, hstored⟩ := htext r (mem_of_existingOf hindexes hexisting)
      rw [existingName_of_text hstored] at hmem
      obtain ⟨i, hi⟩ := List.mem_iff_getElem?.mp hp
      have hmember : (p, i) ∈ members py prepared (some c) := (mem_members py).mpr ⟨hi, hcluster⟩
      exact (mem_strip.mp hmem).2 _ hmember r hexisting hstored
    · cases hrename

/-- A turn gives no empty name to a VM with a name in Proxmox. -/
theorem name_ne_empty {c : ℤ} {t : Turn}
    (ht : t ∈ namedTurns py indexes lastSyncedNames prepared c) (used : Finset String) :
    t.name py used ≠ "" := by
  obtain ⟨p, -, -, hnamed, rfl⟩ := mem_turns.mp ht
  by_cases hoperator : ∃ name, (turn py indexes lastSyncedNames (some c) p).rename = .operator name
  · obtain ⟨name, hrename⟩ := hoperator
    rw [Turn.name_kept hrename]
    rcases rename_cases (some c) (candidateName py p) (existingOf py indexes (some c) p)
      (lastSyncedName py lastSyncedNames (existingOf py indexes (some c) p)).join with
      hnone | ⟨r, d, -, -, hne, -, hcase⟩
    · rw [turn, hnone] at hrename
      cases hrename
    · rw [turn, hcase] at hrename
      dsimp only at hrename
      split at hrename
      · cases hrename
      · exact Rename.operator.inj hrename ▸ hne
  · obtain ⟨n, hn⟩ := exists_variant py (fun name h => hoperator ⟨name, h⟩) used
    rw [hn]
    cases n with
    | zero => exact hnamed.1
    | succ n =>
      intro hempty
      have hlength := congrArg (fun s => s.toList.length) hempty
      simp [variant, suffixed, String.toList_append] at hlength

theorem names_ne_empty {ts : List Turn} (h : ∀ t ∈ ts, ∀ used, t.name py used ≠ "")
    {used : Finset String} {name : String} (hname : name ∈ names py used ts) : name ≠ "" := by
  induction ts generalizing used with
  | nil => simp [names] at hname
  | cons t ts ih =>
    rw [List.forall_mem_cons] at h
    rw [names, List.mem_cons] at hname
    rcases hname with rfl | hname
    · exact h.1 used
    · exact ih h.2 hname

end Sets

section SecondRun

variable {py} {indexes indexes' : Indexes} {lastSyncedNames lastSyncedNames' : List (ℤ × String)}
  {snapshot snapshot' : List Record} {prepared after after' : List PreparedVMState}
  {resolutions resolutions' : List NameResolution}

/-- The names that the first run gave in a cluster. -/
theorem given_iff {c : ℤ} {name : String} :
    name ∈ (namedOrder py prepared (some c)).map (fun x => nameAt py after x.2) ↔
      ∃ p i, prepared[i]? = some p ∧ clusterOf py p = some (some c) ∧ Named py p ∧
        nameAt py after i = name := by
  rw [List.mem_map]
  constructor
  · rintro ⟨x, hx, rfl⟩
    obtain ⟨hplace, hcluster, hnamed⟩ := (mem_namedOrder py).mp hx
    exact ⟨x.1, x.2, hplace, hcluster, hnamed, rfl⟩
  · rintro ⟨p, i, hplace, hcluster, hnamed, rfl⟩
    exact ⟨(p, i), (mem_namedOrder py).mpr ⟨hplace, hcluster, hnamed⟩, rfl⟩

/-- The second run begins with the resting names that none of the cluster's VMs has. -/
theorem mem_usedBefore_second
    (hstored : Stored py indexes indexes' lastSyncedNames' snapshot snapshot' prepared after)
    {c : ℤ} {name : String} : name ∈ usedBefore py indexes' snapshot' prepared c ↔
      name ∈ restingNames py indexes snapshot prepared c ∧
        name ∉ skippedNames py indexes prepared c ∧
        name ∉ (namedOrder py prepared (some c)).map (fun x => nameAt py after x.2) := by
  unfold usedBefore
  rw [mem_strip, mem_storedNames, ← hstored.resting c]
  constructor
  · rintro ⟨⟨r, hr, hcluster, hname⟩, hstrip⟩
    have hmember : ∀ p ∈ prepared, clusterOf py p = some (some c) → ∀ r,
        ownRecordOf py indexes' p = some r → field "name" r ≠ .str name := by
      intro p hp hpc r hown
      obtain ⟨i, hi⟩ := List.mem_iff_getElem?.mp hp
      rw [ownRecordOf_eq hpc] at hown
      exact hstrip (p, i) ((mem_members py).mpr ⟨hi, hpc⟩) r hown
    refine ⟨⟨r, hr, hcluster, hname, ?_⟩, ?_, ?_⟩
    · intro p hp hnamed hown
      obtain ⟨i, hi⟩ := List.mem_iff_getElem?.mp hp
      obtain ⟨r', -, hown', -, hrc, -⟩ :=
        hstored.named (p, i) (List.mem_zipIdx_iff_getElem?.mpr hi) hnamed
      obtain rfl : r = r' := Option.some.inj (hown.symm.trans hown')
      exact hmember p hp (hrc ▸ hcluster) r hown (snapshotName_eq_iff.mp hname).1
    · rintro ⟨p, hp, hpc, hunnamed, r', hown, hr'⟩
      rw [← hstored.unnamed p hp hunnamed] at hown
      exact hmember p hp hpc r' hown hr'
    · intro hgiven
      obtain ⟨p, i, hi, hpc, hnamed, rfl⟩ := given_iff.mp hgiven
      obtain ⟨r', -, hown, hr', -⟩ :=
        hstored.named (p, i) (List.mem_zipIdx_iff_getElem?.mpr hi) hnamed
      exact hmember p (List.mem_of_getElem? hi) hpc r' hown hr'
  · rintro ⟨⟨r, hr, hcluster, hname, -⟩, hskipped, hgiven⟩
    refine ⟨⟨r, hr, hcluster, hname⟩, ?_⟩
    intro x hx r' hown hr'
    obtain ⟨hplace, hpc⟩ := (mem_members py).mp hx
    have hmem := List.mem_of_getElem? hplace
    rw [← ownRecordOf_eq hpc] at hown
    by_cases hnamed : Named py x.1
    · obtain ⟨r'', -, hown', hr'', -⟩ :=
        hstored.named x (List.mem_zipIdx_iff_getElem?.mpr hplace) hnamed
      obtain rfl : r' = r'' := Option.some.inj (hown.symm.trans hown')
      exact hgiven (given_iff.mpr ⟨x.1, x.2, hplace, hpc, hnamed,
        Json.str.inj (hr''.symm.trans hr')⟩)
    · rw [hstored.unnamed x.1 hmem hnamed] at hown
      exact hskipped ⟨x.1, hmem, hpc, hnamed, r', hown, hr'⟩

/-- The two runs of a cluster, as runs of its turns. -/
theorem twice_cluster (htext : TextNames snapshot)
    (hindexes : buildVmSnapshotIdentityIndexes py snapshot = some indexes)
    (hrun : resolveVmNamesPrePass py snapshot lastSyncedNames prepared = some (after, resolutions))
    (hstored : Stored py indexes indexes' lastSyncedNames' snapshot snapshot' prepared after)
    (c : ℤ) :
    Twice py (usedBefore py indexes snapshot prepared c)
      (usedBefore py indexes' snapshot' prepared c)
      (keptNames py indexes lastSyncedNames snapshot prepared c)
      (namedTurns py indexes lastSyncedNames prepared c) where
  sound := sound_namedTurns
  erased := erased_namedTurns htext hindexes
  operators := by
    intro t ht name hrename hkept
    obtain ⟨p, hp, hcluster, hnamed, rfl⟩ := mem_turns.mp ht
    exact hkept.2 (.inr ⟨p, hp, hcluster, hnamed, hrename⟩)
  second := by
    have hgiven : (namedOrder py prepared (some c)).map (fun x => nameAt py after x.2) =
        names py (usedBefore py indexes snapshot prepared c)
          (namedTurns py indexes lastSyncedNames prepared c) :=
      prePass_namedOrder py hindexes hrun (some c)
    have hoperator : ∀ name ∈ operatorNames py indexes lastSyncedNames prepared c,
        name ∈ names py (usedBefore py indexes snapshot prepared c)
          (namedTurns py indexes lastSyncedNames prepared c) := by
      intro name ⟨p, hp, hcluster, hnamed, hrename⟩
      exact operator_mem_names (mem_turns.mpr ⟨p, hp, hcluster, hnamed, rfl⟩) hrename
    ext name
    rw [Finset.mem_coe, mem_usedBefore_second hstored, hgiven, keptNames]
    simp only [Set.mem_sdiff, Set.mem_union, Set.mem_ofPred_eq, not_or]
    constructor
    · rintro ⟨hresting, hskipped, hnot⟩
      exact ⟨⟨hresting, hskipped, fun h => hnot (hoperator name h)⟩, hnot⟩
    · rintro ⟨⟨hresting, hskipped, -⟩, hnot⟩
      exact ⟨hresting, hskipped, hnot⟩

/-- The turn of a VM in the second run finds the name that the first one gave. -/
theorem turn_again (hindexes : buildVmSnapshotIdentityIndexes py snapshot = some indexes)
    (hrun : resolveVmNamesPrePass py snapshot lastSyncedNames prepared = some (after, resolutions))
    (hstored : Stored py indexes indexes' lastSyncedNames' snapshot snapshot' prepared after)
    {c : ℤ} : namedTurns py indexes' lastSyncedNames' prepared c =
      List.zipWith (Turn.again py) (namedTurns py indexes lastSyncedNames prepared c)
        (names py (usedBefore py indexes snapshot prepared c)
          (namedTurns py indexes lastSyncedNames prepared c)) := by
  have hgiven : (namedOrder py prepared (some c)).map (fun x => nameAt py after x.2) =
      names py (usedBefore py indexes snapshot prepared c)
        (namedTurns py indexes lastSyncedNames prepared c) :=
    prePass_namedOrder py hindexes hrun (some c)
  rw [← hgiven]
  unfold namedTurns
  rw [List.zipWith_map, List.zipWith_self]
  apply List.map_congr_left
  intro x hx
  obtain ⟨hplace, hcluster, hnamed⟩ := (mem_namedOrder py).mp hx
  obtain ⟨r, -, hown, hname, -, hlast⟩ :=
    hstored.named x (List.mem_zipIdx_iff_getElem?.mpr hplace) hnamed
  have hne : nameAt py after x.2 ≠ "" := by
    have hmem : nameAt py after x.2 ∈
        (namedOrder py prepared (some c)).map fun x => nameAt py after x.2 :=
      List.mem_map_of_mem hx
    rw [hgiven] at hmem
    exact names_ne_empty (fun t ht => name_ne_empty ht) hmem
  rw [ownRecordOf_eq hcluster] at hown
  unfold turn Turn.again
  dsimp only
  rw [hown, rename_again hname hne hlast]

theorem foldlM_addToGroup_clusters {xs : Group} {groups groups' : List (Option ℤ × Group)}
    (h : xs.foldlM (addToGroup py) groups = some groups') :
    ∀ x ∈ xs, ∃ c, clusterOf py x.1 = some c := by
  induction xs generalizing groups with
  | nil => simp
  | cons x xs ih =>
    rw [List.foldlM_cons] at h
    obtain ⟨mid, hstep, hrest⟩ := Option.bind_eq_some_iff.mp h
    obtain ⟨c, hc, -⟩ := Option.bind_eq_some_iff.mp hstep
    exact List.forall_mem_cons.mpr ⟨⟨c, hc⟩, ih hrest⟩

/-- Where the pre-pass returns, every prepared VM has its group. -/
theorem prePass_grouped
    (hrun : resolveVmNamesPrePass py snapshot lastSyncedNames prepared = some (after, resolutions))
    {i : ℕ} {p : PreparedVMState} (hp : prepared[i]? = some p) : ∃ c, clusterOf py p = some c := by
  unfold resolveVmNamesPrePass at hrun
  obtain ⟨indexes, -, hrun⟩ := Option.bind_eq_some_iff.mp hrun
  obtain ⟨clusterUsedNames, -, hrun⟩ := Option.bind_eq_some_iff.mp hrun
  obtain ⟨grouped, hgrouped, -⟩ := Option.bind_eq_some_iff.mp hrun
  exact foldlM_addToGroup_clusters hgrouped (p, i) (List.mem_zipIdx_iff_getElem?.mpr hp)

/-- No name is changed. -/
def NamesStay (py : Python) (after after' : List PreparedVMState) : Prop :=
  ∀ i, nameAt py after' i = nameAt py after i

/-- Two runs over one list give the same names if they do so to the named VMs of each cluster. -/
theorem namesStay_of_clusters
    (hrun : resolveVmNamesPrePass py snapshot lastSyncedNames prepared = some (after, resolutions))
    (hrun' : resolveVmNamesPrePass py snapshot' lastSyncedNames' prepared =
      some (after', resolutions'))
    (h : ∀ c, (namedOrder py prepared c).map (fun x => nameAt py after' x.2) =
      (namedOrder py prepared c).map fun x => nameAt py after x.2) : NamesStay py after after' := by
  intro i
  have hlength : after.length = prepared.length := by
    simpa using congrArg List.length (prePass_clusters py hrun)
  have hlength' : after'.length = prepared.length := by
    simpa using congrArg List.length (prePass_clusters py hrun')
  cases hp : prepared[i]? with
  | none =>
    have hout : prepared.length ≤ i := List.getElem?_eq_none_iff.mp hp
    unfold nameAt
    rw [List.getElem?_eq_none (hlength'.trans_le hout),
      List.getElem?_eq_none (hlength.trans_le hout)]
  | some p =>
    by_cases hnamed : Named py p
    · obtain ⟨c, hc⟩ := prePass_grouped hrun hp
      exact List.map_inj_left.mp (h c) (p, i) ((mem_namedOrder py).mpr ⟨hp, hc, hnamed⟩)
    · unfold nameAt
      rw [prePass_unnamed py hrun hp hnamed, prePass_unnamed py hrun' hp hnamed]

/-- VMs without a NetBox cluster are named by what is prepared alone. -/
theorem names_without_cluster
    (hindexes : buildVmSnapshotIdentityIndexes py snapshot = some indexes)
    (hindexes' : buildVmSnapshotIdentityIndexes py snapshot' = some indexes')
    (hrun : resolveVmNamesPrePass py snapshot lastSyncedNames prepared = some (after, resolutions))
    (hrun' : resolveVmNamesPrePass py snapshot' lastSyncedNames' prepared =
      some (after', resolutions')) :
    (namedOrder py prepared none).map (fun x => nameAt py after' x.2) =
      (namedOrder py prepared none).map fun x => nameAt py after x.2 := by
  have hempty : ∀ (indexes : Indexes) (snapshot : List Record),
      namesBefore py indexes snapshot prepared none = ∅ := by
    intro indexes snapshot
    refine Finset.eq_empty_of_forall_notMem fun name hname => ?_
    exact absurd (mem_strip.mp hname).1 (Finset.notMem_empty name)
  have hturn : ∀ (indexes : Indexes) (lastSyncedNames : List (ℤ × String)) p,
      turn py indexes lastSyncedNames none p = ⟨candidateName py p, .none⟩ := by
    intro indexes lastSyncedNames p
    unfold turn rename
    split
    next h => cases h
    next => rfl
  rw [prePass_namedOrder py hindexes hrun, prePass_namedOrder py hindexes' hrun', hempty, hempty]
  simp only [hturn]

theorem again_cluster (hindexes : buildVmSnapshotIdentityIndexes py snapshot = some indexes)
    (hindexes' : buildVmSnapshotIdentityIndexes py snapshot' = some indexes')
    (hrun : resolveVmNamesPrePass py snapshot lastSyncedNames prepared = some (after, resolutions))
    (hrun' : resolveVmNamesPrePass py snapshot' lastSyncedNames' prepared =
      some (after', resolutions'))
    (hstored : Stored py indexes indexes' lastSyncedNames' snapshot snapshot' prepared after)
    (c : ℤ) :
    ((namedOrder py prepared (some c)).map (fun x => nameAt py after' x.2) =
        (namedOrder py prepared (some c)).map fun x => nameAt py after x.2) ↔
      names py (usedBefore py indexes' snapshot' prepared c)
        (List.zipWith (Turn.again py) (namedTurns py indexes lastSyncedNames prepared c)
          (names py (usedBefore py indexes snapshot prepared c)
            (namedTurns py indexes lastSyncedNames prepared c))) =
        names py (usedBefore py indexes snapshot prepared c)
          (namedTurns py indexes lastSyncedNames prepared c) := by
  rw [prePass_namedOrder py hindexes hrun, prePass_namedOrder py hindexes' hrun']
  rw [← turn_again hindexes hrun hstored]
  rfl

theorem restingNames_eq_empty {py : Python} {indexes : Indexes} {snapshot : List Record}
    {prepared : List PreparedVMState} {c : ℤ}
    (h : ∀ r ∈ snapshot, ∃ p ∈ prepared, Named py p ∧ ownRecordOf py indexes p = some r) :
    restingNames py indexes snapshot prepared c = ∅ := by
  refine Set.eq_empty_of_forall_notMem fun name hname => ?_
  obtain ⟨r, hr, -, -, hfree⟩ := hname
  obtain ⟨p, hp, hnamed, hown⟩ := h r hr
  exact hfree p hp hnamed hown

/-- A second run over the stored names changes none of them if every turn of the first is stable. -/
theorem namesStay_of_stable (htext : TextNames snapshot)
    (hindexes : buildVmSnapshotIdentityIndexes py snapshot = some indexes)
    (hindexes' : buildVmSnapshotIdentityIndexes py snapshot' = some indexes')
    (hrun : resolveVmNamesPrePass py snapshot lastSyncedNames prepared = some (after, resolutions))
    (hrun' : resolveVmNamesPrePass py snapshot' lastSyncedNames' prepared =
      some (after', resolutions'))
    (hstored : Stored py indexes indexes' lastSyncedNames' snapshot snapshot' prepared after)
    (hstable : ∀ c, StableCluster py indexes lastSyncedNames snapshot prepared c) :
    NamesStay py after after' := by
  apply namesStay_of_clusters hrun hrun'
  intro c
  cases c with
  | none => exact names_without_cluster hindexes hindexes' hrun hrun'
  | some c =>
    rw [again_cluster hindexes hindexes' hrun hrun' hstored]
    exact (twice_cluster htext hindexes hrun hstored c).again_of_stable (hstable c)

/-- It changes none only then, where the variants of the names are read as such. -/
theorem stable_of_namesStay (htext : TextNames snapshot)
    (hindexes : buildVmSnapshotIdentityIndexes py snapshot = some indexes)
    (hindexes' : buildVmSnapshotIdentityIndexes py snapshot' = some indexes')
    (hrun : resolveVmNamesPrePass py snapshot lastSyncedNames prepared = some (after, resolutions))
    (hrun' : resolveVmNamesPrePass py snapshot' lastSyncedNames' prepared =
      some (after', resolutions'))
    (hstored : Stored py indexes indexes' lastSyncedNames' snapshot snapshot' prepared after)
    (hrecognized : ∀ p ∈ prepared, Named py p → ∀ n,
      isAlgorithmicVariant py (variant (candidateName py p) n) (candidateName py p) = true)
    (hstay : NamesStay py after after') :
    ∀ c, StableCluster py indexes lastSyncedNames snapshot prepared c := by
  intro c
  refine (twice_cluster htext hindexes hrun hstored c).stable_of_again ?_ ?_
  · intro t ht n
    obtain ⟨p, hp, -, hnamed, rfl⟩ := mem_turns.mp ht
    exact hrecognized p hp hnamed n
  · rw [← again_cluster hindexes hindexes' hrun hrun' hstored]
    exact List.map_congr_left fun x _ => hstay x.2

end SecondRun

section Order

/-- The keys by which the VMs of a group are sorted are different. -/
def DistinctKeys (prepared : List PreparedVMState) : Prop :=
  prepared.Pairwise fun p q =>
    (py.casefold p.clusterName, vmidOf py p) ≠ (py.casefold q.clusterName, vmidOf py q)

/-- No two records of a type carry one key. -/
def DistinctRecords (snapshot : List Record) : Prop :=
  ∀ r ∈ snapshot, ∀ r' ∈ snapshot, ∀ scope key t, recordKey py scope r = some key →
    recordKey py scope r' = some key → extractProxmoxVmType py r = some t →
      extractProxmoxVmType py r' = some t → r = r'

variable {py} {indexes indexes' : Indexes} {lastSyncedNames : List (ℤ × String)}
  {snapshot snapshot' : List Record} {prepared prepared' after after' : List PreparedVMState}
  {resolutions resolutions' : List NameResolution}

theorem find_perm {cands cands' : List Record} {q : Record → Bool} (h : cands.Perm cands')
    (hone : ∀ r ∈ cands, ∀ r' ∈ cands, q r = true → q r' = true → r = r') :
    cands.find? q = cands'.find? q := by
  cases hfind : cands.find? q with
  | none =>
    symm
    rw [List.find?_eq_none] at hfind ⊢
    exact fun r hr => hfind r (h.mem_iff.mpr hr)
  | some r =>
    have hr := List.mem_of_find?_eq_some hfind
    have hq := List.find?_some hfind
    cases hfind' : cands'.find? q with
    | none => exact absurd hq (List.find?_eq_none.mp hfind' r (h.mem_iff.mp hr))
    | some r' =>
      have hr' := h.mem_iff.mpr (List.mem_of_find?_eq_some hfind')
      rw [hone r hr r' hr' hq (List.find?_some hfind')]

/-- The choice among candidates of which no two have one type goes by no order. -/
theorem choose_perm {vmType : Option String} {cands cands' : List Record} (h : cands.Perm cands')
    (hone : ∀ r ∈ cands, ∀ r' ∈ cands, ∀ t, extractProxmoxVmType py r = some t →
      extractProxmoxVmType py r' = some t → r = r') :
    choose py vmType cands = choose py vmType cands' := by
  have hfind : ∀ t, cands.find? (fun r => extractProxmoxVmType py r = some t) =
      cands'.find? fun r => extractProxmoxVmType py r = some t := by
    intro t
    refine find_perm h fun r hr r' hr' hq hq' => ?_
    exact hone r hr r' hr' t (by simpa using hq) (by simpa using hq')
  unfold choose
  simp only [hfind]
  rcases cands with _ | ⟨r, _ | ⟨s, cands⟩⟩
  · rw [List.nil_perm.mp h]
  · rw [List.singleton_perm.mp h]
  · -- two candidates or more are no lone one in either order
    have hlength := h.length_eq
    rcases cands' with _ | ⟨r', _ | ⟨s', cands'⟩⟩
    · simp at hlength
    · simp at hlength
    · rfl

theorem existingOf_perm (h : snapshot.Perm snapshot') (hone : DistinctRecords py snapshot)
    (hindexes : buildVmSnapshotIdentityIndexes py snapshot = some indexes)
    (hindexes' : buildVmSnapshotIdentityIndexes py snapshot' = some indexes') (c : Option ℤ)
    (p : PreparedVMState) : existingOf py indexes c p = existingOf py indexes' c p := by
  have hchoose : ∀ scope key,
      choose py (normalizeProxmoxVmType py (.str p.vmType)) (candidates py snapshot scope key) =
        choose py (normalizeProxmoxVmType py (.str p.vmType))
          (candidates py snapshot' scope key) := by
    intro scope key
    refine choose_perm (h.filter _) ?_
    intro r hr r' hr' t ht ht'
    obtain ⟨hr, hkey⟩ := List.mem_filter.mp hr
    obtain ⟨hr', hkey'⟩ := List.mem_filter.mp hr'
    exact hone r hr r' hr' scope key t (by simpa using hkey) (by simpa using hkey') ht ht'
  rw [existingOf_eq hindexes, existingOf_eq hindexes']
  simp only [hchoose]

theorem namesBefore_perm (hsnapshot : snapshot.Perm snapshot') (hprepared : prepared.Perm prepared')
    (hexisting : ∀ c p, existingOf py indexes c p = existingOf py indexes' c p) (c : Option ℤ) :
    namesBefore py indexes snapshot prepared c = namesBefore py indexes' snapshot' prepared' c := by
  have hmembers : ∀ P : PreparedVMState → Prop,
      (∀ x ∈ members py prepared c, P x.1) ↔ ∀ x ∈ members py prepared' c, P x.1 := by
    have hall : ∀ prepared : List PreparedVMState, ∀ P : PreparedVMState → Prop,
        (∀ x ∈ members py prepared c, P x.1) ↔
          ∀ p ∈ prepared, clusterOf py p = some c → P p := by
      intro prepared P
      constructor
      · intro h p hp hc
        obtain ⟨i, hi⟩ := List.mem_iff_getElem?.mp hp
        exact h (p, i) ((mem_members py).mpr ⟨hi, hc⟩)
      · intro h x hx
        obtain ⟨hplace, hc⟩ := (mem_members py).mp hx
        exact h x.1 (List.mem_of_getElem? hplace) hc
    intro P
    rw [hall, hall]
    simp only [hprepared.mem_iff]
  ext name
  unfold namesBefore
  rw [mem_strip, mem_strip, hmembers fun p => ∀ r, existingOf py indexes c p = some r →
    field "name" r ≠ .str name]
  simp only [hexisting]
  refine and_congr_left fun _ => ?_
  cases c with
  | none => exact Iff.rfl
  | some c => simp only [mem_storedNames, hsnapshot.mem_iff]

theorem sortsBefore_total (x y : PreparedVMState × ℕ) :
    sortsBefore py x y ∨ sortsBefore py y x := by
  unfold sortsBefore
  rcases lt_trichotomy (py.casefold x.1.clusterName) (py.casefold y.1.clusterName) with h | h | h
  · exact .inl (.inl h)
  · rcases le_total (vmidOf py x.1) (vmidOf py y.1) with hv | hv
    · exact .inl (.inr ⟨h, hv⟩)
    · exact .inr (.inr ⟨h.symm, hv⟩)
  · exact .inr (.inl h)

theorem sortsBefore_trans {x y z : PreparedVMState × ℕ} (h : sortsBefore py x y)
    (h' : sortsBefore py y z) : sortsBefore py x z := by
  unfold sortsBefore at *
  rcases h with h | ⟨h, hv⟩
  · rcases h' with h' | ⟨h', -⟩
    · exact .inl (h.trans h')
    · exact .inl (h' ▸ h)
  · rcases h' with h' | ⟨h', hv'⟩
    · exact .inl (h ▸ h')
    · exact .inr ⟨h.trans h', hv.trans hv'⟩

theorem key_of_sortsBefore {x y : PreparedVMState × ℕ} (h : sortsBefore py x y)
    (h' : sortsBefore py y x) : (py.casefold x.1.clusterName, vmidOf py x.1) =
      (py.casefold y.1.clusterName, vmidOf py y.1) := by
  unfold sortsBefore at *
  rcases h with h | ⟨h, hv⟩
  · rcases h' with h' | ⟨h', -⟩
    · exact absurd (h.trans h') (lt_irrefl _)
    · exact absurd (h' ▸ h) (lt_irrefl _)
  · rcases h' with h' | ⟨-, hv'⟩
    · exact absurd (h ▸ h') (lt_irrefl _)
    · exact Prod.ext h (le_antisymm hv hv')

theorem eq_of_key (hkeys : DistinctKeys py prepared) {p q : PreparedVMState} (hp : p ∈ prepared)
    (hq : q ∈ prepared) (h : (py.casefold p.clusterName, vmidOf py p) =
      (py.casefold q.clusterName, vmidOf py q)) : p = q := by
  have : Std.Symm fun p q : PreparedVMState => (py.casefold p.clusterName, vmidOf py p) ≠
      (py.casefold q.clusterName, vmidOf py q) := ⟨fun _ _ => Ne.symm⟩
  by_contra hne
  exact List.Pairwise.forall hkeys hp hq hne h

/-- The VMs of a group are named in an order that goes by their keys alone. -/
theorem namedOrder_perm (hprepared : prepared.Perm prepared') (hkeys : DistinctKeys py prepared)
    (c : Option ℤ) :
    (namedOrder py prepared c).map Prod.fst = (namedOrder py prepared' c).map Prod.fst := by
  have : Std.Total (sortsBefore py) := ⟨sortsBefore_total⟩
  have : IsTrans (PreparedVMState × ℕ) (sortsBefore py) := ⟨fun _ _ _ => sortsBefore_trans⟩
  have hmembers : ∀ prepared : List PreparedVMState, (members py prepared c).map Prod.fst =
      prepared.filter fun p => clusterOf py p = some c := by
    intro prepared
    have hfst := List.filter_map (f := Prod.fst) (p := fun p => decide (clusterOf py p = some c))
      (l := prepared.zipIdx)
    rw [List.zipIdx_map_fst] at hfst
    exact hfst.symm
  have hfst : ∀ prepared : List PreparedVMState, ((namedOrder py prepared c).map Prod.fst).Perm
      ((prepared.filter fun p => clusterOf py p = some c).filter fun p => Named py p) := by
    intro prepared
    have hsort := (List.perm_insertionSort (sortsBefore py) (members py prepared c)).filter
      fun x => decide (Named py x.1)
    have hmap := List.filter_map (f := Prod.fst) (p := fun p => decide (Named py p))
      (l := members py prepared c)
    rw [hmembers] at hmap
    rw [hmap]
    exact hsort.map Prod.fst
  have hsorted : ∀ prepared : List PreparedVMState,
      ((namedOrder py prepared c).map Prod.fst).Pairwise fun p q =>
        sortsBefore py (p, 0) (q, 0) := by
    intro prepared
    rw [List.pairwise_map]
    exact (List.pairwise_insertionSort _ _).sublist List.filter_sublist
  have hmem : ∀ p ∈ (namedOrder py prepared c).map Prod.fst, p ∈ prepared := by
    intro p hp
    exact List.mem_of_mem_filter (List.mem_of_mem_filter ((hfst prepared).mem_iff.mp hp))
  have hperm := ((hfst prepared).trans ((hprepared.filter _).filter _)).trans (hfst prepared').symm
  refine hperm.eq_of_pairwise ?_ (hsorted prepared) (hsorted prepared')
  intro p q hp hq hpq hqp
  have hkey := key_of_sortsBefore hpq hqp
  exact eq_of_key hkeys (hmem p hp) (hmem q (hperm.mem_iff.mpr hq)) hkey

/-- Lists in another order give every VM the same name. -/
theorem nameAt_perm (hsnapshot : snapshot.Perm snapshot') (hprepared : prepared.Perm prepared')
    (hkeys : DistinctKeys py prepared) (hone : DistinctRecords py snapshot)
    (hrun : resolveVmNamesPrePass py snapshot lastSyncedNames prepared = some (after, resolutions))
    (hrun' : resolveVmNamesPrePass py snapshot' lastSyncedNames prepared' =
      some (after', resolutions'))
    {i j : ℕ} {p : PreparedVMState} (hi : prepared[i]? = some p) (hj : prepared'[j]? = some p) :
    nameAt py after i = nameAt py after' j := by
  obtain ⟨indexes, hindexes, -⟩ := Option.bind_eq_some_iff.mp hrun
  obtain ⟨indexes', hindexes', -⟩ := Option.bind_eq_some_iff.mp hrun'
  have hexisting := existingOf_perm hsnapshot hone hindexes hindexes'
  by_cases hnamed : Named py p
  · obtain ⟨c, hc⟩ := prePass_grouped hrun hi
    have horder := namedOrder_perm hprepared hkeys c
    have hturn : turn py indexes lastSyncedNames c = turn py indexes' lastSyncedNames c := by
      funext q
      unfold turn
      rw [hexisting]
    have hnames : (namedOrder py prepared c).map (fun x => nameAt py after x.2) =
        (namedOrder py prepared' c).map fun x => nameAt py after' x.2 := by
      have hturns := congrArg (List.map (turn py indexes lastSyncedNames c)) horder
      rw [List.map_map, List.map_map] at hturns
      rw [prePass_namedOrder py hindexes hrun, prePass_namedOrder py hindexes' hrun',
        namesBefore_perm hsnapshot hprepared hexisting, ← hturn]
      exact congrArg _ hturns
    have hpairs : (namedOrder py prepared c).map (fun x => (x.1, nameAt py after x.2)) =
        (namedOrder py prepared' c).map fun x => (x.1, nameAt py after' x.2) := by
      have hzip := congrArg₂ List.zip horder hnames
      rwa [List.zip_map', List.zip_map'] at hzip
    have hmem : (p, nameAt py after i) ∈
        (namedOrder py prepared' c).map fun x => (x.1, nameAt py after' x.2) := by
      rw [← hpairs]
      have hx : (p, i) ∈ namedOrder py prepared c := (mem_namedOrder py).mpr ⟨hi, hc, hnamed⟩
      exact List.mem_map.mpr ⟨(p, i), hx, rfl⟩
    obtain ⟨x, hx, heq⟩ := List.mem_map.mp hmem
    obtain ⟨hplace, -, -⟩ := (mem_namedOrder py).mp hx
    obtain ⟨rfl, hname⟩ := Prod.mk.inj heq
    -- a VM has one place in the list
    have hnodup : prepared'.Nodup := by
      refine hprepared.nodup_iff.mp (hkeys.imp ?_)
      rintro p q hne rfl
      exact hne rfl
    have hsame : x.2 = j := (List.getElem?_inj (List.getElem?_eq_some_iff.mp hplace).1 hnodup).mp
      (hplace.trans hj.symm)
    rw [← hname, hsame]
  · unfold nameAt
    rw [prePass_unnamed py hrun hi hnamed, prePass_unnamed py hrun' hj hnamed]

end Order

section Recognition

variable {py}

theorem suffixBase_eq {name : String} {rest : List Char} (h : name.toList.reverse = ')' :: rest) :
    suffixBase py name = match rest.takeWhile py.isDecimal, rest.dropWhile py.isDecimal with
      | _ :: _, '(' :: ' ' :: base =>
        if base ≠ [] ∧ '\n' ∉ base then some (String.ofList base.reverse) else none
      | _, _ => none := by
  unfold suffixBase
  rw [h]
  rfl

/-- A suffixed name without a line feed is read as a variant of its candidate. -/
theorem isAlgorithmicVariant_variant
    (hdecimal : ∀ c : Char, c.toNat < 128 → py.isDecimal c = c.isDigit)
    {candidate : String} (hne : candidate ≠ "") (hline : '\n' ∉ candidate.toList) (n : ℕ) :
    isAlgorithmicVariant py (variant candidate n) candidate = true := by
  cases n with
  | zero => simp [isAlgorithmicVariant, variant]
  | succ n =>
    have hdigits : ∀ c ∈ (toString (n + 2)).toList.reverse, py.isDecimal c = true := by
      intro c hc
      have hdigit := Text.isDigit_of_mem_toString (List.mem_reverse.mp hc)
      have hlt : c.toNat < 65 := toString_lt (n + 2) c (List.mem_reverse.mp hc)
      rw [hdecimal c (by omega), hdigit]
    have hopen : py.isDecimal '(' = false := (hdecimal '(' (by decide)).trans (by decide)
    have hreverse : (variant candidate (n + 1)).toList.reverse =
        ')' :: ((toString (n + 2)).toList.reverse ++ '(' :: ' ' :: candidate.toList.reverse) := by
      simp [variant, suffixed, String.toList_append]
    have hnonempty : (toString (n + 2)).toList.reverse ≠ [] := by
      simp
    have hbase : suffixBase py (variant candidate (n + 1)) = some candidate := by
      have hsplit : ((toString (n + 2)).toList.reverse ++
          '(' :: ' ' :: candidate.toList.reverse).takeWhile py.isDecimal =
            (toString (n + 2)).toList.reverse := by
        rw [List.takeWhile_append_of_pos hdigits, List.takeWhile_cons_of_neg (by simp [hopen]),
          List.append_nil]
      have hrest : ((toString (n + 2)).toList.reverse ++
          '(' :: ' ' :: candidate.toList.reverse).dropWhile py.isDecimal =
            '(' :: ' ' :: candidate.toList.reverse := by
        rw [List.dropWhile_append_of_pos hdigits, List.dropWhile_cons_of_neg (by simp [hopen])]
      rw [suffixBase_eq hreverse, hsplit, hrest]
      obtain ⟨d, digits, hcons⟩ := List.exists_cons_of_ne_nil hnonempty
      rw [hcons]
      have hchars : candidate.toList.reverse ≠ [] ∧ '\n' ∉ candidate.toList.reverse := by
        constructor
        · intro hnil
          rw [List.reverse_eq_nil_iff] at hnil
          exact hne (String.toList_injective hnil)
        · simpa using hline
      change (if candidate.toList.reverse ≠ [] ∧ '\n' ∉ candidate.toList.reverse then
        some (String.ofList candidate.toList.reverse.reverse) else none) = _
      rw [if_pos hchars, List.reverse_reverse, String.ofList_toList]
    simp [isAlgorithmicVariant, hbase]

end Recognition

/-- A second run over the stored names changes none of them if every turn of the first one is
stable, and for names of one line only then; and where no two records of a type carry one key,
the order of the lists changes no name. -/
theorem names_settle (py : Python)
    (hdecimal : ∀ c : Char, c.toNat < 128 → py.isDecimal c = c.isDigit)
    (lastSyncedNames : List (ℤ × String)) (snapshot : List Record)
    (prepared after : List PreparedVMState) (resolutions : List NameResolution) (indexes : Indexes)
    (htext : TextNames snapshot) (hkeys : DistinctKeys py prepared)
    (hindexes : buildVmSnapshotIdentityIndexes py snapshot = some indexes)
    (hrun : resolveVmNamesPrePass py snapshot lastSyncedNames prepared =
      some (after, resolutions)) :
    (∀ indexes' lastSyncedNames' snapshot' after' resolutions',
      buildVmSnapshotIdentityIndexes py snapshot' = some indexes' →
      Stored py indexes indexes' lastSyncedNames' snapshot snapshot' prepared after →
      resolveVmNamesPrePass py snapshot' lastSyncedNames' prepared = some (after', resolutions') →
        ((∀ c, StableCluster py indexes lastSyncedNames snapshot prepared c) →
          NamesStay py after after') ∧
        ((∀ p ∈ prepared, '\n' ∉ (candidateName py p).toList) → NamesStay py after after' →
          ∀ c, StableCluster py indexes lastSyncedNames snapshot prepared c)) ∧
    (DistinctRecords py snapshot → ∀ snapshot' prepared' after' resolutions',
      snapshot.Perm snapshot' → prepared.Perm prepared' →
      resolveVmNamesPrePass py snapshot' lastSyncedNames prepared' = some (after', resolutions') →
        ∀ i j p, prepared[i]? = some p → prepared'[j]? = some p →
          nameAt py after i = nameAt py after' j) := by
  refine ⟨?_, ?_⟩
  · intro indexes' lastSyncedNames' snapshot' after' resolutions' hindexes' hstored hrun'
    refine ⟨namesStay_of_stable htext hindexes hindexes' hrun hrun' hstored, ?_⟩
    intro hlines
    refine stable_of_namesStay htext hindexes hindexes' hrun hrun' hstored ?_
    intro p hp hnamed n
    exact isAlgorithmicVariant_variant hdecimal hnamed.1 (hlines p hp) n
  · intro hone snapshot' prepared' after' resolutions' hsnapshot hprepared hrun' i j p hi hj
    exact nameAt_perm hsnapshot hprepared hkeys hone hrun hrun' hi hj

/-- The second of two guests of one name keeps its suffix. -/
theorem names_settle_suffixed :
    ∃ indexes indexes' after after' resolutions resolutions',
      buildVmSnapshotIdentityIndexes .ascii [record 7 10 "web"] = some indexes ∧
      resolveVmNamesPrePass .ascii [record 7 10 "web"] [] [guest 10 "web", guest 11 "Web"] =
        some (after, resolutions) ∧
      after.map (candidateName .ascii) = ["web", "Web (2)"] ∧
      buildVmSnapshotIdentityIndexes .ascii [record 7 10 "web", record 8 11 "Web (2)"] =
        some indexes' ∧
      resolveVmNamesPrePass .ascii [record 7 10 "web", record 8 11 "Web (2)"] []
        [guest 10 "web", guest 11 "Web"] = some (after', resolutions') ∧
      (NamesStay .ascii after after' ↔
        ∀ c, StableCluster .ascii indexes [] [record 7 10 "web"]
          [guest 10 "web", guest 11 "Web"] c) ∧
      nameAt .ascii after 1 = "Web (2)" := by
  have hnamed : ∀ p ∈ [guest 10 "web", guest 11 "Web"], Named .ascii p := by decide
  have htext : TextNames [record 7 10 "web"] := by
    intro r hr
    obtain rfl := List.mem_singleton.mp hr
    exact ⟨"web", rfl⟩
  have hkeys : DistinctKeys .ascii [guest 10 "web", guest 11 "Web"] := by
    unfold DistinctKeys
    decide
  have hdecimal : ∀ c : Char, c.toNat < 128 → Python.ascii.isDecimal c = c.isDigit := by
    intro c _
    simp [Python.ascii, Text.isDigits]
  refine ⟨_, _, _, _, _, _, rfl, rfl, by decide, rfl, rfl, ?_, by decide⟩
  have hsettle := (names_settle .ascii hdecimal [] [record 7 10 "web"]
    [guest 10 "web", guest 11 "Web"] _ _ _ htext hkeys rfl rfl).1 _ []
    [record 7 10 "web", record 8 11 "Web (2)"] _ _ rfl ?_ rfl
  · exact ⟨hsettle.2 (by decide), hsettle.1⟩
  · refine ⟨?_, ?_, ?_⟩
    · intro x hx _
      simp only [List.zipIdx_cons, List.zipIdx_nil, List.mem_cons, List.not_mem_nil,
        or_false] at hx
      obtain rfl | rfl := hx
      · exact ⟨record 7 10 "web", by simp, rfl, rfl, rfl, .inl (by decide)⟩
      · exact ⟨record 8 11 "Web (2)", by simp, rfl, rfl, rfl, .inl (by decide)⟩
    · intro p hp hunnamed
      exact absurd (hnamed p hp) hunnamed
    · intro c
      rw [restingNames_eq_empty, restingNames_eq_empty]
      · intro r hr
        obtain rfl := List.mem_singleton.mp hr
        exact ⟨guest 10 "web", by simp, by decide, rfl⟩
      · intro r hr
        simp only [List.mem_cons, List.not_mem_nil, or_false] at hr
        obtain rfl | rfl := hr
        · exact ⟨guest 10 "web", by simp, by decide, rfl⟩
        · exact ⟨guest 11 "Web", by simp, by decide, rfl⟩

/-- Guest 20 was renamed in Proxmox from "old" to "new"; two new guests are called "old". -/
def renamedGuests : List PreparedVMState := [guest 10 "old", guest 20 "new", guest 30 "old"]

/-- A new guest takes the name that another one was just given, and gets a suffix in the next
run. -/
theorem name_changed_by_second_run :
    DistinctKeys .ascii renamedGuests ∧ TextNames [record 7 20 "old"] ∧
    ∃ indexes indexes' after after' resolutions resolutions',
      buildVmSnapshotIdentityIndexes .ascii [record 7 20 "old"] = some indexes ∧
      buildVmSnapshotIdentityIndexes .ascii
        [record 7 20 "new", record 8 10 "old", record 9 30 "old"] = some indexes' ∧
      resolveVmNamesPrePass .ascii [record 7 20 "old"] [(7, "old")] renamedGuests =
        some (after, resolutions) ∧
      resolveVmNamesPrePass .ascii [record 7 20 "new", record 8 10 "old", record 9 30 "old"]
        [(7, "new"), (8, "old"), (9, "old")] renamedGuests = some (after', resolutions') ∧
      Stored .ascii indexes indexes' [(7, "new"), (8, "old"), (9, "old")] [record 7 20 "old"]
        [record 7 20 "new", record 8 10 "old", record 9 30 "old"] renamedGuests after ∧
      ¬ NamesStay .ascii after after' := by
  have hnamed : ∀ p ∈ renamedGuests, Named .ascii p := by decide
  refine ⟨by unfold DistinctKeys; decide, ?_, _, _, _, _, _, _, rfl, rfl, rfl, rfl, ?_, ?_⟩
  · intro r hr
    obtain rfl := List.mem_singleton.mp hr
    exact ⟨"old", rfl⟩
  · refine ⟨?_, ?_, ?_⟩
    · intro x hx _
      simp only [renamedGuests, List.zipIdx_cons, List.zipIdx_nil, List.mem_cons,
        List.not_mem_nil, or_false] at hx
      obtain rfl | rfl | rfl := hx
      · exact ⟨record 8 10 "old", by simp, rfl, rfl, rfl, .inr (by decide)⟩
      · exact ⟨record 7 20 "new", by simp, rfl, rfl, rfl, .inr (by decide)⟩
      · exact ⟨record 9 30 "old", by simp, rfl, rfl, rfl, .inr (by decide)⟩
    · intro p hp hunnamed
      exact absurd (hnamed p hp) hunnamed
    · intro c
      rw [restingNames_eq_empty, restingNames_eq_empty]
      · intro r hr
        obtain rfl := List.mem_singleton.mp hr
        exact ⟨guest 20 "new", by simp [renamedGuests], by decide, rfl⟩
      · intro r hr
        simp only [List.mem_cons, List.not_mem_nil, or_false] at hr
        obtain rfl | rfl | rfl := hr
        · exact ⟨guest 20 "new", by simp [renamedGuests], by decide, rfl⟩
        · exact ⟨guest 10 "old", by simp [renamedGuests], by decide, rfl⟩
        · exact ⟨guest 30 "old", by simp [renamedGuests], by decide, rfl⟩
  · intro h
    exact absurd (h 2) (by decide)

end ProxboxApi.VmNames
