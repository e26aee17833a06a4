import ProxboxApi.NamePrePass
import ProxboxApi.Runs

/-! The names that the pre-pass gives, turn by turn within a NetBox cluster, and what it is for
them to be unique. -/

namespace ProxboxApi.VmNames

open ProxboxApi.VmQueue

variable (py : Python)

/-- What the naming of a VM depends on besides the used names. -/
structure Turn where
  candidate : String
  rename : Rename

/-- The used names among which the name is picked. -/
def Turn.base (t : Turn) (used : Finset String) : Finset String :=
  match t.rename with
  | .proxmox name => used.erase name
  | _ => used

/-- The name that a turn gives. -/
def Turn.name (t : Turn) (used : Finset String) : String :=
  match t.rename with
  | .operator name => name
  | _ => (pickSuffix py t.candidate (t.base used)).1

section

variable {py} {t : Turn}

/-- A turn that no operator's rename decides picks its name. -/
theorem Turn.name_picked (ht : ∀ kept, t.rename ≠ .operator kept) (used : Finset String) :
    t.name py used = (pickSuffix py t.candidate (t.base used)).1 := by
  unfold Turn.name
  cases hrename : t.rename with
  | none => rfl
  | proxmox other => rfl
  | operator kept => exact absurd hrename (ht kept)

theorem Turn.name_kept {kept : String} (ht : t.rename = .operator kept) (used : Finset String) :
    t.name py used = kept := by
  unfold Turn.name
  rw [ht]

end

/-- The used names, and the names that no later VM of the cluster may get. -/
structure NamingState where
  used : Finset String
  taken : Set String

/-- A turn uses and takes its name. -/
def takeTurn (s : NamingState) (t : Turn) : Option NamingState :=
  some ⟨insert (t.name py s.used) (t.base s.used), insert (t.name py s.used) s.taken⟩

/-- The names given turn by turn. -/
def names : Finset String → List Turn → List String
  | _, [] => []
  | used, t :: ts => t.name py used :: names (insert (t.name py used) (t.base used)) ts

/-- The resolver gives the name of the turn and uses it. -/
theorem resolveUniqueVmName_eq (clusterId : Option ℤ) (candidate : String)
    (used : Finset String) (existing : Option Record) (lastSynced : Option String) :
    let t : Turn := ⟨candidate, rename py clusterId candidate existing lastSynced⟩
    let resolved := resolveUniqueVmName py clusterId candidate used existing lastSynced
    resolved.1.resolvedName = t.name py used ∧
      resolved.2 = insert (t.name py used) (t.base used) := by
  unfold resolveUniqueVmName Turn.name Turn.base
  cases rename py clusterId candidate existing lastSynced with
  | none => exact ⟨rfl, rfl⟩
  | proxmox name => exact ⟨rfl, rfl⟩
  | operator name => exact ⟨rfl, rfl⟩

theorem pickSuffix_bare {candidate : String} {used : Finset String}
    (h : ¬ 1 < (pickSuffix py candidate used).2) : (pickSuffix py candidate used).1 = candidate := by
  unfold pickSuffix at h ⊢
  by_cases hfree : py.casefold candidate ∉ used.image py.casefold
  · rw [if_pos hfree]
  · rw [if_neg hfree] at h
    exact absurd (Nat.lt_of_lt_of_le Nat.one_lt_two FreshNames.le_search) h

/-- A name that is neither a collision nor an operator's is the candidate. -/
theorem resolvedName_bare {clusterId : Option ℤ} {candidate : String} {used used' : Finset String}
    {existing : Option Record} {lastSynced : Option String} {resolution : NameResolution}
    (hresolve : resolveUniqueVmName py clusterId candidate used existing lastSynced =
      (resolution, used'))
    (hbare : ¬ (resolution.isCollision || resolution.operatorRenamed) = true) :
    resolution.resolvedName = candidate := by
  have hresolution := congrArg Prod.fst hresolve
  unfold resolveUniqueVmName at hresolution
  generalize rename py clusterId candidate existing lastSynced = renamed at hresolution
  cases renamed with
  | none =>
    obtain rfl : _ = resolution := hresolution
    exact pickSuffix_bare py (by simpa using hbare)
  | proxmox name =>
    obtain rfl : _ = resolution := hresolution
    exact pickSuffix_bare py (by simpa using hbare)
  | operator name =>
    obtain rfl : _ = resolution := hresolution
    exact absurd rfl hbare

def clusterOf (p : PreparedVMState) : Option (Option ℤ) :=
  relationId py (field "cluster" p.desiredPayload)

/-- The name of the prepared VM at a place of the list. -/
def nameAt (prepared : List PreparedVMState) (i : ℕ) : String :=
  (prepared[i]?.map (candidateName py)).getD ""

/-- The turn of a prepared VM of a cluster. -/
def turn (indexes : Indexes) (lastSyncedNames : List (ℤ × String)) (clusterId : Option ℤ)
    (p : PreparedVMState) : Turn where
  candidate := candidateName py p
  rename := rename py clusterId (candidateName py p) (existingOf py indexes clusterId p)
    (lastSyncedName py lastSyncedNames (existingOf py indexes clusterId p)).join

@[simp] theorem candidateName_setName (name : String) (p : PreparedVMState) :
    candidateName py (setName name p) = name := by
  have hfield : field "name" (setName name p).desiredPayload = .str name := by
    simp [field, setName, Dict.get_set]
  unfold candidateName
  rw [hfield]
  by_cases h : name = ""
  · simp [Python.truthy, h]
  · simp [Python.truthy, Python.str, h]

@[simp] theorem clusterOf_setName (name : String) (p : PreparedVMState) :
    clusterOf py (setName name p) = clusterOf py p := by
  simp [clusterOf, field, setName, Dict.get_set]

variable {indexes : Indexes} {lastSyncedNames : List (ℤ × String)} {clusterId : Option ℤ}

/-- What one iteration does: nothing, or the resolution of the name of the VM at hand. -/
theorem resolveStep_cases {s s' : PassState} {x : PreparedVMState × ℕ}
    (h : resolveStep py indexes lastSyncedNames clusterId s x = some s') :
    ((candidateName py x.1 = "" ∨ vmidOf py x.1 = 0) ∧ s' = s) ∨
    ∃ lastSynced resolution,
      lastSyncedName py lastSyncedNames (existingOf py indexes clusterId x.1) = some lastSynced ∧
      resolveUniqueVmName py clusterId (candidateName py x.1) s.used
        (existingOf py indexes clusterId x.1) lastSynced = (resolution, s'.used) ∧
      s'.prepared = if resolution.isCollision || resolution.operatorRenamed then
        s.prepared.modify x.2 (setName resolution.resolvedName) else s.prepared := by
  unfold resolveStep at h
  by_cases hskip : candidateName py x.1 = "" ∨ vmidOf py x.1 = 0
  · left
    rw [if_pos hskip] at h
    exact ⟨hskip, (Option.some.inj h).symm⟩
  · right
    rw [if_neg hskip] at h
    obtain ⟨lastSynced, hlast, h⟩ := Option.bind_eq_some_iff.mp h
    obtain ⟨⟨resolution, used⟩, hresolve⟩ : ∃ r, resolveUniqueVmName py clusterId
      (candidateName py x.1) s.used (existingOf py indexes clusterId x.1) lastSynced = r := ⟨_, rfl⟩
    dsimp only at h
    rw [hresolve] at h
    dsimp only at h
    by_cases hset : resolution.isCollision || resolution.operatorRenamed
    · rw [if_pos hset] at h
      obtain rfl := Option.some.inj h
      exact ⟨lastSynced, resolution, hlast, hresolve, (if_pos hset).symm⟩
    · rw [if_neg hset] at h
      obtain rfl := Option.some.inj h
      exact ⟨lastSynced, resolution, hlast, hresolve, (if_neg hset).symm⟩

theorem resolveStep_frame {s s' : PassState} {x : PreparedVMState × ℕ} {i : ℕ}
    (h : resolveStep py indexes lastSyncedNames clusterId s x = some s') (hi : i ≠ x.2) :
    s'.prepared[i]? = s.prepared[i]? := by
  rcases resolveStep_cases py h with ⟨-, rfl⟩ | ⟨lastSynced, resolution, -, -, hprepared⟩
  · rfl
  · rw [hprepared]
    split
    · exact List.getElem?_modify_ne _ _ (Ne.symm hi)
    · rfl

theorem map_clusterOf_modify (name : String) (i : ℕ) (prepared : List PreparedVMState) :
    (prepared.modify i (setName name)).map (clusterOf py) = prepared.map (clusterOf py) := by
  refine List.ext_getElem? fun j => ?_
  rw [List.getElem?_map, List.getElem?_map, List.getElem?_modify]
  cases prepared[j]? with
  | none => rfl
  | some p =>
    by_cases hij : i = j
    · simp [hij]
    · simp [hij]

theorem resolveStep_clusters {s s' : PassState} {x : PreparedVMState × ℕ}
    (h : resolveStep py indexes lastSyncedNames clusterId s x = some s') :
    s'.prepared.map (clusterOf py) = s.prepared.map (clusterOf py) := by
  rcases resolveStep_cases py h with ⟨-, rfl⟩ | ⟨lastSynced, resolution, -, -, hprepared⟩
  · rfl
  · rw [hprepared]
    split
    · exact map_clusterOf_modify py _ _ _
    · rfl

/-- One iteration names its VM as the turn does. -/
theorem resolveStep_turn {s s' : PassState} {x : PreparedVMState × ℕ}
    (hname : candidateName py x.1 ≠ "") (hvmid : vmidOf py x.1 ≠ 0)
    (hplace : s.prepared[x.2]? = some x.1)
    (h : resolveStep py indexes lastSyncedNames clusterId s x = some s') :
    nameAt py s'.prepared x.2 = (turn py indexes lastSyncedNames clusterId x.1).name py s.used ∧
      s'.used = insert ((turn py indexes lastSyncedNames clusterId x.1).name py s.used)
        ((turn py indexes lastSyncedNames clusterId x.1).base s.used) := by
  rcases resolveStep_cases py h with
    ⟨hskip | hskip, -⟩ | ⟨lastSynced, resolution, hlast, hresolve, hprepared⟩
  · exact absurd hskip hname
  · exact absurd hskip hvmid
  · obtain ⟨hresolved, hused⟩ := resolveUniqueVmName_eq py clusterId (candidateName py x.1) s.used
      (existingOf py indexes clusterId x.1) lastSynced
    rw [hresolve] at hresolved hused
    unfold turn
    rw [hlast, Option.join_some]
    refine ⟨?_, hused⟩
    rw [← hresolved, hprepared]
    unfold nameAt
    split
    · rw [List.getElem?_modify_eq, hplace]
      simp
    · rename_i hbare
      rw [hplace]
      exact (resolvedName_bare py hresolve hbare).symm

theorem foldlM_resolveStep_frame {order : Group} {s s' : PassState} {i : ℕ}
    (h : order.foldlM (resolveStep py indexes lastSyncedNames clusterId) s = some s')
    (hi : i ∉ order.map Prod.snd) : s'.prepared[i]? = s.prepared[i]? := by
  induction order generalizing s with
  | nil =>
    obtain rfl : s = s' := by simpa using h
    rfl
  | cons x order ih =>
    rw [List.foldlM_cons] at h
    obtain ⟨mid, hstep, hrest⟩ := Option.bind_eq_some_iff.mp h
    rw [List.map_cons, List.mem_cons, not_or] at hi
    rw [ih hrest hi.2, resolveStep_frame py hstep hi.1]

theorem foldlM_resolveStep_clusters {order : Group} {s s' : PassState}
    (h : order.foldlM (resolveStep py indexes lastSyncedNames clusterId) s = some s') :
    s'.prepared.map (clusterOf py) = s.prepared.map (clusterOf py) := by
  induction order generalizing s with
  | nil =>
    obtain rfl : s = s' := by simpa using h
    rfl
  | cons x order ih =>
    rw [List.foldlM_cons] at h
    obtain ⟨mid, hstep, hrest⟩ := Option.bind_eq_some_iff.mp h
    rw [ih hrest, resolveStep_clusters py hstep]

/-- The loop over a group names its VMs as the run of their turns does. -/
theorem foldlM_resolveStep {order : Group} {s s' : PassState}
    (hnodup : (order.map Prod.snd).Nodup)
    (hname : ∀ x ∈ order, candidateName py x.1 ≠ "") (hvmid : ∀ x ∈ order, vmidOf py x.1 ≠ 0)
    (hplace : ∀ x ∈ order, s.prepared[x.2]? = some x.1)
    (h : order.foldlM (resolveStep py indexes lastSyncedNames clusterId) s = some s') :
    order.map (fun x => nameAt py s'.prepared x.2) =
      names py s.used (order.map fun x => turn py indexes lastSyncedNames clusterId x.1) := by
  induction order generalizing s with
  | nil => rfl
  | cons x order ih =>
    rw [List.foldlM_cons] at h
    obtain ⟨mid, hstep, hrest⟩ := Option.bind_eq_some_iff.mp h
    rw [List.map_cons, List.nodup_cons] at hnodup
    rw [List.forall_mem_cons] at hname hvmid hplace
    obtain ⟨hfirst, hused⟩ := resolveStep_turn py hname.1 hvmid.1 hplace.1 hstep
    have hplace' : ∀ y ∈ order, mid.prepared[y.2]? = some y.1 := by
      intro y hy
      have hne : y.2 ≠ x.2 := by
        intro heq
        exact hnodup.1 (heq ▸ List.mem_map_of_mem hy)
      rw [resolveStep_frame py hstep hne]
      exact hplace.2 y hy
    have htail := ih hnodup.2 hname.2 hvmid.2 hplace' hrest
    have hkept : nameAt py s'.prepared x.2 = nameAt py mid.prepared x.2 := by
      unfold nameAt
      rw [foldlM_resolveStep_frame py hrest hnodup.1]
    rw [List.map_cons, List.map_cons, names, htail, hkept, hfirst, hused]

/-- The prepared VMs of a cluster, with their places. -/
def members (prepared : List PreparedVMState) (clusterId : Option ℤ) : Group :=
  prepared.zipIdx.filter fun x => clusterOf py x.1 = some clusterId

/-- The names the snapshot stores in a cluster. -/
def storedNames (snapshot : List Record) (clusterId : ℤ) : Finset String :=
  ((snapshot.filter fun r => relationId py (field "cluster" r) = some (some clusterId)).filterMap
    snapshotName).toFinset

theorem foldlM_addToGroup {xs : Group} {groups groups' : List (Option ℤ × Group)}
    (c : Option ℤ) (h : xs.foldlM (addToGroup py) groups = some groups') :
    (Dict.get c groups').getD [] =
      (Dict.get c groups).getD [] ++ xs.filter fun x => clusterOf py x.1 = some c := by
  induction xs generalizing groups with
  | nil =>
    obtain rfl : groups = groups' := by simpa using h
    simp
  | cons x xs ih =>
    rw [List.foldlM_cons] at h
    obtain ⟨mid, hstep, hrest⟩ := Option.bind_eq_some_iff.mp h
    obtain ⟨d, hd, hmid⟩ := Option.bind_eq_some_iff.mp hstep
    obtain rfl := Option.some.inj hmid
    have hcluster : clusterOf py x.1 = some d := hd
    rw [ih hrest, Dict.get_set]
    by_cases hc : d = c
    · simp [hc, hcluster]
    · simp [hc, hcluster]

theorem nodup_keys_foldlM_addToGroup {xs : Group} {groups groups' : List (Option ℤ × Group)}
    (hd : (Dict.keys groups).Nodup) (h : xs.foldlM (addToGroup py) groups = some groups') :
    (Dict.keys groups').Nodup := by
  induction xs generalizing groups with
  | nil =>
    obtain rfl : groups = groups' := by simpa using h
    exact hd
  | cons x xs ih =>
    rw [List.foldlM_cons] at h
    obtain ⟨mid, hstep, hrest⟩ := Option.bind_eq_some_iff.mp h
    obtain ⟨d, -, hmid⟩ := Option.bind_eq_some_iff.mp hstep
    obtain rfl := Option.some.inj hmid
    exact ih (Dict.nodup_keys_set hd) hrest

theorem foldlM_addUsedName {snapshot : List Record} {used used' : List (ℤ × Finset String)}
    (c : ℤ) (h : snapshot.foldlM (addUsedName py) used = some used') :
    (Dict.get c used').getD ∅ = (Dict.get c used).getD ∅ ∪ storedNames py snapshot c := by
  induction snapshot generalizing used with
  | nil =>
    obtain rfl : used = used' := by simpa using h
    simp [storedNames]
  | cons r snapshot ih =>
    rw [List.foldlM_cons] at h
    obtain ⟨mid, hstep, hrest⟩ := Option.bind_eq_some_iff.mp h
    obtain ⟨d, hd, hmid⟩ := Option.bind_eq_some_iff.mp hstep
    rw [ih hrest]
    cases d with
    | none =>
      obtain rfl := Option.some.inj hmid
      simp [storedNames, hd]
    | some d =>
      cases hname : snapshotName r with
      | none =>
        rw [hname] at hmid
        obtain rfl := Option.some.inj hmid
        by_cases hc : d = c
        · simp [storedNames, hd, hc, hname]
        · simp [storedNames, hd, hc]
      | some name =>
        rw [hname] at hmid
        obtain rfl := Option.some.inj hmid
        rw [Dict.get_set]
        by_cases hc : d = c
        · simp [storedNames, hd, hc, hname]
        · simp [storedNames, hd, hc]

theorem foldlM_resolveGroup_clusters {clusterUsedNames : List (ℤ × Finset String)}
    {groups : List (Option ℤ × Group)} {s s' : PassState}
    (h : groups.foldlM (resolveGroup py indexes lastSyncedNames clusterUsedNames) s = some s') :
    s'.prepared.map (clusterOf py) = s.prepared.map (clusterOf py) := by
  induction groups generalizing s with
  | nil =>
    obtain rfl : s = s' := by simpa using h
    rfl
  | cons g groups ih =>
    rw [List.foldlM_cons] at h
    obtain ⟨mid, hstep, hrest⟩ := Option.bind_eq_some_iff.mp h
    obtain ⟨c, group⟩ := g
    unfold resolveGroup at hstep
    rw [ih hrest, foldlM_resolveStep_clusters py hstep]

theorem mem_members {prepared : List PreparedVMState} {c : Option ℤ} {x : PreparedVMState × ℕ} :
    x ∈ members py prepared c ↔ prepared[x.2]? = some x.1 ∧ clusterOf py x.1 = some c := by
  simp [members, List.mem_zipIdx_iff_getElem?]

theorem nodup_members (prepared : List PreparedVMState) (c : Option ℤ) :
    ((members py prepared c).map Prod.snd).Nodup := by
  have hsub : ((members py prepared c).map Prod.snd).Sublist (prepared.zipIdx.map Prod.snd) :=
    List.filter_sublist.map _
  refine hsub.nodup ?_
  rw [List.zipIdx_map_snd]
  exact List.nodup_range' _

theorem members_disjoint {prepared : List PreparedVMState} {c d : Option ℤ}
    {x : PreparedVMState × ℕ} (hx : x ∈ members py prepared c) (hcd : d ≠ c) :
    x.2 ∉ (members py prepared d).map Prod.snd := by
  intro hmem
  obtain ⟨y, hy, hyx⟩ := List.mem_map.mp hmem
  obtain ⟨hplace, hcluster⟩ := (mem_members py).mp hx
  obtain ⟨hplace', hcluster'⟩ := (mem_members py).mp hy
  rw [hyx, hplace] at hplace'
  rw [← Option.some.inj hplace', hcluster] at hcluster'
  exact hcd (Option.some.inj hcluster').symm

/-- The groups are the members of distinct clusters. -/
theorem grouped_spec {prepared : List PreparedVMState} {grouped : List (Option ℤ × Group)}
    (h : prepared.zipIdx.foldlM (addToGroup py) [] = some grouped) :
    (Dict.keys grouped).Nodup ∧
      ∀ c, (Dict.get c grouped).getD [] = members py prepared c := by
  refine ⟨nodup_keys_foldlM_addToGroup py (by simp [Dict.keys]) h, ?_⟩
  intro c
  rw [foldlM_addToGroup py c h]
  simp [Dict.get, members]

/-- The prepared VMs of a cluster in the order they are named. -/
def order (prepared : List PreparedVMState) (c : ℤ) : Group :=
  (members py prepared (some c)).insertionSort (sortsBefore py)

/-- The turns of a cluster in order. -/
def turns (indexes : Indexes) (lastSyncedNames : List (ℤ × String))
    (prepared : List PreparedVMState) (c : ℤ) : List Turn :=
  (order py prepared c).map fun x => turn py indexes lastSyncedNames (some c) x.1

/-- The used names of a cluster before its first turn. -/
def usedBefore (indexes : Indexes) (snapshot : List Record) (prepared : List PreparedVMState)
    (c : ℤ) : Finset String :=
  strip py indexes (some c) (members py prepared (some c)) (storedNames py snapshot c)

theorem order_perm (prepared : List PreparedVMState) (c : ℤ) :
    (order py prepared c).Perm (members py prepared (some c)) :=
  List.perm_insertionSort _ _

variable {snapshot : List Record} {prepared after : List PreparedVMState}
  {resolutions : List NameResolution}

/-- A VM that the pre-pass does not skip. -/
def Named (p : PreparedVMState) : Prop := candidateName py p ≠ "" ∧ vmidOf py p ≠ 0

instance : DecidablePred (Named py) := fun _ => inferInstanceAs (Decidable (_ ∧ _))

/-- The VMs of a group that are named, in order. -/
def namedOrder (prepared : List PreparedVMState) (c : Option ℤ) : Group :=
  ((members py prepared c).insertionSort (sortsBefore py)).filter fun x => Named py x.1

/-- The used names before the first turn of a group. -/
def namesBefore (indexes : Indexes) (snapshot : List Record) (prepared : List PreparedVMState)
    (c : Option ℤ) : Finset String :=
  strip py indexes c (members py prepared c) (match c with
    | some c => storedNames py snapshot c
    | none => ∅)

theorem mem_namedOrder {c : Option ℤ} {x : PreparedVMState × ℕ} :
    x ∈ namedOrder py prepared c ↔
      prepared[x.2]? = some x.1 ∧ clusterOf py x.1 = some c ∧ Named py x.1 := by
  simp [namedOrder, List.mem_insertionSort, mem_members, and_assoc]

/-- The VMs that are not named are passed over. -/
theorem foldlM_resolveStep_filter {group : Group} {s : PassState} :
    group.foldlM (resolveStep py indexes lastSyncedNames clusterId) s =
      (group.filter fun x => Named py x.1).foldlM
        (resolveStep py indexes lastSyncedNames clusterId) s := by
  induction group generalizing s with
  | nil => rfl
  | cons x group ih =>
    by_cases hnamed : Named py x.1
    · rw [List.filter_cons_of_pos (by simpa using hnamed), List.foldlM_cons, List.foldlM_cons]
      exact congrArg _ (funext fun s => ih)
    · have hskip : resolveStep py indexes lastSyncedNames clusterId s x = some s := by
        have hcond : candidateName py x.1 = "" ∨ vmidOf py x.1 = 0 := by
          unfold Named at hnamed
          tauto
        unfold resolveStep
        exact if_pos hcond
      rw [List.filter_cons_of_neg (by simpa using hnamed), List.foldlM_cons, hskip]
      exact ih

/-- A group leaves the VMs as they are that it does not name. -/
theorem resolveGroup_frame {clusterUsedNames : List (ℤ × Finset String)}
    {s s' : PassState} {g : Option ℤ × Group} {i : ℕ}
    (h : resolveGroup py indexes lastSyncedNames clusterUsedNames s g = some s')
    (hi : ∀ x ∈ g.2, x.2 = i → ¬ Named py x.1) : s'.prepared[i]? = s.prepared[i]? := by
  obtain ⟨c, group⟩ := g
  unfold resolveGroup at h
  dsimp only at h
  rw [foldlM_resolveStep_filter] at h
  apply foldlM_resolveStep_frame py h
  intro hmem
  obtain ⟨x, hx, hplace⟩ := List.mem_map.mp hmem
  obtain ⟨hx, hnamed⟩ := List.mem_filter.mp hx
  exact hi x ((List.mem_insertionSort _).mp hx) hplace (by simpa using hnamed)

theorem foldlM_resolveGroup_frame {clusterUsedNames : List (ℤ × Finset String)}
    {groups : List (Option ℤ × Group)} {s s' : PassState} {i : ℕ}
    (h : groups.foldlM (resolveGroup py indexes lastSyncedNames clusterUsedNames) s = some s')
    (hi : ∀ g ∈ groups, ∀ x ∈ g.2, x.2 = i → ¬ Named py x.1) :
    s'.prepared[i]? = s.prepared[i]? := by
  induction groups generalizing s with
  | nil =>
    obtain rfl : s = s' := by simpa using h
    rfl
  | cons g groups ih =>
    rw [List.foldlM_cons] at h
    obtain ⟨mid, hstep, hrest⟩ := Option.bind_eq_some_iff.mp h
    rw [List.forall_mem_cons] at hi
    rw [ih hrest hi.2, resolveGroup_frame py hstep hi.1]

/-- The pass over the groups names the VMs of one group as its turns do. -/
theorem foldlM_resolveGroup {clusterUsedNames : List (ℤ × Finset String)}
    {grouped : List (Option ℤ × Group)} {s s' : PassState} {c : Option ℤ}
    (hstart : s.prepared = prepared)
    (hused : (match c with
      | some c => (Dict.get c clusterUsedNames).getD ∅
      | none => ∅) = match c with
      | some c => storedNames py snapshot c
      | none => ∅)
    (hgroups : ∀ g ∈ grouped, g.2 = members py prepared g.1)
    (hkeys : (Dict.keys grouped).Nodup)
    (hmem : (c, members py prepared c) ∈ grouped)
    (h : grouped.foldlM (resolveGroup py indexes lastSyncedNames clusterUsedNames) s = some s') :
    (namedOrder py prepared c).map (fun x => nameAt py s'.prepared x.2) =
      names py (namesBefore py indexes snapshot prepared c)
        ((namedOrder py prepared c).map fun x => turn py indexes lastSyncedNames c x.1) := by
  obtain ⟨before, later, rfl⟩ := List.append_of_mem hmem
  rw [Dict.keys, List.map_append, List.map_cons, List.nodup_middle, List.nodup_cons,
    ← List.map_append] at hkeys
  have hne : ∀ g ∈ before ++ later, g.1 ≠ c := by
    intro g hg heq
    have hg' : g.1 ∈ (before ++ later).map Prod.fst := List.mem_map_of_mem hg
    exact hkeys.1 (heq ▸ hg')
  have hplaces : ∀ x ∈ namedOrder py prepared c, prepared[x.2]? = some x.1 :=
    fun x hx => ((mem_namedOrder py).mp hx).1
  have hnamed : ∀ x ∈ namedOrder py prepared c, Named py x.1 :=
    fun x hx => ((mem_namedOrder py).mp hx).2.2
  -- the other groups hold the VMs of other clusters
  have hother : ∀ x ∈ namedOrder py prepared c, ∀ g ∈ before ++ later,
      ∀ y ∈ g.2, y.2 = x.2 → ¬ Named py y.1 := by
    intro x hx g hg y hy heq
    have hg' : g ∈ before ++ (c, members py prepared c) :: later := by
      rcases List.mem_append.mp hg with hb | hl
      · exact List.mem_append_left _ hb
      · exact List.mem_append_right _ (List.mem_cons_of_mem _ hl)
    obtain ⟨hplace, hcluster, -⟩ := (mem_namedOrder py).mp hx
    rw [hgroups g hg'] at hy
    have hdisjoint := members_disjoint py ((mem_members py).mpr ⟨hplace, hcluster⟩) (hne g hg)
    exact absurd (heq ▸ List.mem_map_of_mem hy) hdisjoint
  rw [List.foldlM_append] at h
  obtain ⟨s₁, hbefore, h⟩ := Option.bind_eq_some_iff.mp h
  rw [List.foldlM_cons] at h
  obtain ⟨s₂, hstep, hlater⟩ := Option.bind_eq_some_iff.mp h
  have hplaces₁ : ∀ x ∈ namedOrder py prepared c, s₁.prepared[x.2]? = some x.1 := by
    intro x hx
    rw [foldlM_resolveGroup_frame py hbefore fun g hg => hother x hx g (List.mem_append_left _ hg),
      hstart]
    exact hplaces x hx
  have hkept : (namedOrder py prepared c).map (fun x => nameAt py s'.prepared x.2) =
      (namedOrder py prepared c).map (fun x => nameAt py s₂.prepared x.2) := by
    refine List.map_congr_left fun x hx => ?_
    unfold nameAt
    rw [foldlM_resolveGroup_frame py hlater fun g hg => hother x hx g (List.mem_append_right _ hg)]
  have hloop : (namedOrder py prepared c).foldlM (resolveStep py indexes lastSyncedNames c)
      { s₁ with used := namesBefore py indexes snapshot prepared c } = some s₂ := by
    unfold namesBefore namedOrder
    rw [← hused, ← foldlM_resolveStep_filter]
    exact hstep
  have hnodup : ((namedOrder py prepared c).map Prod.snd).Nodup := by
    have hperm := List.perm_insertionSort (sortsBefore py) (members py prepared c)
    have hall := (hperm.map Prod.snd).nodup_iff.mpr (nodup_members py prepared c)
    exact hall.sublist (List.filter_sublist.map _)
  have hturns := foldlM_resolveStep py
    (s := { s₁ with used := namesBefore py indexes snapshot prepared c }) hnodup
    (fun x hx => (hnamed x hx).1) (fun x hx => (hnamed x hx).2) hplaces₁ hloop
  exact hkept.trans hturns

/-- After the pre-pass the VMs of a group that are named have the names that its turns give. -/
theorem prePass_namedOrder
    (hindexes : buildVmSnapshotIdentityIndexes py snapshot = some indexes)
    (hrun : resolveVmNamesPrePass py snapshot lastSyncedNames prepared =
      some (after, resolutions)) (c : Option ℤ) :
    (namedOrder py prepared c).map (fun x => nameAt py after x.2) =
      names py (namesBefore py indexes snapshot prepared c)
        ((namedOrder py prepared c).map fun x => turn py indexes lastSyncedNames c x.1) := by
  unfold resolveVmNamesPrePass at hrun
  obtain ⟨indexes', hindexes', hrun⟩ := Option.bind_eq_some_iff.mp hrun
  obtain rfl := Option.some.inj (hindexes.symm.trans hindexes')
  obtain ⟨clusterUsedNames, hused, hrun⟩ := Option.bind_eq_some_iff.mp hrun
  obtain ⟨grouped, hgrouped, hrun⟩ := Option.bind_eq_some_iff.mp hrun
  obtain ⟨s, hpass, hafter⟩ := Option.bind_eq_some_iff.mp hrun
  obtain ⟨rfl, rfl⟩ : s.prepared = after ∧ s.resolutions = resolutions := by
    simpa using hafter
  obtain ⟨hkeys, hmembers⟩ := grouped_spec py hgrouped
  have hgroups : ∀ g ∈ grouped, g.2 = members py prepared g.1 := by
    intro g hg
    rw [← hmembers, Dict.get_of_mem hkeys hg, Option.getD_some]
  have hstored : ∀ c, (Dict.get c clusterUsedNames).getD ∅ = storedNames py snapshot c := by
    intro c
    rw [foldlM_addUsedName py c hused]
    simp [Dict.get]
  cases hget : Dict.get c grouped with
  | none =>
    have hnil : members py prepared c = [] := by rw [← hmembers, hget, Option.getD_none]
    simp [namedOrder, hnil, names]
  | some group =>
    have hmem := Dict.mem_of_get hget
    have hgroup : group = members py prepared c := by
      rw [← hmembers, hget, Option.getD_some]
    refine foldlM_resolveGroup py rfl ?_ hgroups hkeys (hgroup ▸ hmem) hpass
    cases c with
    | none => rfl
    | some c => exact hstored c

/-- A VM that is not named is left as it is. -/
theorem prePass_unnamed (hrun : resolveVmNamesPrePass py snapshot lastSyncedNames prepared =
      some (after, resolutions)) {i : ℕ} {p : PreparedVMState} (hp : prepared[i]? = some p)
    (hnamed : ¬ Named py p) : after[i]? = some p := by
  unfold resolveVmNamesPrePass at hrun
  obtain ⟨indexes, -, hrun⟩ := Option.bind_eq_some_iff.mp hrun
  obtain ⟨clusterUsedNames, -, hrun⟩ := Option.bind_eq_some_iff.mp hrun
  obtain ⟨grouped, hgrouped, hrun⟩ := Option.bind_eq_some_iff.mp hrun
  obtain ⟨s, hpass, hafter⟩ := Option.bind_eq_some_iff.mp hrun
  obtain ⟨rfl, rfl⟩ : s.prepared = after ∧ s.resolutions = resolutions := by
    simpa using hafter
  obtain ⟨hkeys, hmembers⟩ := grouped_spec py hgrouped
  rw [foldlM_resolveGroup_frame py hpass, hp]
  intro g hg x hx hplace
  rw [← Option.getD_some (a := g.2) (b := []), ← Dict.get_of_mem hkeys hg, hmembers] at hx
  obtain ⟨hx, -⟩ := (mem_members py).mp hx
  rw [hplace, hp] at hx
  exact Option.some.inj hx ▸ hnamed

/-- After the pre-pass the VMs of a cluster have the names that its turns give. -/
theorem prePass_names (hname : ∀ p ∈ prepared, candidateName py p ≠ "")
    (hvmid : ∀ p ∈ prepared, vmidOf py p ≠ 0)
    (hindexes : buildVmSnapshotIdentityIndexes py snapshot = some indexes)
    (hrun : resolveVmNamesPrePass py snapshot lastSyncedNames prepared =
      some (after, resolutions)) (c : ℤ) :
    (order py prepared c).map (fun x => nameAt py after x.2) =
      names py (usedBefore py indexes snapshot prepared c)
        (turns py indexes lastSyncedNames prepared c) := by
  have hall : namedOrder py prepared (some c) = order py prepared c := by
    refine List.filter_eq_self.mpr fun x hx => ?_
    obtain ⟨hplace, -⟩ := (mem_members py).mp ((List.mem_insertionSort _).mp hx)
    have hmem := List.mem_of_getElem? hplace
    exact decide_eq_true ⟨hname x.1 hmem, hvmid x.1 hmem⟩
  have hnames := prePass_namedOrder py hindexes hrun (some c)
  rw [hall] at hnames
  exact hnames

/-- The names of the snapshot in a cluster that belong to no record selected for a prepared
VM. -/
def unmatchedNames (indexes : Indexes) (snapshot : List Record) (prepared : List PreparedVMState)
    (c : ℤ) : Set String :=
  {name | ∃ r ∈ snapshot, relationId py (field "cluster" r) = some (some c) ∧
    snapshotName r = some name ∧
    ∀ p ∈ prepared, existingOf py indexes (clusterOf py p).join p ≠ some r}

/-- The names of a cluster's VMs are distinct, from one another and from those of the snapshot
that no prepared VM updates. -/
structure UniqueNames (indexes : Indexes) (snapshot : List Record)
    (prepared after : List PreparedVMState) (c : ℤ) : Prop where
  distinct : after.Pairwise fun p q => clusterOf py p = some (some c) →
    clusterOf py q = some (some c) →
      py.casefold (candidateName py p) ≠ py.casefold (candidateName py q)
  apart : ∀ p ∈ after, clusterOf py p = some (some c) →
    ∀ name ∈ unmatchedNames py indexes snapshot prepared c,
      py.casefold (candidateName py p) ≠ py.casefold name

theorem prePass_clusters
    (hrun : resolveVmNamesPrePass py snapshot lastSyncedNames prepared =
      some (after, resolutions)) :
    after.map (clusterOf py) = prepared.map (clusterOf py) := by
  unfold resolveVmNamesPrePass at hrun
  obtain ⟨indexes, -, hrun⟩ := Option.bind_eq_some_iff.mp hrun
  obtain ⟨clusterUsedNames, -, hrun⟩ := Option.bind_eq_some_iff.mp hrun
  obtain ⟨grouped, -, hrun⟩ := Option.bind_eq_some_iff.mp hrun
  obtain ⟨s, hpass, hafter⟩ := Option.bind_eq_some_iff.mp hrun
  obtain ⟨rfl, rfl⟩ : s.prepared = after ∧ s.resolutions = resolutions := by
    simpa using hafter
  exact foldlM_resolveGroup_clusters py hpass

/-- The prepared VMs after the pre-pass, by cluster and name. -/
theorem after_view (hclusters : after.map (clusterOf py) = prepared.map (clusterOf py)) :
    after.map (fun p => (clusterOf py p, candidateName py p)) =
      prepared.zipIdx.map fun x => (clusterOf py x.1, nameAt py after x.2) := by
  refine List.ext_getElem? fun i => ?_
  have hi := congrArg (fun l => l[i]?) hclusters
  simp only [List.getElem?_map] at hi
  rw [List.getElem?_map, List.getElem?_map, List.getElem?_zipIdx]
  unfold nameAt
  cases hafter : after[i]? with
  | none =>
    rw [hafter] at hi
    cases hprepared : prepared[i]? with
    | none => rfl
    | some p => simp [hprepared] at hi
  | some q =>
    rw [hafter] at hi
    cases hprepared : prepared[i]? with
    | none => simp [hprepared] at hi
    | some p =>
      have heq : clusterOf py q = clusterOf py p := by simpa [hprepared] using hi
      simp [hafter, heq]

/-- The names of a cluster are unique when the names of its members are fresh. -/
theorem uniqueNames_iff_fresh
    (hclusters : after.map (clusterOf py) = prepared.map (clusterOf py)) (c : ℤ) :
    UniqueNames py indexes snapshot prepared after c ↔
      FreshNames.Fresh (py.casefold '' unmatchedNames py indexes snapshot prepared c)
        (((order py prepared c).map fun x => nameAt py after x.2).map py.casefold) := by
  have hview := after_view py hclusters
  have hperm := order_perm py prepared c
  have hdistinct : (after.Pairwise fun p q => clusterOf py p = some (some c) →
      clusterOf py q = some (some c) →
        py.casefold (candidateName py p) ≠ py.casefold (candidateName py q)) ↔
      (((order py prepared c).map fun x => nameAt py after x.2).map py.casefold).Nodup := by
    have hpairs := congrArg (List.Pairwise fun a b : Option (Option ℤ) × String =>
      a.1 = some (some c) → b.1 = some (some c) → py.casefold a.2 ≠ py.casefold b.2) hview
    rw [List.pairwise_map, List.pairwise_map] at hpairs
    rw [hpairs, ((hperm.map _).map _).nodup_iff, List.Nodup, List.pairwise_map, List.pairwise_map,
      members, List.pairwise_filter]
    simp
  have hapart : (∀ p ∈ after, clusterOf py p = some (some c) →
      ∀ name ∈ unmatchedNames py indexes snapshot prepared c,
        py.casefold (candidateName py p) ≠ py.casefold name) ↔
      ∀ x ∈ order py prepared c, ∀ name ∈ unmatchedNames py indexes snapshot prepared c,
        py.casefold (nameAt py after x.2) ≠ py.casefold name := by
    have hall := congrArg (fun l : List (Option (Option ℤ) × String) =>
      ∀ a ∈ l, a.1 = some (some c) →
        ∀ name ∈ unmatchedNames py indexes snapshot prepared c,
          py.casefold a.2 ≠ py.casefold name) hview
    simp only [List.forall_mem_map] at hall
    rw [hall]
    constructor
    · intro h x hx
      obtain ⟨hmem, hcluster⟩ := List.mem_filter.mp (hperm.mem_iff.mp hx)
      exact h x hmem (by simpa using hcluster)
    · intro h x hx hcluster
      exact h x (hperm.mem_iff.mpr (List.mem_filter.mpr ⟨hx, by simpa using hcluster⟩))
  constructor
  · rintro ⟨h, h'⟩
    refine ⟨hdistinct.mp h, ?_⟩
    rw [List.forall_mem_map, List.forall_mem_map]
    rintro x hx ⟨name, hmem, heq⟩
    exact hapart.mp h' x hx name hmem heq.symm
  · rintro ⟨h, h'⟩
    refine ⟨hdistinct.mpr h, hapart.mpr fun x hx name hmem heq => ?_⟩
    exact h' _ (List.mem_map_of_mem (List.mem_map_of_mem hx)) ⟨name, hmem, heq.symm⟩

def guest (vmid : ℤ) (name : String) : PreparedVMState where
  clusterName := "lab"
  resource := [("vmid", .int vmid)]
  desiredPayload := [("name", .str name), ("cluster", .int 1),
    ("custom_fields", .obj [("proxmox_vm_id", .int vmid)])]
  vmType := "qemu"

/-- The NetBox record of a guest. -/
def record (id vmid : ℤ) (name : String) : Record :=
  [("id", .int id), ("name", .str name), ("cluster", .obj [("id", .int 1)]),
    ("custom_fields", .obj [("proxmox_vm_id", .int vmid), ("proxmox_vm_type", .str "qemu")])]

/-- The names that a snapshot stores are distinct within each cluster. -/
def DistinctNames (snapshot : List Record) : Prop :=
  ∀ c, snapshot.Pairwise fun r r' => relationId py (field "cluster" r) = some (some c) →
    relationId py (field "cluster" r') = some (some c) →
      ∀ name ∈ snapshotName r, ∀ name' ∈ snapshotName r', py.casefold name ≠ py.casefold name'

/-- A new guest gets the name that an operator gave to a later one, which then keeps it. -/
theorem operator_name_given_twice :
    DistinctNames .ascii [record 7 20 "alpha"] ∧
    ([guest 20 "beta", guest 10 "alpha"].Pairwise fun p q => vmidOf .ascii p ≠ vmidOf .ascii q) ∧
    (∀ p ∈ [guest 20 "beta", guest 10 "alpha"],
      candidateName .ascii p ≠ "" ∧ 0 < vmidOf .ascii p) ∧
    ∃ indexes after resolutions,
      buildVmSnapshotIdentityIndexes .ascii [record 7 20 "alpha"] = some indexes ∧
      resolveVmNamesPrePass .ascii [record 7 20 "alpha"] [] [guest 20 "beta", guest 10 "alpha"] =
        some (after, resolutions) ∧
      ¬ UniqueNames .ascii indexes [record 7 20 "alpha"] [guest 20 "beta", guest 10 "alpha"] after
        1 := by
  refine ⟨fun c => List.pairwise_singleton _ _, by decide, by decide, _, _, _, rfl, rfl, ?_⟩
  intro h
  exact (List.pairwise_cons.mp h.distinct).1 _ List.mem_cons_self rfl rfl rfl

end ProxboxApi.VmNames
