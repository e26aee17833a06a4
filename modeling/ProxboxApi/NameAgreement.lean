import ProxboxApi.IndividualNames

/-! When the individual sync names a guest as the pre-pass does. -/

namespace ProxboxApi.VmNames

open ProxboxApi.VmQueue

variable (py : Python)

/-- A name that a turn gives a guest on account of its record: the name of an operator, unless the
guest would get it anyway, or a variant of the candidate that only the record uses. -/
inductive HeldTo (used : Finset String) (t : Turn) (own : Option String) : String → Prop where
  | operator (name : String) (hrename : t.rename = .operator name)
      (hother : name ≠ (pickSuffix py t.candidate used).1) : HeldTo used t own name
  | freed (name : String) (n : ℕ) (hrename : ∀ name, t.rename ≠ .operator name)
      (hown : own = some name) (hmem : name ∈ used)
      (hname : foldedVariants py t.candidate n = py.casefold name)
      (hused : ∀ m ≤ n, foldedVariants py t.candidate m ∈ used.image py.casefold) :
      HeldTo used t own (variant t.candidate n)

/-- The used names without the name of the record. -/
def without (own : Option String) (used : Finset String) : Finset String :=
  match own with
  | some name => used.erase name
  | none => used

variable {py}

theorem image_erase {used : Finset String} {name : String}
    (hused : Set.InjOn py.casefold (used : Set String)) (hmem : name ∈ used) :
    (used.erase name).image py.casefold = (used.image py.casefold).erase (py.casefold name) := by
  ext folded
  simp only [Finset.mem_image, Finset.mem_erase]
  constructor
  · rintro ⟨other, ⟨hne, hother⟩, rfl⟩
    exact ⟨fun heq => hne (hused hother hmem heq), other, hother, rfl⟩
  · rintro ⟨hne, other, hother, rfl⟩
    exact ⟨other, ⟨fun heq => hne (heq ▸ rfl), hother⟩, rfl⟩

variable {used : Finset String} {t t' : Turn} {own own' : Option String}

/-- A name that a turn finds renamed in Proxmox is the name of the record. -/
def Turn.Of (t : Turn) (own : Option String) : Prop :=
  ∀ name, t.rename = .proxmox name → own = some name

theorem base_without (hown : t.Of own) : t.base (without own used) = without own used := by
  unfold Turn.base
  cases hrename : t.rename with
  | none => rfl
  | operator name => rfl
  | proxmox name =>
    obtain rfl := hown name hrename
    exact Finset.erase_eq_of_notMem (Finset.notMem_erase _ _)

/-- A guest that no operator has named gets a variant of its candidate. -/
theorem name_eq_pickSuffix (hown : t.Of own) (hrename : ∀ name, t.rename ≠ .operator name) :
    t.name py (without own used) = (pickSuffix py t.candidate (without own used)).1 := by
  have hname : t.name py (without own used) =
      (pickSuffix py t.candidate (t.base (without own used))).1 := by
    unfold Turn.name
    cases hcase : t.rename with
    | none => rfl
    | operator name => exact absurd hcase (hrename name)
    | proxmox name => rfl
  rw [hname, base_without hown]

theorem name_of_heldTo (hused : Set.InjOn py.casefold (used : Set String)) (hown : t.Of own)
    {name : String} (h : HeldTo py used t own name) : t.name py (without own used) = name := by
  cases h with
  | operator name hrename hother =>
    unfold Turn.name
    rw [hrename]
  | freed stored n hrename hstored hmem hname hreached =>
    rw [name_eq_pickSuffix hown hrename]
    subst hstored
    apply pickSuffix_eq
    rw [without, image_erase hused hmem, ← hname]
    exact FreshNames.Reached.isFirstFree (foldedVariants_injective t.candidate) ⟨n, rfl, hreached⟩

/-- A guest that nothing holds to a name gets the first variant that is free among all names. -/
theorem name_of_not_heldTo (hused : Set.InjOn py.casefold (used : Set String)) (hown : t.Of own)
    (h : ∀ name, ¬ HeldTo py used t own name) :
    t.name py (without own used) = (pickSuffix py t.candidate used).1 := by
  by_cases hoperator : ∃ name, t.rename = .operator name
  · obtain ⟨name, hrename⟩ := hoperator
    have hsame : name = (pickSuffix py t.candidate used).1 := by
      by_contra hother
      exact h name (.operator name hrename hother)
    unfold Turn.name
    rw [hrename]
    exact hsame
  · have hrename : ∀ name, t.rename ≠ .operator name := fun name heq => hoperator ⟨name, heq⟩
    rw [name_eq_pickSuffix hown hrename]
    cases own with
    | none => rfl
    | some stored =>
      by_cases hmem : stored ∈ used
      · obtain ⟨k, hk⟩ := pickSuffix_variant py t.candidate used
        rw [hk]
        apply pickSuffix_eq
        rw [without, image_erase hused hmem]
        apply FreshNames.IsFirstFree.erase
        · have hfirst := pickSuffix_isFirstFree py t.candidate used
          rwa [hk] at hfirst
        · rintro ⟨n, hname, hreached⟩
          exact h _ (.freed stored n hrename rfl hmem hname hreached)
      · rw [without, Finset.erase_eq_of_notMem hmem]

theorem HeldTo.ne_first {name : String} (h : HeldTo py used t own name) :
    name ≠ (pickSuffix py t.candidate used).1 := by
  cases h with
  | operator name hrename hother => exact hother
  | freed stored n hrename hstored hmem hname hreached =>
    obtain ⟨k, hk⟩ := pickSuffix_variant py t.candidate used
    rw [hk]
    intro heq
    have hfirst := pickSuffix_isFirstFree py t.candidate used
    rw [hk, ← heq] at hfirst
    obtain ⟨m, -, hfree, -⟩ := hfirst
    exact hfree (hreached n le_rfl)

/-- Two turns of one candidate give the same name exactly if they are held to the same names. -/
theorem name_eq_iff (hused : Set.InjOn py.casefold (used : Set String)) (hown : t.Of own)
    (hown' : t'.Of own') (hcandidate : t.candidate = t'.candidate) :
    t.name py (without own used) = t'.name py (without own' used) ↔
      ∀ name, HeldTo py used t own name ↔ HeldTo py used t' own' name := by
  have htransfer : ∀ {s s' : Turn} {o o' : Option String}, s.Of o → s'.Of o' →
      s.candidate = s'.candidate → s.name py (without o used) = s'.name py (without o' used) →
        ∀ name, HeldTo py used s o name → HeldTo py used s' o' name := by
    intro s s' o o' ho ho' hc heq name hheld
    rw [name_of_heldTo hused ho hheld] at heq
    by_cases hnone : ∀ other, ¬ HeldTo py used s' o' other
    · rw [name_of_not_heldTo hused ho' hnone, ← hc] at heq
      exact absurd heq hheld.ne_first
    · push Not at hnone
      obtain ⟨other, hother⟩ := hnone
      rw [name_of_heldTo hused ho' hother] at heq
      exact heq ▸ hother
  constructor
  · intro heq name
    exact ⟨htransfer hown hown' hcandidate heq name,
      htransfer hown' hown hcandidate.symm heq.symm name⟩
  · intro h
    by_cases hheld : ∃ name, HeldTo py used t own name
    · obtain ⟨name, hname⟩ := hheld
      rw [name_of_heldTo hused hown hname, name_of_heldTo hused hown' ((h name).mp hname)]
    · have hnone : ∀ name, ¬ HeldTo py used t own name := fun name hname => hheld ⟨name, hname⟩
      rw [name_of_not_heldTo hused hown hnone,
        name_of_not_heldTo hused hown' fun name hname => hnone name ((h name).mpr hname), hcandidate]

/-- The first free variant is no name that is used. -/
theorem first_free (candidate : String) : ∀ name ∈ used,
    py.casefold name ≠ py.casefold (pickSuffix py candidate used).1 := by
  obtain ⟨n, -, hfree, -⟩ := pickSuffix_isFirstFree py candidate used
  intro name hname heq
  exact hfree (heq ▸ Finset.mem_image_of_mem py.casefold hname)

/-- Case folding that deletes no character keeps a name from being empty. -/
theorem casefold_ne_empty (hfold : ∀ c, py.fold c ≠ []) {name : String} (h : name ≠ "") :
    py.casefold name ≠ py.casefold "" := by
  cases hchars : name.toList with
  | nil => exact absurd (String.toList_injective hchars) h
  | cons c chars =>
    intro heq
    have hlist := congrArg String.toList heq
    simp [Python.casefold, hchars, hfold c] at hlist

section Loads

variable {rows : List SyncStateRow}

theorem get_filterMap {f : List String → Option String} {d : List (ℤ × List String)}
    (hd : (Dict.keys d).Nodup) (k : ℤ) :
    Dict.get k (d.filterMap fun x => (f x.2).map (x.1, ·)) = (Dict.get k d).bind f := by
  induction d with
  | nil => rfl
  | cons x d ih =>
    obtain ⟨k', values⟩ := x
    obtain ⟨hnot, hd⟩ := List.nodup_cons.mp hd
    have htail := ih hd
    by_cases hk : k' = k
    · subst hk
      have hnone : Dict.get k' d = none := Dict.get_eq_none_iff.mpr hnot
      rw [hnone] at htail
      cases hvalue : f values with
      | none => simpa [hvalue, Dict.get] using htail
      | some name => simp [hvalue, Dict.get]
    · cases hvalue : f values with
      | none => simpa [hvalue, Dict.get, hk] using htail
      | some name => simpa [hvalue, Dict.get, hk] using htail

theorem nodup_keys_addSyncedName {names : List (ℤ × List String)} {row : SyncStateRow}
    (hd : (Dict.keys names).Nodup) : (Dict.keys (addSyncedName py names row)).Nodup := by
  unfold addSyncedName
  split
  · exact hd
  · dsimp only
    split_ifs
    · exact hd
    · exact Dict.nodup_keys_set hd

theorem nodup_keys_foldl {names : List (ℤ × List String)} (hd : (Dict.keys names).Nodup) :
    (Dict.keys (rows.foldl (addSyncedName py) names)).Nodup := by
  induction rows generalizing names with
  | nil => exact hd
  | cons row rows ih => exact ih (nodup_keys_addSyncedName hd)

theorem get_foldl_addSyncedName (py : Python) (rows : List SyncStateRow) (names : List (ℤ × List String)) (id : ℤ) :
    (Dict.get id (rows.foldl (addSyncedName py) names)).getD [] =
      (Dict.get id names).getD [] ++ syncedNames py rows id := by
  induction rows generalizing names with
  | nil => simp [syncedNames]
  | cons row rows ih =>
    rw [List.foldl_cons, ih]
    unfold addSyncedName
    cases hvm : row.virtualMachine with
    | none => simp [syncedNames, hvm]
    | some parentId =>
      by_cases hid : parentId = id
      · by_cases htext : sidecarText py row.proxmoxVmName = ""
        · simp [syncedNames, hvm, hid, htext]
        · simp [syncedNames, hvm, hid, htext, Dict.get_set]
      · by_cases htext : sidecarText py row.proxmoxVmName = ""
        · simp [syncedNames, hvm, hid, htext]
        · simp [syncedNames, hvm, hid, htext, Dict.get_set]

/-- One row at a time or all at once, the last synced name of a VM is the same. -/
theorem get_loadVmLastSyncedNames {id : ℤ} (hid : 0 < id) :
    Dict.get id (loadVmLastSyncedNames py rows) = loadVmLastSyncedName py rows id := by
  have hkeys : (Dict.keys (rows.foldl (addSyncedName py) [])).Nodup :=
    nodup_keys_foldl (by simp [Dict.keys])
  unfold loadVmLastSyncedNames loadVmLastSyncedName
  rw [get_filterMap hkeys, if_pos hid]
  have hget := get_foldl_addSyncedName py (rows) [] id
  cases hrows : Dict.get id (rows.foldl (addSyncedName py) []) with
  | none =>
    rw [hrows] at hget
    have hnil : syncedNames py rows id = [] := by simpa [Dict.get] using hget.symm
    simp [hnil, collapseVmLastSyncedName]
  | some values =>
    rw [hrows] at hget
    have hvalues : values = syncedNames py rows id := by simpa [Dict.get] using hget
    simp [hvalues]

end Loads

theorem get_foldl_addClusterVm (py : Python) (records : List Record)
    (s : Finset String × List (ℤ × Record)) :
    (records.foldl (addClusterVm py) s).1 =
        s.1 ∪ (records.filterMap snapshotName).toFinset ∧
      ∀ vmid, Dict.get vmid (records.foldl (addClusterVm py) s).2 =
        ((records.filter (rawVmid py · = some vmid)).getLast?).or (Dict.get vmid s.2) := by
  induction records generalizing s with
  | nil => simp
  | cons record records ih =>
    obtain ⟨hused, hget⟩ := ih (addClusterVm py s record)
    rw [List.foldl_cons]
    constructor
    · rw [hused]
      cases hname : snapshotName record with
      | none => simp [addClusterVm, hname]
      | some name => simp [addClusterVm, hname]
    · intro vmid
      rw [hget]
      cases hraw : rawVmid py record with
      | none => simp [addClusterVm, hraw]
      | some raw =>
        by_cases heq : raw = vmid
        · cases hlast : (records.filter (rawVmid py · = some vmid)).getLast? with
          | none => simp [addClusterVm, hraw, heq, hlast, Dict.get_set, List.getLast?_cons]
          | some last => simp [addClusterVm, hraw, heq, hlast, List.getLast?_cons]
        · simp [addClusterVm, hraw, heq, Dict.get_set]

/-- The name stored in a record. -/
def storedName (e : Option Record) : Option String :=
  e.bind fun record => match field "name" record with
    | .str name => some name
    | _ => none

theorem discardName_eq (e : Option Record) (used : Finset String) :
    discardName e used = without (storedName e) used := by
  cases e with
  | none => rfl
  | some record =>
    unfold discardName storedName
    cases hname : field "name" record <;> simp [without, hname]

section Guests

variable (inv : Inventory py) (legacyEnabled : Bool) (g : Guest)

/-- The last synced name of the VM of a record. -/
def lastSynced (e : Option Record) : Option String :=
  (e.bind fun record => (recordId py record).join).bind (loadVmLastSyncedName py inv.rows)

/-- The turn of the guest, if the record is taken for its own. -/
def turnBy (e : Option Record) : Turn where
  candidate := candidateName py g.prepared
  rename := rename py (some g.clusterId) (candidateName py g.prepared) e (lastSynced inv e)

def clusterNames : Finset String := ((clusterVms inv g.clusterId).map (·.name)).toFinset

/-- The record that the individual sync takes for the guest's: the one that the sync state
resolves, or else the last of the cluster that carries the vmid. -/
def takenRecord : Option Record :=
  (resolveSidecarExistingVm inv legacyEnabled g.clusterId g.vmid g.prepared.desiredPayload).or
    (((clusterVms inv g.clusterId).map (·.record)).filter
      (rawVmid py · = some g.vmid)).getLast?

/-- The record is of a VM of NetBox, up to custom fields. -/
def IsStored (e : Option Record) : Prop := ∀ record, e = some record →
  ∃ vm ∈ inv.vms, SameFields vm.record record

variable {inv} {legacyEnabled} {g}

theorem recordId_of_sameFields {vm : StoredVm py} {record : Record}
    (h : SameFields vm.record record) : recordId py record = some (some vm.id) := by
  simp [recordId, relationId, relationCandidate, h "id" (by decide), vm.id_eq]

theorem storedName_of_sameFields {vm : StoredVm py} {record : Record}
    (h : SameFields vm.record record) : storedName (some record) = some vm.name := by
  simp [storedName, h "name" (by decide), vm.name_eq]

/-- A name that a turn finds changed is the name of the record. -/
theorem storedName_of_rename {e : Option Record} (he : IsStored inv e) {name : String}
    (hrename : (turnBy inv g e).rename = .operator name ∨ (turnBy inv g e).rename = .proxmox name) :
    storedName e = some name := by
  cases e with
  | none => simp [turnBy, rename] at hrename
  | some record =>
    obtain ⟨vm, -, hsame⟩ := he record rfl
    rw [storedName_of_sameFields hsame]
    have hexisting : existingName py record = vm.name := by
      have hname : Dict.get "name" record = some (.str vm.name) := by
        have hfield := (hsame "name" (by decide)).trans vm.name_eq
        unfold field at hfield
        cases hget : Dict.get "name" record with
        | none => simp [hget] at hfield
        | some value => simpa [hget] using hfield
      simp [existingName, hname, Python.str]
    simp only [turnBy, rename, hexisting] at hrename
    split_ifs at hrename
    · rcases hrename with h | h <;> cases h
      rfl
    · rcases hrename with h | h <;> cases h
      rfl
    · rcases hrename with h | h <;> cases h

theorem turnBy_of {e : Option Record} (he : IsStored inv e) :
    (turnBy inv g e).Of (storedName e) :=
  fun _ hrename => storedName_of_rename he (Or.inr hrename)

theorem lastSyncedName_join {e : Option Record} (he : IsStored inv e) :
    lastSyncedName py (loadVmLastSyncedNames py inv.rows) e = some (lastSynced inv e) := by
  cases e with
  | none => rfl
  | some record =>
    obtain ⟨vm, -, hsame⟩ := he record rfl
    simp [lastSyncedName, lastSynced, recordId_of_sameFields hsame,
      get_loadVmLastSyncedNames vm.id_pos]

theorem snapshotName_of_sameFields {vm : StoredVm py} {record : Record}
    (h : SameFields vm.record record) : snapshotName record = some vm.name := by
  unfold snapshotName
  rw [h "name" (by decide), vm.name_eq]
  exact if_neg vm.name_ne

/-- The names of the records of a cluster are those of its VMs. -/
theorem filterMap_snapshotName {vms : List (StoredVm py)} {snapshot : List Record} (c : ℤ)
    (h : List.Forall₂ SameFields (vms.map (·.record)) snapshot) :
    (snapshot.filter fun r => relationId py (field "cluster" r) = some (some c)).filterMap
        snapshotName = (vms.filter (·.cluster = some c)).map (·.name) := by
  induction vms generalizing snapshot with
  | nil =>
    cases h
    rfl
  | cons vm vms ih =>
    obtain ⟨record, records, hsame, hrest, rfl⟩ := List.forall₂_cons_left_iff.mp h
    have hcluster : relationId py (field "cluster" record) = some vm.cluster := by
      rw [hsame "cluster" (by decide), vm.cluster_eq]
    by_cases hc : vm.cluster = some c
    · simp [hcluster, hc, snapshotName_of_sameFields hsame, ih hrest]
    · simp [hcluster, hc, ih hrest]

theorem storedNames_eq {snapshot : List Record} (h : OfInventory inv snapshot) :
    storedNames py snapshot g.clusterId = clusterNames inv g := by
  unfold storedNames clusterNames clusterVms
  rw [filterMap_snapshotName g.clusterId h]

theorem isStored_taken : IsStored inv (takenRecord inv legacyEnabled g) := by
  intro record h
  rcases Option.or_eq_some_iff.mp h with h | ⟨-, h⟩
  · obtain ⟨vm, hvm, rfl⟩ := Option.map_eq_some_iff.mp h
    obtain ⟨r, -, hfind⟩ := Option.bind_eq_some_iff.mp hvm
    exact ⟨vm, (Inventory.find_eq_some_iff.mp hfind).1, sameFields_refl _⟩
  · have hmem := List.mem_filter.mp (List.mem_of_getLast? h)
    obtain ⟨vm, hvm, rfl⟩ := List.mem_map.mp hmem.1
    exact ⟨vm, (List.mem_filter.mp hvm).1, sameFields_refl _⟩

/-- The individual sync names the guest as the turn of the record it takes. -/
theorem individualName_eq (inv : Inventory py) (legacyEnabled : Bool) (g : Guest) :
    individualName inv legacyEnabled g =
    some (if candidateName py g.prepared = "" then ""
      else (turnBy inv g (takenRecord inv legacyEnabled g)).name py
        (without (storedName (takenRecord inv legacyEnabled g)) (clusterNames inv g))) := by
  obtain ⟨hused, hget⟩ := get_foldl_addClusterVm py
    ((clusterVms inv g.clusterId).map (·.record)) (∅, [])
  have hnames : (buildClusterVmNameState py ((clusterVms inv g.clusterId).map (·.record))).1 =
      clusterNames inv g := by
    have hvm : ∀ vm ∈ clusterVms inv g.clusterId, snapshotName vm.record = some vm.name :=
      fun vm _ => snapshotName_of_sameFields (sameFields_refl _)
    unfold buildClusterVmNameState clusterNames
    rw [hused, Finset.empty_union, List.filterMap_map, ← List.filterMap_eq_map]
    congr 1
    exact List.filterMap_congr hvm
  have hbyVmid : Dict.get g.vmid
      (buildClusterVmNameState py ((clusterVms inv g.clusterId).map (·.record))).2 =
        (((clusterVms inv g.clusterId).map (·.record)).filter
          (rawVmid py · = some g.vmid)).getLast? := by
    unfold buildClusterVmNameState
    simp [hget, Dict.get]
  have hlast : existingVmId py (takenRecord inv legacyEnabled g) =
      some ((takenRecord inv legacyEnabled g).bind fun record => (recordId py record).join) := by
    cases htaken : takenRecord inv legacyEnabled g with
    | none => rfl
    | some record =>
      obtain ⟨vm, -, hsame⟩ := isStored_taken record htaken
      simp [existingVmId, recordId_of_sameFields hsame]
  unfold individualName applyNameCollisionResolution
  generalize buildClusterVmNameState py ((clusterVms inv g.clusterId).map (·.record)) = state
    at hnames hbyVmid
  obtain ⟨used, byVmid⟩ := state
  have hnames : used = clusterNames inv g := hnames
  have hexisting : existingVm inv legacyEnabled g.clusterId g.vmid g.prepared.desiredPayload
      byVmid = takenRecord inv legacyEnabled g := by
    unfold existingVm takenRecord
    rw [← hbyVmid]
    cases resolveSidecarExistingVm inv legacyEnabled g.clusterId g.vmid
        g.prepared.desiredPayload with
    | none => rfl
    | some existing => exact Dict.get_set_self
  have hcandidate : payloadName py g.prepared.desiredPayload = candidateName py g.prepared := rfl
  dsimp only
  rw [hexisting, hlast, Option.bind_eq_bind, Option.bind_some, hcandidate]
  have hlastSynced : ((takenRecord inv legacyEnabled g).bind fun record =>
      (recordId py record).join).bind (loadVmLastSyncedName py inv.rows) =
        lastSynced inv (takenRecord inv legacyEnabled g) := rfl
  have hresolved := (resolveUniqueVmName_eq py (some g.clusterId) (candidateName py g.prepared)
    (without (storedName (takenRecord inv legacyEnabled g)) (clusterNames inv g))
    (takenRecord inv legacyEnabled g) (lastSynced inv (takenRecord inv legacyEnabled g))).1
  rw [discardName_eq, hnames, hlastSynced, hresolved]
  split_ifs with hempty hother
  · exact congrArg some (hcandidate.trans hempty)
  · have hset := candidateName_setName py ((turnBy inv g (takenRecord inv legacyEnabled g)).name py
      (without (storedName (takenRecord inv legacyEnabled g)) (clusterNames inv g))) g.prepared
    exact congrArg some hset
  · exact congrArg some (hcandidate.trans (not_not.mp hother).symm)

theorem isSome_indexes {snapshot : List Record} (h : OfInventory inv snapshot) :
    ∃ indexes, buildVmSnapshotIdentityIndexes py snapshot = some indexes := by
  rw [buildVmSnapshotIdentityIndexes_isSome]
  intro record hmem
  obtain ⟨vm, -, hsame⟩ := h.mem hmem
  unfold extractClusterAndProxmoxVmid
  rw [hsame "cluster" (by decide), vm.cluster_eq]
  cases vm.cluster <;> exact ⟨_, rfl⟩

theorem cluster_prepared (g : Guest) :
    relationId py (field "cluster" g.prepared.desiredPayload) = some (some g.clusterId) := by
  rw [g.cluster_eq]
  rfl

theorem vmid_prepared (g : Guest) :
    relationId py (field "vmid" g.prepared.resource) = some (some g.vmid) := by
  rw [g.vmid_eq]
  rfl

theorem vmidOf_prepared (g : Guest) : vmidOf py g.prepared = g.vmid := by
  have hne : g.vmid ≠ 0 := g.vmid_pos.ne'
  unfold vmidOf
  rw [g.vmid_eq]
  simp [Python.truthy, Python.int, hne]

/-- The hydration of the snapshot of NetBox for the guest succeeds. -/
theorem hydratedFor_isSome (inv : Inventory py) (legacyEnabled : Bool) (g : Guest) :
    ∃ snapshot, hydratedFor inv legacyEnabled g = some snapshot ∧ OfInventory inv snapshot := by
  obtain ⟨indexes, hindexes⟩ := isSome_indexes (ofInventory_snapshot inv)
  have hvmid : preparedProxmoxVmid py g.prepared = some (some g.vmid) := by
    simp [preparedProxmoxVmid, vmid_prepared, Option.filter, g.vmid_pos]
  have hstep : ∃ s, hydrateOne inv legacyEnabled indexes ⟨inv.snapshot, [], 0⟩ g.prepared =
      some s := by
    unfold hydrateOne
    rw [hvmid, cluster_prepared]
    dsimp only [Option.bind_eq_bind, Option.bind_some]
    split_ifs
    · exact ⟨_, rfl⟩
    · exact ⟨_, rfl⟩
    · split
      · split <;> exact ⟨_, rfl⟩
      · exact ⟨_, rfl⟩
  obtain ⟨s, hs⟩ := hstep
  have hrun : hydrateVmSnapshotWithSidecarIdentity inv legacyEnabled inv.snapshot [g.prepared] =
      some (s.snapshot, s.hydrated) := by
    simp [hydrateVmSnapshotWithSidecarIdentity, hindexes, hs]
  refine ⟨s.snapshot, ?_, hydrate_ofInventory hrun⟩
  rw [hydratedFor, hrun]
  rfl

theorem isStored_own : IsStored inv (ownRecord inv legacyEnabled g) := by
  intro record h
  obtain ⟨snapshot, hsnapshot, hmatched⟩ := Option.bind_eq_some_iff.mp h
  obtain ⟨snapshot', hsnapshot', hof⟩ := hydratedFor_isSome inv legacyEnabled g
  obtain rfl := Option.some.inj (hsnapshot.symm.trans hsnapshot')
  obtain ⟨t, -, hmem, -⟩ := matched_cases py hmatched
  exact hof.mem ((mem_candidates py).mp hmem).1

theorem isSome_usedNames {records : List Record} (used : List (ℤ × Finset String))
    (h : ∀ record ∈ records, ∃ vm ∈ inv.vms, SameFields vm.record record) :
    ∃ used', records.foldlM (addUsedName py) used = some used' := by
  induction records generalizing used with
  | nil => exact ⟨used, rfl⟩
  | cons record records ih =>
    obtain ⟨⟨vm, -, hsame⟩, hrest⟩ := List.forall_mem_cons.mp h
    have hstep : ∃ mid, addUsedName py used record = some mid := by
      unfold addUsedName
      rw [hsame "cluster" (by decide), vm.cluster_eq, snapshotName_of_sameFields hsame]
      cases vm.cluster <;> exact ⟨_, rfl⟩
    obtain ⟨mid, hmid⟩ := hstep
    rw [List.foldlM_cons, hmid]
    exact ih mid hrest

/-- The pre-pass of the guest alone succeeds, and names it as the turn of its own record. -/
theorem prePassName_eq (inv : Inventory py) (legacyEnabled : Bool) (g : Guest) :
    prePassName inv legacyEnabled g =
    some (if candidateName py g.prepared = "" then ""
      else (turnBy inv g (ownRecord inv legacyEnabled g)).name py
        (without (storedName (ownRecord inv legacyEnabled g)) (clusterNames inv g))) := by
  obtain ⟨snapshot, hsnapshot, hof⟩ := hydratedFor_isSome inv legacyEnabled g
  obtain ⟨indexes, hindexes⟩ := isSome_indexes hof
  have hstored : IsStored inv (ownRecord inv legacyEnabled g) := isStored_own
  have hexisting : existingOf py indexes (some g.clusterId) g.prepared =
      ownRecord inv legacyEnabled g := by
    have hselect := select_matched py hindexes (cluster_prepared g) (vmid_prepared g)
    unfold existingOf ownRecord
    rw [vmidOf_prepared, hsnapshot]
    dsimp only
    rw [if_neg g.vmid_pos.ne']
    exact hselect
  generalize ownRecord inv legacyEnabled g = own at hstored hexisting
  have hused : ∃ used, snapshot.foldlM (addUsedName py) [] = some used ∧
      (Dict.get g.clusterId used).getD ∅ = clusterNames inv g := by
    obtain ⟨used, hused⟩ := isSome_usedNames [] fun record hmem => hof.mem hmem
    refine ⟨used, hused, ?_⟩
    rw [foldlM_addUsedName py g.clusterId hused, storedNames_eq hof]
    simp [Dict.get]
  obtain ⟨used, hused, hnames⟩ := hused
  have hturn : turn py indexes (loadVmLastSyncedNames py inv.rows) (some g.clusterId) g.prepared =
      turnBy inv g own := by
    unfold turn turnBy
    rw [hexisting, lastSyncedName_join hstored]
    rfl
  have hgroups : [g.prepared].zipIdx.foldlM (addToGroup py) [] =
      some [(some g.clusterId, [(g.prepared, 0)])] := by
    simp [addToGroup, cluster_prepared g, Dict.set, Dict.get]
  have hstrip : strip py indexes (some g.clusterId) [(g.prepared, 0)] (clusterNames inv g) =
      without (storedName own) (clusterNames inv g) := by
    rw [← discardName_eq]
    simp only [strip, List.foldl_cons, List.foldl_nil, hexisting]
    rfl
  let start : PassState := ⟨without (storedName own) (clusterNames inv g), [g.prepared], []⟩
  have hgroup : resolveGroup py indexes (loadVmLastSyncedNames py inv.rows) used
      ⟨∅, [g.prepared], []⟩ (some g.clusterId, [(g.prepared, 0)]) =
        resolveStep py indexes (loadVmLastSyncedNames py inv.rows) (some g.clusterId) start
          (g.prepared, 0) := by
    unfold resolveGroup
    dsimp only
    rw [hnames, hstrip]
    exact bind_pure (m := Option) _
  obtain ⟨after, hafter, hname⟩ : ∃ s', resolveStep py indexes
      (loadVmLastSyncedNames py inv.rows) (some g.clusterId) start (g.prepared, 0) = some s' ∧
        nameAt py s'.prepared 0 = if candidateName py g.prepared = "" then ""
          else (turnBy inv g own).name py (without (storedName own) (clusterNames inv g)) := by
    by_cases hempty : candidateName py g.prepared = ""
    · refine ⟨start, ?_, ?_⟩
      · unfold resolveStep
        exact if_pos (Or.inl hempty)
      · rw [if_pos hempty]
        exact hempty
    · have hvmid : vmidOf py g.prepared ≠ 0 := by
        rw [vmidOf_prepared]
        exact g.vmid_pos.ne'
      obtain ⟨s', hs'⟩ : ∃ s', resolveStep py indexes (loadVmLastSyncedNames py inv.rows)
          (some g.clusterId) start (g.prepared, 0) = some s' := by
        unfold resolveStep
        dsimp only
        rw [if_neg (not_or.mpr ⟨hempty, hvmid⟩), hexisting, lastSyncedName_join hstored]
        dsimp only [Option.bind_eq_bind, Option.bind_some]
        split_ifs <;> exact ⟨_, rfl⟩
      refine ⟨s', hs', ?_⟩
      rw [if_neg hempty, ← hturn]
      exact (resolveStep_turn py hempty hvmid rfl hs').1
  unfold prePassName resolveVmNamesPrePass
  rw [hsnapshot]
  simp only [Option.bind_eq_bind, Option.bind_some, hindexes, hused, hgroups, List.foldlM_cons,
    List.foldlM_nil, hgroup, hafter]
  exact congrArg some hname

variable (inv) (legacyEnabled) (g)

/-- The guest is held to the name, if the record is taken for its own. -/
def Holds (e : Option Record) (name : String) : Prop :=
  HeldTo py (clusterNames inv g) (turnBy inv g e) (storedName e) name

variable (py) in
/-- The record is in the cluster of the guest. -/
def InCluster (e : Option Record) : Prop :=
  ∃ record, e = some record ∧ relationId py (field "cluster" record) = some (some g.clusterId)

/-- The record that the individual sync takes holds the guest to the names to which its own record
does; if that is in another cluster, no VM of the cluster has such a name. -/
structure AlikeRecords : Prop where
  held : ∀ name, Holds inv g (takenRecord inv legacyEnabled g) name ↔
    Holds inv g (ownRecord inv legacyEnabled g) name
  clear : ∀ name, Holds inv g (ownRecord inv legacyEnabled g) name →
    InCluster py g (ownRecord inv legacyEnabled g) ∨
      ∀ vm ∈ clusterVms inv g.clusterId, py.casefold vm.name ≠ py.casefold name

variable {inv} {legacyEnabled} {g}

/-- A name to which a record holds the guest is that of the record, up to case. -/
theorem Holds.casefold_eq {e : Option Record} (he : IsStored inv e) {name : String}
    (h : Holds inv g e name) :
    ∃ stored, storedName e = some stored ∧ py.casefold name = py.casefold stored := by
  cases h with
  | operator name hrename hother => exact ⟨name, storedName_of_rename he (Or.inl hrename), rfl⟩
  | freed stored n hrename hown hmem hname hused => exact ⟨stored, hown, hname⟩

theorem injOn_clusterNames (hdistinct : DistinctVmNames inv) :
    Set.InjOn py.casefold (clusterNames inv g : Set String) := by
  intro name hname name' hname' heq
  simp only [clusterNames, List.coe_toFinset, List.mem_map, Set.mem_ofPred_eq] at hname hname'
  obtain ⟨vm, hvm, rfl⟩ := hname
  obtain ⟨vm', hvm', rfl⟩ := hname'
  rw [List.inj_on_of_nodup_map (hdistinct g.clusterId) hvm hvm' heq]

/-- A VM of the cluster that is the guest's own puts its own record into the cluster. -/
theorem inCluster_of_not_other {vm : StoredVm py} (hvm : vm ∈ clusterVms inv g.clusterId)
    (h : ¬ IsOther inv legacyEnabled g vm) :
    InCluster py g (ownRecord inv legacyEnabled g) := by
  unfold IsOther at h
  push Not at h
  obtain ⟨record, hown, hid⟩ := h
  obtain ⟨w, hw, hsame⟩ := isStored_own record hown
  obtain ⟨hmem, hcluster⟩ := List.mem_filter.mp hvm
  have hids : w.id = vm.id := by
    rw [hsame "id" (by decide), w.id_eq] at hid
    exact Json.int.inj hid
  obtain rfl := List.inj_on_of_nodup_map inv.distinct hw hmem hids
  refine ⟨record, hown, ?_⟩
  rw [hsame "cluster" (by decide), w.cluster_eq]
  exact congrArg some (by simpa using hcluster)

/-- The name by the guest's own record is no name of another VM of the cluster exactly if the names
to which that record holds the guest are not. -/
theorem free_iff (legacyEnabled : Bool) (g : Guest) (hdistinct : DistinctVmNames inv) :
    (∀ vm ∈ clusterVms inv g.clusterId, IsOther inv legacyEnabled g vm →
      py.casefold vm.name ≠ py.casefold ((turnBy inv g (ownRecord inv legacyEnabled g)).name py
        (without (storedName (ownRecord inv legacyEnabled g)) (clusterNames inv g)))) ↔
    ∀ name, Holds inv g (ownRecord inv legacyEnabled g) name →
      InCluster py g (ownRecord inv legacyEnabled g) ∨
        ∀ vm ∈ clusterVms inv g.clusterId, py.casefold vm.name ≠ py.casefold name := by
  have hinj := injOn_clusterNames (g := g) hdistinct
  have hstored : IsStored inv (ownRecord inv legacyEnabled g) := isStored_own
  have hof := turnBy_of (g := g) hstored
  constructor
  · intro hfree name hholds
    rw [name_of_heldTo hinj hof hholds] at hfree
    by_cases hcluster : InCluster py g (ownRecord inv legacyEnabled g)
    · exact Or.inl hcluster
    · right
      intro vm hvm
      have hother : IsOther inv legacyEnabled g vm := by
        by_contra hnot
        exact hcluster (inCluster_of_not_other hvm hnot)
      exact hfree vm hvm hother
  · intro hclear vm hvm hother
    have hmem : vm.name ∈ clusterNames inv g := by
      simp only [clusterNames, List.mem_toFinset]
      exact List.mem_map_of_mem hvm
    by_cases hholds : ∃ name, Holds inv g (ownRecord inv legacyEnabled g) name
    · obtain ⟨name, hname⟩ := hholds
      rw [name_of_heldTo hinj hof hname]
      rcases hclear name hname with ⟨record, hown, hcluster⟩ | hclear
      · obtain ⟨w, hw, hsame⟩ := isStored_own record hown
        obtain ⟨stored, hstored, hfold⟩ := hname.casefold_eq isStored_own
        rw [hown, storedName_of_sameFields hsame] at hstored
        obtain rfl := Option.some.inj hstored
        rw [hsame "cluster" (by decide), w.cluster_eq] at hcluster
        have hmemw : w ∈ clusterVms inv g.clusterId :=
          List.mem_filter.mpr ⟨hw, by simpa using hcluster⟩
        rw [hfold]
        intro heq
        obtain rfl := List.inj_on_of_nodup_map (hdistinct g.clusterId) hvm hmemw heq
        exact hother record hown ((hsame "id" (by decide)).trans vm.id_eq)
      · exact hclear vm hvm
    · have hnone : ∀ name, ¬ HeldTo py (clusterNames inv g)
          (turnBy inv g (ownRecord inv legacyEnabled g))
          (storedName (ownRecord inv legacyEnabled g)) name := fun name h => hholds ⟨name, h⟩
      rw [name_of_not_heldTo hinj hof hnone]
      exact first_free _ _ hmem

/-- The individual sync names a guest as the pre-pass does, and as no other VM of the cluster is
named, exactly if the record it takes for the guest's bears on the name as the guest's own does. -/
theorem names_alike_iff (inv : Inventory py) (legacyEnabled : Bool) (g : Guest)
    (hfold : ∀ c, py.fold c ≠ []) (hdistinct : DistinctVmNames inv) :
    NamesAlike inv legacyEnabled g ↔
      (candidateName py g.prepared ≠ "" → AlikeRecords inv legacyEnabled g) := by
  have htaken : IsStored inv (takenRecord inv legacyEnabled g) := isStored_taken
  have hown : IsStored inv (ownRecord inv legacyEnabled g) := isStored_own
  have hindividual := individualName_eq inv legacyEnabled g
  have hprePass := prePassName_eq inv legacyEnabled g
  by_cases hempty : candidateName py g.prepared = ""
  · rw [if_pos hempty] at hindividual hprePass
    refine iff_of_true ⟨⟨"", hindividual, hprePass⟩, ?_⟩ fun h => absurd hempty h
    intro name hname vm hvm _
    rw [hindividual] at hname
    obtain rfl := Option.some.inj hname
    exact casefold_ne_empty hfold vm.name_ne
  · rw [if_neg hempty] at hindividual hprePass
    have hsame := name_eq_iff (injOn_clusterNames (g := g) hdistinct) (turnBy_of (g := g) htaken)
      (turnBy_of (g := g) hown) rfl
    have hfree := free_iff legacyEnabled g hdistinct
    constructor
    · rintro ⟨⟨name, hname, hname'⟩, hother⟩ -
      have heq := Option.some.inj
        ((hindividual.symm.trans hname).trans (hname'.symm.trans hprePass))
      rw [heq] at hindividual
      exact ⟨hsame.mp heq, hfree.mp (hother _ hindividual)⟩
    · intro h
      obtain ⟨hheld, hclear⟩ := h hempty
      have heq := hsame.mpr hheld
      rw [heq] at hindividual
      refine ⟨⟨_, hindividual, hprePass⟩, ?_⟩
      intro name hname
      rw [hindividual] at hname
      obtain rfl := Option.some.inj hname
      exact hfree.mpr hclear

end Guests

/-- A VM of the cluster 1, with its custom fields. -/
def labVm (id : ℤ) (name : String) (fields : Json.Fields) (hid : 0 < id) (hname : name ≠ "") :
    StoredVm .ascii where
  record := [("id", .int id), ("name", .str name), ("cluster", .obj [("id", .int 1)]),
    ("custom_fields", .obj fields)]
  id := id
  name := name
  cluster := some 1
  id_eq := rfl
  id_pos := hid
  name_eq := rfl
  name_ne := hname
  cluster_eq := rfl
  cfEndpoint_eq := rfl
  endpoint_eq := rfl

/-- The VM of the guest 100 of the endpoint 2, which an operator has renamed. -/
def databaseVm : StoredVm .ascii :=
  labVm 2 "database" [("proxmox_vm_id", .int 100), ("proxmox_endpoint_id", .int 2),
    ("proxmox_vm_type", .str "qemu")] (by decide) (by decide)

/-- A VM that has its identity from the sync state only. -/
def webVm : StoredVm .ascii := labVm 1 "web" [] (by decide) (by decide)

def databaseRow : SyncStateRow := ⟨⟨some 2, some 100, some 2⟩, some "qemu", .str "db"⟩

def webRow : SyncStateRow := ⟨⟨some 1, some 100, some 1⟩, some "qemu", .str "web"⟩

def oneGuest : Inventory .ascii where
  vms := [databaseVm]
  rows := [databaseRow]
  sidecarInstalled := true
  distinct := by decide
  installed := by decide

def twoGuests : Inventory .ascii where
  vms := [webVm, databaseVm]
  rows := [webRow, databaseRow]
  sidecarInstalled := true
  distinct := by decide
  installed := by decide

/-- The guest 100 of the endpoint 1. -/
def webGuest : Guest where
  prepared :=
    { clusterName := "lab"
      resource := [("vmid", .int 100)]
      desiredPayload := [("name", .str "web"), ("cluster", .int 1),
        ("custom_fields", .obj [("proxmox_endpoint_id", .int 1)])]
      vmType := "qemu" }
  clusterId := 1
  vmid := 100
  vmid_pos := by decide
  cluster_eq := rfl
  vmid_eq := rfl

theorem distinctVmNames_of_nodup {py : Python} {inv : Inventory py}
    (h : (inv.vms.map fun vm => py.casefold vm.name).Nodup) : DistinctVmNames inv :=
  fun _ => h.sublist (List.filter_sublist.map _)

theorem names_alike_iff_own : NamesAlike twoGuests true webGuest := by
  have hdistinct : DistinctVmNames twoGuests := distinctVmNames_of_nodup (by decide)
  refine (names_alike_iff twoGuests true webGuest (fun c => by simp [Python.ascii]) hdistinct).mpr ?_
  intro _
  have htaken : turnBy twoGuests webGuest (takenRecord twoGuests true webGuest) = ⟨"web", .none⟩ := by
    rfl
  have hown : turnBy twoGuests webGuest (ownRecord twoGuests true webGuest) = ⟨"web", .none⟩ := by
    rfl
  have hnames : storedName (takenRecord twoGuests true webGuest) =
      storedName (ownRecord twoGuests true webGuest) := by rfl
  refine ⟨?_, fun _ _ => Or.inl ⟨_, rfl, rfl⟩⟩
  intro name
  unfold Holds
  rw [htaken, hown, hnames]

/-- The guest 100 of the endpoint 1 is new; it gets the name of the guest 100 of the endpoint 2. -/
theorem name_of_another_guest :
    DistinctVmNames oneGuest ∧ ¬ NamesAlike oneGuest true webGuest := by
  refine ⟨distinctVmNames_of_nodup (by decide), ?_⟩
  rintro ⟨⟨name, hindividual, hprePass⟩, -⟩
  have hdatabase : individualName oneGuest true webGuest = some "database" := by decide +kernel
  have hweb : prePassName oneGuest true webGuest = some "web" := by decide +kernel
  rw [hdatabase] at hindividual
  rw [hweb, ← hindividual] at hprePass
  exact absurd hprePass (by decide)

end ProxboxApi.VmNames
