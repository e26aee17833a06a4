import ProxboxApi.DeviceAdoption

/-! What `ensure_proxmox_devices_bulk` and `_ensure_device` make of the device of one node, on a NetBox
that holds devices to the site of their cluster and names to be unique in a site. -/

namespace ProxboxApi.DeviceEnsure

/-- The device sits in the site of its cluster, where that has one. -/
def Device.WellPlaced (siteScope : ℕ → Option ℕ) (d : Device) : Prop :=
  d.cluster.bind siteScope = none ∨ d.cluster.bind siteScope = some d.site

instance (siteScope : ℕ → Option ℕ) (d : Device) : Decidable (d.WellPlaced siteScope) :=
  inferInstanceAs (Decidable (_ ∨ _))

/-- A NetBox without failures: the rule of sites, and unique names in a site. -/
def NetBox.strict (siteScope : ℕ → Option ℕ) (hasDiscoveryTag : Bool) : NetBox where
  accepts others d := decide (d.WellPlaced siteScope) &&
    others.all fun other => !(decide (other.name = d.name) && decide (other.site = d.site))
  listingFails _ := false
  bulkCreateFails _ := false
  bulkPatchFails _ := false
  hasDiscoveryTag := hasDiscoveryTag

/-- `_effective_cluster_site_id`. -/
def effectiveClusterSiteId (scope : Option ℕ) (fallback : ℕ) : ℕ := scope.getD fallback

/-- A node of a cluster. -/
def nodeTarget (siteScope : ℕ → Option ℕ) (name : String) (cluster fallback : ℕ) : Target :=
  ⟨name, some (effectiveClusterSiteId (siteScope cluster) fallback), some cluster⟩

/-- The device of a node in the result of the devices phase. -/
def deviceNamed (name : String) (records : List Device) : Option Device :=
  records.reverse.find? fun d => d.name = some name

def slugs (tags : List TagRef) : List String := tags.map (·.slug)

/-- The slugs of two tag lists are the same, the discovery tag aside. -/
def SameTags (tags tags' : List TagRef) : Prop :=
  ∀ slug, slug ≠ discoveryTagRef.slug → (slug ∈ slugs tags ↔ slug ∈ slugs tags')

/-- The tags are kept, the discovery tag aside. -/
def KeepsTags (tags tags' : List TagRef) : Prop :=
  ∀ slug ∈ slugs tags, slug ≠ discoveryTagRef.slug → slug ∈ slugs tags'

structure SameDevice (d d' : Device) : Prop where
  cluster : d.cluster = d'.cluster
  site : d.site = d'.site
  status : d.status = d'.status
  description : d.description = d'.description
  deviceType : d.deviceType = d'.deviceType
  role : d.role = d'.role
  tags : SameTags d.tags d'.tags

/-- The device keeps the tags that it had and sits in the site of its cluster. -/
structure Kept (inv : Inventory) (siteScope : ℕ → Option ℕ) (d : Device) : Prop where
  tags : ∀ d₀ ∈ inv.devices, d₀.id = d.id → KeepsTags d₀.tags d.tags
  site : d.WellPlaced siteScope

/-- Both syncs leave a device of the node, the same one. -/
def Agree (inv : Inventory) (siteScope : ℕ → Option ℕ) (bulk single : Option Device) : Prop :=
  ∃ d d', bulk = some d ∧ single = some d' ∧ SameDevice d d' ∧ Kept inv siteScope d ∧
    Kept inv siteScope d'

/-- The tags of a device are safe from being overwritten. -/
def Settings.SparesTags (c : Settings) (d : Device) : Prop :=
  c.overwriteDeviceTags = false ∨ KeepsTags d.tags c.tagRefs

/-- No device has the name of the node; or one in its site has, or else one in its cluster, which has
no site; and its tags are safe. -/
def Inventory.Settled (inv : Inventory) (siteScope : ℕ → Option ℕ) (c : Settings) (t : Target) :
    Prop :=
  inv.named t = [] ∨
    (∃ d ∈ inv.named t, t.desiredSite = some d.site ∧ c.SparesTags d) ∨
    ((∀ d ∈ inv.named t, t.desiredSite ≠ some d.site) ∧ t.cluster.bind siteScope = none ∧
      ∃ d, (orderedDeviceCandidates (inv.named t)).find? (fun d => d.cluster = t.cluster) = some d ∧
        c.SparesTags d)

section Changes

variable {α : Type} [DecidableEq α] {current desired : Option α} {allowed : Bool}

@[simp] theorem changed_self : changed allowed current current = none := by
  simp [changed]

theorem changed_of_ne (h : desired ≠ current) : changed true current desired = desired := by
  simp [changed, h]

end Changes

section Tags

variable {c : Settings} {py : Python} {tags tags' base existing : List TagRef} {slug : String}

theorem mem_slugs_normalized : slug ∈ slugs (normalizedTagList tags) ↔ slug ∈ slugs tags := by
  unfold slugs normalizedTagList
  exact ((List.mergeSort_perm _ _).map _).mem_iff

theorem slugs_of_normalized_eq (h : normalizedTagList tags = normalizedTagList tags') :
    slug ∈ slugs tags ↔ slug ∈ slugs tags' := by
  rw [← mem_slugs_normalized, h, mem_slugs_normalized]

theorem unseenTags_subset {seen : List String} {tag : TagRef} (h : tag ∈ unseenTags py seen existing) :
    tag ∈ existing := by
  induction existing generalizing seen with
  | nil => simp [unseenTags] at h
  | cons t ts ih =>
    rw [unseenTags] at h
    split at h
    · exact List.mem_cons_of_mem _ (ih h)
    · rcases List.mem_cons.mp h with rfl | h
      · exact List.mem_cons_self ..
      · exact List.mem_cons_of_mem _ (ih h)

/-- Tags that are all in the base add nothing to it. -/
theorem sameTags_merge (h : KeepsTags existing base) : SameTags (mergeTagRefs py base existing) base := by
  intro slug hslug
  unfold mergeTagRefs slugs
  rw [List.map_append, List.mem_append]
  constructor
  · rintro (hbase | hunseen)
    · exact hbase
    · obtain ⟨tag, htag, rfl⟩ := List.mem_map.mp hunseen
      exact h _ (List.mem_map_of_mem (unseenTags_subset htag)) hslug
  · exact Or.inl

/-- The slugs that a patch leaves are the desired ones, where tags may be overwritten. -/
theorem mem_slugs_patched {desired : Desired} {d : Device} (hflag : c.overwriteDeviceTags = true)
    (hdesired : desired.tags = normalizedTagList tags) :
    slug ∈ slugs ((patchPayload c desired d).tags.getD d.tags) ↔ slug ∈ slugs tags := by
  have hallowed : decide (Field.tags ∈ computeDevicePatchableFields c) = true := by
    simp [computeDevicePatchableFields, hflag]
  unfold patchPayload
  simp only [hallowed, changed, Bool.true_and, hdesired]
  by_cases heq : normalizedTagList tags = normalizedTagList d.tags
  · simp [heq, slugs_of_normalized_eq heq]
  · simp [heq, mem_slugs_normalized]

theorem patchPayload_tags_of_spared {desired : Desired} {d : Device}
    (hflag : c.overwriteDeviceTags = false) : (patchPayload c desired d).tags = none := by
  have hallowed : decide (Field.tags ∈ computeDevicePatchableFields c) = false := by
    unfold computeDevicePatchableFields
    simp [hflag]
  simp [patchPayload, hallowed, changed]

end Tags

section Node

variable {siteScope : ℕ → Option ℕ} {tagged : Bool} {c : Settings} {py : Python}
  {inv : Inventory} {t : Target} {d : Device} {p : Patch}

theorem patched_of_isEmpty (h : p.isEmpty = true) : d.patched p = d := by
  simp only [Patch.isEmpty, Bool.and_eq_true, Option.isNone_iff_eq_none] at h
  obtain ⟨⟨⟨⟨⟨⟨⟨hstatus, hcluster⟩, htype⟩, hrole⟩, hsite⟩, hdescription⟩, htags⟩, hfields⟩ := h
  simp [Device.patched, hstatus, hcluster, htype, hrole, hsite, hdescription, htags, hfields]

/-- The names of the devices in a site are distinct. -/
def Inventory.Unique (inv : Inventory) : Prop :=
  ∀ d ∈ inv.devices, ∀ d' ∈ inv.devices, d.name.isSome = true → d.name = d'.name →
    d.site = d'.site → d = d'

/-- A PATCH is for the device of its id. -/
theorem change_eq (nb : NetBox) (hd : d ∈ inv.devices) {s : State} (hs : s.devices = inv.devices) :
    (change nb d p s).map (·.1) =
      if nb.accepts (inv.devices.filter fun other => other.id ≠ d.id) (d.patched p) then
        some (d.patched p) else none := by
  have hfind : inv.devices.find? (fun row => row.id = d.id) = some d := by
    cases hrow : inv.devices.find? fun row => row.id = d.id with
    | none => simpa using List.find?_eq_none.mp hrow d hd
    | some row =>
      have hid := List.find?_some hrow
      rw [inv.eq_of_id hd (List.mem_of_find?_eq_some hrow) (by simpa using hid)]
  unfold change
  rw [hs, hfind]
  dsimp only
  split <;> rfl

/-- NetBox accepts a device that keeps its site, if that is the one of its cluster. -/
theorem accepts_of_wellPlaced (hunique : inv.Unique) (hd : d ∈ inv.devices)
    (hname : d.name.isSome = true) (hsite : (d.patched p).site = d.site)
    (hplaced : (d.patched p).WellPlaced siteScope) :
    (NetBox.strict siteScope tagged).accepts
      (inv.devices.filter fun other => other.id ≠ d.id) (d.patched p) = true := by
  have hother : ∀ other ∈ inv.devices.filter fun other => other.id ≠ d.id,
      ¬(other.name = d.name ∧ other.site = d.site) := by
    intro other hmem hsame
    obtain ⟨hother, hid⟩ := List.mem_filter.mp hmem
    have heq := hunique d hd other hother hname hsame.1.symm hsame.2.symm
    simp [heq] at hid
  simp only [NetBox.strict, hplaced, decide_true, Bool.true_and, List.all_eq_true]
  intro other hmem
  have hne := hother other hmem
  rw [hsite]
  by_cases hsame : other.name = d.name
  · simpa [Device.patched, hsame] using hne
  · simp [Device.patched, hsame]

/-- `_ensure_device` on a device that it has selected. -/
theorem ensureDevice_of_selected (h : selectExistingDeviceForTarget (inv.named t) t = some d)
    (hd : d ∈ inv.devices) : (ensureDevice (NetBox.strict siteScope tagged) c py t inv.start).1 =
      if (ensurePatch c py t d).isEmpty || (NetBox.strict siteScope tagged).accepts
          (inv.devices.filter fun other => other.id ≠ d.id) (d.patched (ensurePatch c py t d)) then
        some (d.patched (ensurePatch c py t d)) else none := by
  have h' : selectExistingDeviceForTarget
    (inv.start.devices.filter fun d => d.name = some t.name) t = some d := h
  unfold ensureDevice
  have hlisting : (NetBox.strict siteScope tagged).listingFails t.name = false := rfl
  rw [hlisting, if_neg (by simp), h']
  dsimp only
  cases hempty : (ensurePatch c py t d).isEmpty with
  | true => simp [patched_of_isEmpty hempty]
  | false =>
    rw [if_neg (by simp), Bool.false_or]
    have hchange := change_eq (NetBox.strict siteScope tagged) (p := ensurePatch c py t d) hd
      (s := inv.start.log t (.patch d (ensurePatch c py t d))) rfl
    rw [← hchange, save]
    unfold sent
    cases change (NetBox.strict siteScope tagged) d (ensurePatch c py t d)
      (inv.start.log t (.patch d (ensurePatch c py t d))) with
    | none => rfl
    | some result => rfl

theorem ensureDevice_of_unselected (nb : NetBox)
    (h : selectExistingDeviceForTarget (inv.named t) t = none)
    (hlisting : nb.listingFails t.name = false) : ensureDevice nb c py t inv.start =
      reconcile nb c t (devicePayload c t t.desiredSite
        (c.tagRefs ++ if nb.hasDiscoveryTag then [discoveryTagRef] else [])) inv.start := by
  have h' : selectExistingDeviceForTarget
    (inv.start.devices.filter fun d => d.name = some t.name) t = none := h
  unfold ensureDevice
  rw [hlisting, if_neg (by simp), h']

theorem batches_singleton {α : Type} {size : ℕ} (hsize : 0 < size) (x : α) :
    BulkReconcile.batches size [x] = [[x]] := by
  have hcount : (([x] : List α).length + size - 1) / size = 1 := by
    rw [List.length_singleton, Nat.add_sub_cancel_left, Nat.div_self hsize]
  rw [BulkReconcile.batches, hcount]
  simp [List.take_of_length_le (show ([x] : List α).length ≤ size from hsize)]

theorem batches_nil {α : Type} {size : ℕ} (hsize : 0 < size) :
    BulkReconcile.batches size ([] : List α) = [] := by
  have hcount : (([] : List α).length + size - 1) / size = 0 := by
    rw [List.length_nil, Nat.zero_add]
    exact Nat.div_eq_of_lt (Nat.sub_lt hsize Nat.one_pos)
  rw [BulkReconcile.batches, hcount]
  rfl

/-- The devices phase for one node, whose payload a device matches. -/
theorem bulk_of_matched {size : ℕ}
    (h : (entryOf (NetBox.strict siteScope tagged) c inv.devices t).matched inv.devices = some d)
    (hd : d ∈ inv.devices) (hp : p = patchPayload c
      (entryOf (NetBox.strict siteScope tagged) c inv.devices t).desired d) :
    (ensureDevicesBulk (NetBox.strict siteScope tagged) c size [t] inv.start).1 =
      if p.isEmpty || (NetBox.strict siteScope tagged).accepts
          (inv.devices.filter fun other => other.id ≠ d.id) (d.patched p) then
        [d.patched p] else [] := by
  have hsize : 0 < max 1 size := by omega
  unfold ensureDevicesBulk
  dsimp only
  have hentries : entries (NetBox.strict siteScope tagged) c inv.start.devices [t] =
      [entryOf (NetBox.strict siteScope tagged) c inv.devices t] := by
    simp [entries, firstOfKeys, Inventory.start]
  have hcreate : toCreate inv.start.devices
      [entryOf (NetBox.strict siteScope tagged) c inv.devices t] = [] := by
    simp [toCreate, Inventory.start, h]
  have hupdate : (entryOf (NetBox.strict siteScope tagged) c inv.devices t).update c
      inv.start.devices = some ⟨t, d, p⟩ := by
    rw [Entry.update, Inventory.start, h, hp]
    rfl
  rw [hentries, hcreate, batches_nil hsize, createBatches, toPatch, unchanged,
    List.filterMap_cons_some hupdate, List.filterMap_nil]
  cases hempty : p.isEmpty with
  | true =>
    have hnone : [(⟨t, d, p⟩ : Update)].filter (fun u => !u.changes.isEmpty) = [] := by
      simp [hempty]
    have hkept : [(⟨t, d, p⟩ : Update)].filter (fun u => u.changes.isEmpty) = [⟨t, d, p⟩] := by
      simp [hempty]
    rw [hnone, hkept, batches_nil hsize, patchBatches, Bool.true_or, if_pos rfl,
      patched_of_isEmpty hempty]
    rfl
  | false =>
    have hone : [(⟨t, d, p⟩ : Update)].filter (fun u => !u.changes.isEmpty) = [⟨t, d, p⟩] := by
      simp [hempty]
    have hkept : [(⟨t, d, p⟩ : Update)].filter (fun u => u.changes.isEmpty) = [] := by
      simp [hempty]
    rw [hone, hkept, batches_singleton hsize, Bool.false_or]
    have hchange : ∀ s : State, s.devices = inv.devices → _ :=
      fun s hs => change_eq (NetBox.strict siteScope tagged) (p := p) hd (s := s) hs
    have hlogged := hchange (inv.start.logPatches [⟨t, d, p⟩]) rfl
    have hsaved := hchange ((inv.start.logPatches [⟨t, d, p⟩]).log t (.patch d p)) rfl
    rw [← hlogged] at hsaved
    have hresult : (if (NetBox.strict siteScope tagged).accepts
          (inv.devices.filter fun other => other.id ≠ d.id) (d.patched p) then [d.patched p]
        else []) = ((change (NetBox.strict siteScope tagged) d p
          (inv.start.logPatches [⟨t, d, p⟩])).map (·.1)).toList := by
      rw [hlogged]
      split <;> rfl
    rw [hresult]
    dsimp only [patchBatches]
    unfold bulkPatch
    have hfails : (NetBox.strict siteScope tagged).bulkPatchFails 0 = false := rfl
    rw [hfails, if_neg (by simp)]
    cases hone : change (NetBox.strict siteScope tagged) d p
        (inv.start.logPatches [⟨t, d, p⟩]) with
    | some result =>
      simp [changeAll, hone]
    | none =>
      rw [hone, Option.map_none, Option.map_eq_none_iff] at hsaved
      simp [changeAll, hone, changeItems, save, sent, hsaved]

/-- The devices phase for one node, whose payload no device matches and NetBox accepts. -/
theorem bulk_of_unmatched {size site : ℕ}
    (h : (entryOf (NetBox.strict siteScope tagged) c inv.devices t).matched inv.devices = none)
    (hsite : siteOf (NetBox.strict siteScope tagged) inv.devices t = some site)
    (haccepts : (NetBox.strict siteScope tagged).accepts inv.devices
      ((devicePayload c t (some site) c.tagRefs).device inv.next site) = true) :
    (ensureDevicesBulk (NetBox.strict siteScope tagged) c size [t] inv.start).1 =
      [(devicePayload c t (some site) c.tagRefs).device inv.next site] := by
  have hsize : 0 < max 1 size := by omega
  have hentry : entryOf (NetBox.strict siteScope tagged) c inv.devices t =
      ⟨t, devicePayload c t (some site) c.tagRefs⟩ := by
    rw [entryOf, hsite]
  rw [hentry] at h
  unfold ensureDevicesBulk
  dsimp only
  have hentries : entries (NetBox.strict siteScope tagged) c inv.start.devices [t] =
      [⟨t, devicePayload c t (some site) c.tagRefs⟩] := by
    simp [entries, firstOfKeys, Inventory.start, hentry]
  have hcreate : toCreate inv.start.devices [⟨t, devicePayload c t (some site) c.tagRefs⟩] =
      [⟨t, devicePayload c t (some site) c.tagRefs⟩] := by
    simp [toCreate, Inventory.start, h]
  have hupdate : (⟨t, devicePayload c t (some site) c.tagRefs⟩ : Entry).update c
      inv.start.devices = none := by
    rw [Entry.update, Inventory.start, h]
    rfl
  rw [hentries, hcreate, batches_singleton hsize, toPatch, unchanged,
    List.filterMap_cons_none hupdate, List.filterMap_nil, List.filter_nil, List.filter_nil,
    batches_nil hsize, patchBatches]
  dsimp only [createBatches]
  have hposted : bulkCreate (NetBox.strict siteScope tagged) 0
      [⟨t, devicePayload c t (some site) c.tagRefs⟩] inv.start =
        some ([(devicePayload c t (some site) c.tagRefs).device inv.next site],
          ⟨inv.devices ++ [(devicePayload c t (some site) c.tagRefs).device inv.next site],
            inv.next + 1, [(t, .post (devicePayload c t (some site) c.tagRefs))]⟩) := by
    unfold bulkCreate
    have hfails : (NetBox.strict siteScope tagged).bulkCreateFails 0 = false := rfl
    rw [hfails, if_neg (by simp)]
    have hcreated : create (NetBox.strict siteScope tagged)
        (devicePayload c t (some site) c.tagRefs)
        (inv.start.log t (.post (devicePayload c t (some site) c.tagRefs))) =
          some ((devicePayload c t (some site) c.tagRefs).device inv.next site,
            ⟨inv.devices ++ [(devicePayload c t (some site) c.tagRefs).device inv.next site],
              inv.next + 1, [(t, .post (devicePayload c t (some site) c.tagRefs))]⟩) := by
      unfold create
      dsimp only [devicePayload]
      exact if_pos haccepts
    simp [createAll, hcreated]
  rw [hposted]
  rfl

/-- The record that `rest_reconcile_async` finds keeps its site. -/
theorem reconcile_site (nb : NetBox) {desired : Desired} {r : Device}
    (hfind : findExisting desired inv.devices = some d)
    (h : (reconcile nb c t desired inv.start).1 = some r) : r.site = d.site := by
  have hfind' : findExisting desired inv.start.devices = some d := hfind
  unfold reconcile at h
  rw [hfind'] at h
  dsimp only at h
  split at h
  · rw [← Option.some.inj h]
  · have hchange := change_eq nb (p := patchPayload c desired d) (findExisting_mem hfind).1
      (s := inv.start.log t (.patch d (patchPayload c desired d))) rfl
    unfold save sent at h
    cases hresult : change nb d (patchPayload c desired d)
        (inv.start.log t (.patch d (patchPayload c desired d))) with
    | none => simp [hresult] at h
    | some result =>
      simp only [hresult] at h
      rw [hresult, Option.map_some] at hchange
      split at hchange
      · rw [← Option.some.inj h, Option.some.inj hchange]
        rfl
      · contradiction

/-- A new device that `rest_reconcile_async` posts and NetBox accepts. -/
theorem reconcile_of_new (nb : NetBox) {desired : Desired} {site : ℕ}
    (hfind : findExisting desired inv.devices = none) (hsite : desired.site = some site)
    (haccepts : nb.accepts inv.devices (desired.device inv.next site) = true) :
    (reconcile nb c t desired inv.start).1 = some (desired.device inv.next site) := by
  have hfind' : findExisting desired inv.start.devices = none := hfind
  unfold reconcile
  rw [hfind']
  dsimp only
  have hcreated : create nb desired (inv.start.log t (.post desired)) =
      some (desired.device inv.next site, ⟨inv.devices ++ [desired.device inv.next site],
        inv.next + 1, [(t, .post desired)]⟩) := by
    unfold create
    rw [hsite]
    exact if_pos haccepts
  rw [post, hcreated]
  rfl

end Node

section Agreement

variable {siteScope : ℕ → Option ℕ} {tagged : Bool} {c : Settings} {py : Python}
  {inv : Inventory} {t : Target} {d : Device} {site cluster : ℕ}

/-- The selector, where a site and a cluster are given. -/
theorem select_eq (hsite : t.desiredSite = some site) (hcluster : t.cluster = some cluster)
    (records : List Device) : selectExistingDeviceForTarget records t =
      (((orderedDeviceCandidates records).find? fun d => d.site = site).or
        ((orderedDeviceCandidates records).find? fun d => d.cluster = some cluster)).or
          ((orderedDeviceCandidates records).find? Device.proxbox) := by
  unfold selectExistingDeviceForTarget
  simp [hsite, hcluster]

theorem select_of_site (hunique : inv.Unique) (hd : d ∈ inv.named t)
    (hsite : t.desiredSite = some d.site) :
    selectExistingDeviceForTarget (inv.named t) t = some d := by
  obtain ⟨hmem, hname⟩ := inv.mem_named.mp hd
  have hfind : (orderedDeviceCandidates (inv.named t)).find? (fun d' => d'.site = d.site) =
      some d := by
    cases hfind : (orderedDeviceCandidates (inv.named t)).find? fun d' => d'.site = d.site with
    | none =>
      simpa using List.find?_eq_none.mp hfind d (mem_orderedDeviceCandidates.mpr hd)
    | some d' =>
      have hsame : d'.site = d.site := by simpa using List.find?_some hfind
      obtain ⟨hmem', hname'⟩ := inv.mem_named.mp
        (mem_orderedDeviceCandidates.mp (List.mem_of_find?_eq_some hfind))
      rw [hunique d' hmem' d hmem (by simp [hname']) (hname'.trans hname.symm) hsame]
  unfold selectExistingDeviceForTarget
  simp [hsite, hfind]

theorem select_of_cluster (hsite : t.desiredSite = some site) (hcluster : t.cluster = some cluster)
    (hnone : ∀ d ∈ inv.named t, t.desiredSite ≠ some d.site)
    (hfind : (orderedDeviceCandidates (inv.named t)).find? (fun d => d.cluster = t.cluster) =
      some d) : selectExistingDeviceForTarget (inv.named t) t = some d := by
  rw [select_eq hsite hcluster, ← hcluster, hfind]
  have hnosite : (orderedDeviceCandidates (inv.named t)).find? (fun d => d.site = site) = none := by
    rw [List.find?_eq_none]
    intro d hd hsame
    refine hnone d (mem_orderedDeviceCandidates.mp hd) ?_
    rw [hsite, of_decide_eq_true hsame]
  rw [hnosite]
  rfl

variable (siteScope tagged) in
theorem siteOf_of_select (h : selectExistingDeviceForTarget (inv.named t) t = some d) :
    siteOf (NetBox.strict siteScope tagged) inv.devices t = some d.site := by
  have h' : selectExistingDeviceForTarget (inv.devices.filter fun d => d.name = some t.name) t =
    some d := h
  have hlisting : (NetBox.strict siteScope tagged).listingFails t.name = false := rfl
  unfold siteOf
  dsimp only
  rw [hlisting, if_neg (by simp), h']
  rfl

variable (siteScope tagged c) in
/-- The payload for a selected device matches it. -/
theorem matched_of_select (hunique : inv.Unique) (hd : d ∈ inv.named t)
    (h : selectExistingDeviceForTarget (inv.named t) t = some d) :
    (entryOf (NetBox.strict siteScope tagged) c inv.devices t).matched inv.devices = some d := by
  obtain ⟨hmem, hname⟩ := inv.mem_named.mp hd
  have hsite := siteOf_of_select siteScope tagged h
  cases hmatched : (entryOf (NetBox.strict siteScope tagged) c inv.devices t).matched
      inv.devices with
  | none =>
    unfold Entry.matched preferExistingDevice at hmatched
    rw [Option.or_eq_none_iff, List.head?_eq_none_iff, List.head?_eq_none_iff] at hmatched
    have hin : d ∈ inv.devices.filter fun d' =>
        d'.name = some (entryOf (NetBox.strict siteScope tagged) c inv.devices t).desired.name &&
          some d'.site = (entryOf (NetBox.strict siteScope tagged) c inv.devices t).desired.site := by
      simp only [List.mem_filter, Bool.and_eq_true, decide_eq_true_eq]
      exact ⟨hmem, hname, hsite.symm⟩
    rw [hmatched.2] at hin
    simp at hin
  | some d' =>
    obtain ⟨hmem', hname', hsite'⟩ := mem_of_matched hmatched
    have hsame : d'.site = d.site := Option.some.inj (hsite'.trans hsite)
    rw [hunique d' hmem' d hmem (by simp [hname']) (hname'.trans hname.symm) hsame]

/-- NetBox accepts a new device of a node in the site where no device has its name. -/
theorem accepts_new {desired : Desired} (hsite : t.desiredSite = some site)
    (hname : desired.name = t.name) (hcluster : desired.cluster = some cluster)
    (hscope : siteScope cluster = none ∨ siteScope cluster = some site)
    (hnone : ∀ d ∈ inv.named t, t.desiredSite ≠ some d.site) :
    (NetBox.strict siteScope tagged).accepts inv.devices (desired.device inv.next site) = true := by
  have hplaced : (desired.device inv.next site).WellPlaced siteScope := by
    unfold Device.WellPlaced Desired.device
    rw [hcluster]
    exact hscope
  simp only [NetBox.strict, hplaced, decide_true, Bool.true_and, List.all_eq_true]
  intro other hother
  by_cases hsame : other.name = some t.name
  · have hne := hnone other (inv.mem_named.mpr ⟨hother, hsame⟩)
    rw [hsite, Ne, Option.some.injEq] at hne
    simp [Desired.device, Ne.symm hne]
  · simp [Desired.device, hname, hsame]

/-- The tags of `_ensure_device`, those of the device among them. -/
def mergedPatch (c : Settings) (py : Python) (t : Target) (d : Device) : Patch :=
  patchPayload c (devicePayload c t (some d.site) (mergeTagRefs py c.tagRefs d.tags)) d

theorem allows_cluster (c : Settings) :
    decide (Field.cluster ∈ computeDevicePatchableFields c) = true := by
  simp [computeDevicePatchableFields]

theorem ensurePatch_of_eq (h : d.cluster = t.cluster) :
    ensurePatch c py t d = mergedPatch c py t d := by
  have hunchanged : (mergedPatch c py t d).cluster = none := by
    simp only [mergedPatch, patchPayload, devicePayload, h, changed_self]
  have hpatch : ensurePatch c py t d = if (mergedPatch c py t d).cluster.isSome then
      { mergedPatch c py t d with site := t.desiredSite } else mergedPatch c py t d := rfl
  rw [hpatch, hunchanged, if_neg (by simp)]

theorem ensurePatch_of_ne (hcluster : t.cluster = some cluster) (h : d.cluster ≠ t.cluster) :
    ensurePatch c py t d = { mergedPatch c py t d with site := t.desiredSite } := by
  have hchanged : (mergedPatch c py t d).cluster = some cluster := by
    simp only [mergedPatch, patchPayload, devicePayload, allows_cluster]
    rw [changed_of_ne (Ne.symm h), hcluster]
  have hpatch : ensurePatch c py t d = if (mergedPatch c py t d).cluster.isSome then
      { mergedPatch c py t d with site := t.desiredSite } else mergedPatch c py t d := rfl
  rw [hpatch, hchanged]
  exact if_pos rfl

/-- A patch sets the cluster of the node. -/
theorem patched_cluster (hcluster : t.cluster = some cluster) (site : Option ℕ)
    (tags : List TagRef) :
    (d.patched (patchPayload c (devicePayload c t site tags) d)).cluster = t.cluster := by
  simp only [Device.patched, patchPayload, devicePayload, allows_cluster]
  by_cases heq : t.cluster = d.cluster
  · rw [heq, changed_self]
    rfl
  · rw [changed_of_ne heq, hcluster]
    rfl

/-- Up to the site and the tags the patches of both syncs are the same. -/
theorem sameDevice_patched {site : Option ℕ} {tags tags' : List TagRef} {site' moved : Option ℕ}
    (hsite : moved.getD d.site = d.site)
    (htags : SameTags (d.patched (patchPayload c (devicePayload c t site tags) d)).tags
      (d.patched (patchPayload c (devicePayload c t site' tags') d)).tags) :
    SameDevice (d.patched (patchPayload c (devicePayload c t site tags) d))
      (d.patched { patchPayload c (devicePayload c t site' tags') d with site := moved }) where
  cluster := by simp only [Device.patched, patchPayload, devicePayload]
  site := by simp only [Device.patched, patchPayload, Option.getD_none, hsite]
  status := by simp only [Device.patched, patchPayload, devicePayload]
  description := by simp only [Device.patched, patchPayload, devicePayload]
  deviceType := by simp only [Device.patched, patchPayload, devicePayload]
  role := by simp only [Device.patched, patchPayload, devicePayload]
  tags := by simpa only [Device.patched] using htags

/-- The tags that the patch of the devices phase leaves. -/
theorem mem_slugs_bulk (hflag : c.overwriteDeviceTags = true) {site : Option ℕ}
    {tags : List TagRef} {slug : String} :
    slug ∈ slugs (d.patched (patchPayload c (devicePayload c t site tags) d)).tags ↔
      slug ∈ slugs tags :=
  mem_slugs_patched hflag rfl

variable (py t) in
/-- Where the tags of the device are safe, both patches leave the same, and all that it had. -/
theorem tags_of_spared (h : c.SparesTags d) (site site' : Option ℕ) :
    SameTags (d.patched (patchPayload c (devicePayload c t site c.tagRefs) d)).tags
        (d.patched (patchPayload c
          (devicePayload c t site' (mergeTagRefs py c.tagRefs d.tags)) d)).tags ∧
      KeepsTags d.tags (d.patched (patchPayload c (devicePayload c t site c.tagRefs) d)).tags := by
  cases hflag : c.overwriteDeviceTags with
  | false =>
    have hkept : ∀ desired, (d.patched (patchPayload c desired d)).tags = d.tags := by
      intro desired
      simp only [Device.patched, patchPayload_tags_of_spared hflag, Option.getD_none]
    rw [hkept, hkept]
    exact ⟨fun _ _ => Iff.rfl, fun _ hslug _ => hslug⟩
  | true =>
    have hkeeps : KeepsTags d.tags c.tagRefs := by
      rcases h with h | h
      · rw [hflag] at h
        contradiction
      · exact h
    constructor
    · intro slug hslug
      rw [mem_slugs_bulk hflag, mem_slugs_bulk hflag]
      exact (sameTags_merge hkeeps slug hslug).symm
    · intro slug hin hslug
      rw [mem_slugs_bulk hflag]
      exact hkeeps slug hin hslug

theorem SameTags.keeps {tags tags' tags'' : List TagRef} (hsame : SameTags tags' tags'')
    (h : KeepsTags tags tags') : KeepsTags tags tags'' := by
  intro slug hin hslug
  exact (hsame slug hslug).mp (h slug hin hslug)

end Agreement

section Main

variable {siteScope : ℕ → Option ℕ} {tagged : Bool} {c : Settings} {py : Python}
  {inv : Inventory} {name : String} {cluster fallback size : ℕ} {d : Device}

/-- The device that the devices phase leaves for the node. -/
def bulkDevice (siteScope : ℕ → Option ℕ) (tagged : Bool) (c : Settings) (size : ℕ)
    (inv : Inventory) (t : Target) : Option Device :=
  deviceNamed t.name (ensureDevicesBulk (NetBox.strict siteScope tagged) c size [t] inv.start).1

/-- The device that `_ensure_device` leaves. -/
def singleDevice (siteScope : ℕ → Option ℕ) (tagged : Bool) (c : Settings) (py : Python)
    (inv : Inventory) (t : Target) : Option Device :=
  (ensureDevice (NetBox.strict siteScope tagged) c py t inv.start).1

theorem deviceNamed_singleton (h : d.name = some name) : deviceNamed name [d] = some d := by
  simp [deviceNamed, h]

/-- The site of a node is that of its cluster. -/
theorem scope_eq : siteScope cluster = none ∨
    siteScope cluster = some (effectiveClusterSiteId (siteScope cluster) fallback) := by
  unfold effectiveClusterSiteId
  cases siteScope cluster <;> simp

/-- Without a device that may be adopted, the devices phase creates one in the site of the node. -/
theorem bulkDevice_of_unselected {t : Target} (ht : t = nodeTarget siteScope name cluster fallback)
    (hselect : selectExistingDeviceForTarget (inv.named t) t = none) :
    bulkDevice siteScope tagged c size inv t =
      some ((devicePayload c t t.desiredSite c.tagRefs).device inv.next
        (effectiveClusterSiteId (siteScope cluster) fallback)) := by
  have hplaced : t.Placed := by
    rw [ht]
    exact .inl rfl
  have hnone : ¬∃ d ∈ inv.devices, Permitted t d := by
    intro hsome
    obtain ⟨d, hd, hpermitted⟩ := inv.exists_permitted_iff.mpr hsome
    have := select_isSome hd hpermitted
    rw [hselect] at this
    contradiction
  have hsite : t.desiredSite = some (effectiveClusterSiteId (siteScope cluster) fallback) := by
    rw [ht]
    rfl
  have hmatched : (entryOf (NetBox.strict siteScope tagged) c inv.devices t).matched
      inv.devices = none := by
    rw [Option.eq_none_iff_forall_not_mem]
    intro d hd
    exact hnone (exists_permitted_of_matched hplaced rfl hd)
  have hsiteOf := siteOf_of_none (NetBox.strict siteScope tagged) hplaced hnone
  rw [hsite] at hsiteOf ⊢
  unfold bulkDevice
  rw [bulk_of_unmatched hmatched hsiteOf]
  · exact deviceNamed_singleton rfl
  · refine accepts_new hsite rfl (by rw [ht]; rfl) scope_eq ?_
    intro d hd hsame
    exact hnone ⟨d, (inv.mem_named.mp hd).1, (inv.mem_named.mp hd).2, .inl hsame⟩

/-- No device has the name of the node: both syncs create it. -/
theorem agree_of_new {t : Target} (ht : t = nodeTarget siteScope name cluster fallback)
    (hnew : inv.named t = []) : Agree inv siteScope (bulkDevice siteScope tagged c size inv t)
      (singleDevice siteScope tagged c py inv t) := by
  have hselect : selectExistingDeviceForTarget (inv.named t) t = none := by
    rw [hnew, select_eq_none_iff (by rw [ht]; exact .inl rfl) (by simp)]
    simp
  have hsite : t.desiredSite = some (effectiveClusterSiteId (siteScope cluster) fallback) := by
    rw [ht]
    rfl
  have hcluster : t.cluster = some cluster := by
    rw [ht]
    rfl
  have hplaced : ∀ tags, Kept inv siteScope ((devicePayload c t t.desiredSite tags).device inv.next
      (effectiveClusterSiteId (siteScope cluster) fallback)) := by
    intro tags
    constructor
    · intro d₀ hd₀ hid
      exact absurd hid (inv.fresh d₀ hd₀).ne
    · have hscope : t.cluster.bind siteScope = siteScope cluster := by rw [hcluster]; rfl
      show t.cluster.bind siteScope = none ∨ t.cluster.bind siteScope = some _
      rw [hscope]
      exact scope_eq
  have hsingle : singleDevice siteScope tagged c py inv t =
      some ((devicePayload c t t.desiredSite (c.tagRefs ++ if tagged then [discoveryTagRef]
        else [])).device inv.next (effectiveClusterSiteId (siteScope cluster) fallback)) := by
    unfold singleDevice
    rw [ensureDevice_of_unselected _ hselect rfl]
    refine reconcile_of_new _ ?_ hsite ?_
    · rw [findExisting_eq_none_iff]
      intro d hd hname
      have hmem : d ∈ inv.named t := inv.mem_named.mpr ⟨hd, hname⟩
      rw [hnew] at hmem
      simp at hmem
    · refine accepts_new hsite rfl (by rw [← hcluster]; rfl) scope_eq ?_
      rw [hnew]
      simp
  refine ⟨_, _, bulkDevice_of_unselected ht hselect, hsingle,
    ⟨rfl, rfl, rfl, rfl, rfl, rfl, ?_⟩, hplaced _, hplaced _⟩
  intro slug hslug
  have hpayload : ∀ tags, ((devicePayload c t t.desiredSite tags).device inv.next
      (effectiveClusterSiteId (siteScope cluster) fallback)).tags = normalizedTagList tags :=
    fun _ => rfl
  rw [hpayload, hpayload, mem_slugs_normalized, mem_slugs_normalized]
  unfold slugs
  rw [List.map_append, List.mem_append]
  cases tagged with
  | false => simp
  | true => simp [hslug]

/-- A device that both syncs select and leave in its site. -/
theorem agree_of_selected (hunique : inv.Unique) {t : Target} (hcluster : t.cluster = some cluster)
    (hd : d ∈ inv.named t) (hselect : selectExistingDeviceForTarget (inv.named t) t = some d)
    (hspared : c.SparesTags d)
    (hstays : t.desiredSite = some d.site ∨ d.cluster = t.cluster)
    (hscope : t.cluster.bind siteScope = none ∨ t.cluster.bind siteScope = some d.site) :
    Agree inv siteScope (bulkDevice siteScope tagged c size inv t)
      (singleDevice siteScope tagged c py inv t) := by
  obtain ⟨hmem, hname⟩ := inv.mem_named.mp hd
  have hsome : d.name.isSome = true := by rw [hname]; rfl
  have hsiteOf := siteOf_of_select siteScope tagged hselect
  -- the patch of `_ensure_device` moves the device nowhere
  obtain ⟨moved, hmoved, hensure⟩ : ∃ moved : Option ℕ, moved.getD d.site = d.site ∧
      ensurePatch c py t d = { mergedPatch c py t d with site := moved } := by
    by_cases heq : d.cluster = t.cluster
    · refine ⟨none, rfl, ?_⟩
      rw [ensurePatch_of_eq heq, mergedPatch, patchPayload]
    · have hsite := hstays.resolve_right heq
      exact ⟨t.desiredSite, by rw [hsite]; rfl, ensurePatch_of_ne hcluster heq⟩
  obtain ⟨hsame, hkeeps⟩ := tags_of_spared py t hspared (some d.site) (some d.site)
  have hdevice : SameDevice (d.patched (patchPayload c (devicePayload c t (some d.site) c.tagRefs) d))
      (d.patched (ensurePatch c py t d)) := by
    rw [hensure]
    exact sameDevice_patched hmoved hsame
  have hplaced : (d.patched (patchPayload c (devicePayload c t (some d.site) c.tagRefs) d)).WellPlaced
      siteScope := by
    unfold Device.WellPlaced
    rw [patched_cluster hcluster]
    exact hscope
  have hplaced' : (d.patched (ensurePatch c py t d)).WellPlaced siteScope := by
    unfold Device.WellPlaced
    rw [← hdevice.cluster, ← hdevice.site]
    exact hplaced
  have hmatched := matched_of_select siteScope tagged c hunique hd hselect
  refine ⟨d.patched (patchPayload c (devicePayload c t (some d.site) c.tagRefs) d),
    d.patched (ensurePatch c py t d), ?_, ?_, ?_, ⟨?_, hplaced⟩, ⟨?_, hplaced'⟩⟩
  · unfold bulkDevice
    have hpayload : patchPayload c (devicePayload c t (some d.site) c.tagRefs) d = patchPayload c
        (entryOf (NetBox.strict siteScope tagged) c inv.devices t).desired d := by
      rw [entryOf, hsiteOf]
    rw [bulk_of_matched hmatched hmem hpayload, accepts_of_wellPlaced hunique hmem hsome rfl hplaced,
      Bool.or_true, if_pos rfl]
    exact deviceNamed_singleton hname
  · unfold singleDevice
    have hstay : (d.patched (ensurePatch c py t d)).site = d.site := by
      rw [hensure]
      exact hmoved
    rw [ensureDevice_of_selected hselect hmem,
      accepts_of_wellPlaced hunique hmem hsome hstay hplaced', Bool.or_true, if_pos rfl]
  · exact hdevice
  · intro d₀ hd₀ hid
    rw [inv.eq_of_id hmem hd₀ hid]
    exact hkeeps
  · intro d₀ hd₀ hid
    rw [inv.eq_of_id hmem hd₀ hid]
    exact hdevice.tags.keeps hkeeps

/-- A device that both syncs select is left to agree only where its tags are safe and it stays in
its site. -/
theorem settled_of_selected (hunique : inv.Unique) {t : Target}
    (ht : t = nodeTarget siteScope name cluster fallback) (hd : d ∈ inv.named t)
    (hselect : selectExistingDeviceForTarget (inv.named t) t = some d)
    (h : Agree inv siteScope (bulkDevice siteScope tagged c size inv t)
      (singleDevice siteScope tagged c py inv t)) :
    c.SparesTags d ∧ (t.desiredSite = some d.site ∨
      (d.cluster = t.cluster ∧ t.cluster.bind siteScope = none)) := by
  obtain ⟨hmem, hname⟩ := inv.mem_named.mp hd
  have hcluster : t.cluster = some cluster := by rw [ht]; rfl
  have hsiteOf := siteOf_of_select siteScope tagged hselect
  have hmatched := matched_of_select siteScope tagged c hunique hd hselect
  have hpayload : patchPayload c (devicePayload c t (some d.site) c.tagRefs) d = patchPayload c
      (entryOf (NetBox.strict siteScope tagged) c inv.devices t).desired d := by
    rw [entryOf, hsiteOf]
  obtain ⟨r, r', hbulk, hsingle, hsame, hkept, hkept'⟩ := h
  have hr : r = d.patched (patchPayload c (devicePayload c t (some d.site) c.tagRefs) d) := by
    unfold bulkDevice at hbulk
    rw [bulk_of_matched hmatched hmem hpayload] at hbulk
    split at hbulk
    · have hnamed : (d.patched (patchPayload c (devicePayload c t (some d.site) c.tagRefs) d)).name =
          some t.name := hname
      rw [deviceNamed_singleton hnamed] at hbulk
      exact (Option.some.inj hbulk).symm
    · simp [deviceNamed] at hbulk
  have hr' : r' = d.patched (ensurePatch c py t d) := by
    unfold singleDevice at hsingle
    rw [ensureDevice_of_selected hselect hmem] at hsingle
    split at hsingle
    · exact (Option.some.inj hsingle).symm
    · simp at hsingle
  have hrsite : r.site = d.site := by
    rw [hr]
    rfl
  constructor
  · unfold Settings.SparesTags
    by_cases hflag : c.overwriteDeviceTags = true
    · right
      intro slug hin hslug
      have hkeeps := hkept.tags d hmem (by rw [hr]; rfl) slug hin hslug
      rwa [hr, mem_slugs_bulk hflag] at hkeeps
    · left
      simpa using hflag
  · by_cases heq : d.cluster = t.cluster
    · have hplaced := hkept.site
      unfold Device.WellPlaced at hplaced
      rw [hrsite, hr, patched_cluster hcluster] at hplaced
      rcases hplaced with hnone | hsome
      · exact .inr ⟨heq, hnone⟩
      · left
        rw [hcluster, Option.bind_some] at hsome
        rw [ht, nodeTarget, effectiveClusterSiteId, hsome]
        rfl
    · left
      have hmoved : r'.site = effectiveClusterSiteId (siteScope cluster) fallback := by
        rw [hr', ensurePatch_of_ne hcluster heq, ht]
        rfl
      rw [← hrsite, hsame.site, hmoved, ht]
      rfl

/-- Where only foreign devices have the name, `_ensure_device` patches one of them. -/
theorem not_agree_of_foreign {t : Target} (ht : t = nodeTarget siteScope name cluster fallback)
    (hd : d ∈ inv.named t) (hselect : selectExistingDeviceForTarget (inv.named t) t = none) :
    ¬Agree inv siteScope (bulkDevice siteScope tagged c size inv t)
      (singleDevice siteScope tagged c py inv t) := by
  rintro ⟨r, r', hbulk, hsingle, hsame, _⟩
  rw [bulkDevice_of_unselected ht hselect, Option.some.injEq] at hbulk
  unfold singleDevice at hsingle
  rw [ensureDevice_of_unselected _ hselect rfl] at hsingle
  have hplaced : t.Placed := by
    rw [ht]
    exact .inl rfl
  cases hfind : findExisting (devicePayload c t t.desiredSite
      (c.tagRefs ++ if (NetBox.strict siteScope tagged).hasDiscoveryTag then [discoveryTagRef]
        else [])) inv.devices with
  | none =>
    obtain ⟨hmem, hname⟩ := inv.mem_named.mp hd
    exact findExisting_eq_none_iff.mp hfind d hmem hname
  | some f =>
    have hsite := reconcile_site _ hfind hsingle
    obtain ⟨hmem, hname⟩ := findExisting_mem hfind
    have hf : f ∈ inv.named t := inv.mem_named.mpr ⟨hmem, hname⟩
    rw [select_eq_none_iff hplaced fun d hd => (inv.mem_named.mp hd).2] at hselect
    refine hselect f hf ⟨hname, .inl ?_⟩
    rw [← hsite, ← hsame.site, ← hbulk, ht]
    rfl

/-- Both syncs leave the same device for a node if and only if no device has its name; or one in its
site, or else in its cluster without a site, has no tag that the sync would overwrite. -/
theorem agree_iff (siteScope : ℕ → Option ℕ) (tagged : Bool) (c : Settings) (py : Python)
    (inv : Inventory) (hunique : inv.Unique) (name : String) (cluster fallback size : ℕ) :
    Agree inv siteScope
        (bulkDevice siteScope tagged c size inv (nodeTarget siteScope name cluster fallback))
        (singleDevice siteScope tagged c py inv (nodeTarget siteScope name cluster fallback)) ↔
      inv.Settled siteScope c (nodeTarget siteScope name cluster fallback) := by
  obtain ⟨t, ht⟩ : ∃ t, t = nodeTarget siteScope name cluster fallback := ⟨_, rfl⟩
  rw [← ht]
  have hcluster : t.cluster = some cluster := by rw [ht]; rfl
  have hsite : t.desiredSite = some (effectiveClusterSiteId (siteScope cluster) fallback) := by
    rw [ht]
    rfl
  constructor
  · intro h
    by_cases hnew : inv.named t = []
    · exact .inl hnew
    right
    cases hselect : selectExistingDeviceForTarget (inv.named t) t with
    | none =>
      obtain ⟨d, hd⟩ := List.exists_mem_of_ne_nil _ hnew
      exact absurd h (not_agree_of_foreign ht hd hselect)
    | some d =>
      have hd : d ∈ inv.named t := (permitted_of_select (by rw [ht]; exact .inl rfl)
        (fun d hd => (inv.mem_named.mp hd).2) hselect).1
      obtain ⟨hspared, hown | ⟨heq, hscope⟩⟩ := settled_of_selected hunique ht hd hselect h
      · exact .inl ⟨d, hd, hown, hspared⟩
      by_cases hother : ∃ d' ∈ inv.named t, t.desiredSite = some d'.site
      · -- a device in the site is selected before one in the cluster
        obtain ⟨d', hd', hown'⟩ := hother
        have hselect' := select_of_site hunique hd' hown'
        rw [hselect, Option.some.injEq] at hselect'
        exact .inl ⟨d, hd, hselect' ▸ hown', hspared⟩
      · push Not at hother
        refine .inr ⟨hother, hscope, ?_⟩
        cases hfind : (orderedDeviceCandidates (inv.named t)).find? fun d => d.cluster = t.cluster with
        | none =>
          have hne := List.find?_eq_none.mp hfind d (mem_orderedDeviceCandidates.mpr hd)
          simp [heq] at hne
        | some d' =>
          have hselect' := select_of_cluster hsite hcluster hother hfind
          rw [hselect, Option.some.injEq] at hselect'
          exact ⟨d', rfl, hselect' ▸ hspared⟩
  · rintro (hnew | ⟨d, hd, hown, hspared⟩ | ⟨hother, hscope, d, hfind, hspared⟩)
    · exact agree_of_new ht hnew
    · refine agree_of_selected hunique hcluster hd (select_of_site hunique hd hown) hspared
        (.inl hown) ?_
      rw [hcluster, Option.bind_some, ← hown, hsite]
      exact scope_eq
    · have hd : d ∈ inv.named t := mem_orderedDeviceCandidates.mp (List.mem_of_find?_eq_some hfind)
      exact agree_of_selected hunique hcluster hd (select_of_cluster hsite hcluster hother hfind)
        hspared (.inr (by simpa using List.find?_some hfind)) (.inl hscope)

end Main

section Operator

/-- A node device in site 5 and cluster 3. -/
def nodeDevice (tags : List TagRef) : Device where
  id := 7
  name := some "pve1"
  status := "active"
  cluster := some 3
  deviceType := some 1
  role := some 1
  site := 5
  description := "Proxmox Node pve1"
  tags := tags
  customFields := []

def Inventory.node (tags : List TagRef) : Inventory where
  devices := [nodeDevice tags]
  next := 8
  ids := by simp
  fresh := by simp [nodeDevice]

theorem Inventory.node_unique (tags : List TagRef) : (Inventory.node tags).Unique := by
  intro d hd d' hd' _ _ _
  rw [List.mem_singleton.mp hd, List.mem_singleton.mp hd']

theorem agree_iff_untagged :
    Agree (Inventory.node []) (fun _ => some 5)
      (bulkDevice (fun _ => some 5) false Settings.sample 50 (Inventory.node [])
        (nodeTarget (fun _ => some 5) "pve1" 3 5))
      (singleDevice (fun _ => some 5) false Settings.sample Python.ascii (Inventory.node [])
        (nodeTarget (fun _ => some 5) "pve1" 3 5)) := by
  rw [agree_iff _ _ _ _ _ (Inventory.node_unique [])]
  refine .inr (.inl ⟨nodeDevice [], ?_, rfl, .inr ?_⟩)
  · exact Inventory.mem_named.mpr ⟨List.mem_singleton_self _, rfl⟩
  · simp [KeepsTags, slugs, nodeDevice]

/-- A tag of the operator on the device of a node is lost in the devices phase. -/
theorem operator_tag_lost :
    ¬Agree (Inventory.node [⟨some "Rack", "rack", none, by decide⟩]) (fun _ => some 5)
      (bulkDevice (fun _ => some 5) false Settings.sample 50
        (Inventory.node [⟨some "Rack", "rack", none, by decide⟩])
        (nodeTarget (fun _ => some 5) "pve1" 3 5))
      (singleDevice (fun _ => some 5) false Settings.sample Python.ascii
        (Inventory.node [⟨some "Rack", "rack", none, by decide⟩])
        (nodeTarget (fun _ => some 5) "pve1" 3 5)) := by
  intro h
  have hd : nodeDevice [⟨some "Rack", "rack", none, by decide⟩] ∈
      (Inventory.node [⟨some "Rack", "rack", none, by decide⟩]).named
        (nodeTarget (fun _ => some 5) "pve1" 3 5) :=
    Inventory.mem_named.mpr ⟨List.mem_singleton_self _, rfl⟩
  obtain ⟨hspared, _⟩ := settled_of_selected (Inventory.node_unique _) rfl hd
    (select_of_site (Inventory.node_unique _) hd rfl) h
  rcases hspared with hflag | hkeeps
  · simp [Settings.sample] at hflag
  · have hrack := hkeeps "rack" (by simp [slugs, nodeDevice]) (by decide)
    simp [slugs, Settings.sample] at hrack

end Operator

end ProxboxApi.DeviceEnsure
