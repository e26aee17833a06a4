import ProxboxApi.BulkAgreement
import ProxboxApi.DeviceEnsure

/-! Which devices are adopted for a node. The selector takes none that the node may not have; the
lookups of `rest_reconcile_async` take any device of the name. -/

namespace ProxboxApi.DeviceEnsure

variable (nb : NetBox) (c : Settings) (py : Python)

/-- The devices of NetBox before a call. -/
structure Inventory where
  devices : List Device
  next : ℕ
  ids : (devices.map Device.id).Nodup
  fresh : ∀ d ∈ devices, d.id < next

def Inventory.start (inv : Inventory) : State := ⟨inv.devices, inv.next, []⟩

/-- A site or a cluster is given. -/
def Target.Placed (t : Target) : Prop := t.desiredSite.isSome = true ∨ t.cluster.isSome = true

/-- The device has the name of the node, and sits in its site or in its cluster or has the tag. -/
def Permitted (t : Target) (d : Device) : Prop :=
  d.name = some t.name ∧ (t.desiredSite = some d.site ∨
    (t.cluster.isSome = true ∧ d.cluster = t.cluster) ∨ d.proxbox = true)

/-- No device of before is patched for a node that may not have it, and a node that may have none
gets a new one. -/
structure NeverAdopts (inv : Inventory) (targets : List Target) (after : State) : Prop where
  patched : ∀ t d p, (t, Write.patch d p) ∈ after.writes →
    ∀ d₀ ∈ inv.devices, d₀.id = d.id → Permitted t d₀
  created : ∀ t ∈ targets, (∃ d₀ ∈ inv.devices, Permitted t d₀) ∨
    ∃ t' desired, (t', Write.post desired) ∈ after.writes ∧ desired.name = t.name ∧
      desired.site = t.desiredSite

/-- The payloads of failed bulk POSTs, each with the state in which it is reconciled alone. -/
def itemsAlone : List Entry → State → List (Entry × State)
  | [], _ => []
  | e :: es, s => (e, s) :: itemsAlone es (reconcile nb c e.target e.desired s).2

def alone : ℕ → List (List Entry) → State → List (Entry × State)
  | _, [], _ => []
  | i, batch :: batches, s =>
    match bulkCreate nb i batch s with
    | some first => alone (i + 1) batches first.2
    | none => itemsAlone nb c batch s ++ alone (i + 1) batches (createItems nb c batch s).2

/-- The payloads of the bulk POSTs that succeed. -/
def inBulk : ℕ → List (List Entry) → State → List Entry
  | _, [], _ => []
  | i, batch :: batches, s =>
    match bulkCreate nb i batch s with
    | some first => batch ++ inBulk (i + 1) batches first.2
    | none => inBulk (i + 1) batches (createItems nb c batch s).2

/-- The payloads of a call that are reconciled alone. -/
def Inventory.alone (inv : Inventory) (size : ℕ) (targets : List Target) : List (Entry × State) :=
  DeviceEnsure.alone nb c 0 (BulkReconcile.batches (max 1 size)
    (toCreate inv.devices (entries nb c inv.devices targets))) inv.start

/-- The devices that the payloads match may be patched for them, and so may those of their name that
are found where a bulk POST has failed. -/
structure Inventory.AdoptsOwn (inv : Inventory) (size : ℕ) (targets : List Target) : Prop where
  matched : ∀ e ∈ entries nb c inv.devices targets, ∀ d, e.matched inv.devices = some d →
    Permitted e.target d ∨ (patchPayload c e.desired d).isEmpty = true
  found : ∀ f ∈ inv.alone nb c size targets, ∀ d,
    findExisting f.1.desired f.2.devices = some d →
      (∀ t ∈ targets, (entryOf nb c inv.devices t).key = f.1.key →
        ∃ d₀ ∈ inv.devices, Permitted t d₀) ∧
      ((patchPayload c f.1.desired d).isEmpty = true ∨
        ∀ d₀ ∈ inv.devices, d₀.id = d.id → Permitted f.1.target d₀)

section Selection

variable {records : List Device} {t : Target} {d : Device}

theorem mem_orderedDeviceCandidates : d ∈ orderedDeviceCandidates records ↔ d ∈ records := by
  rw [orderedDeviceCandidates, List.mem_append, List.mem_filter, List.mem_filter]
  cases d.proxbox <;> simp

/-- The device that is selected may be adopted. -/
theorem permitted_of_select (ht : t.Placed) (hnames : ∀ d ∈ records, d.name = some t.name)
    (h : selectExistingDeviceForTarget records t = some d) : d ∈ records ∧ Permitted t d := by
  have hplaced : (t.desiredSite.isNone && t.cluster.isNone) = false := by
    rw [Bool.and_eq_false_iff, Option.isNone_eq_false_iff, Option.isNone_eq_false_iff]
    exact ht
  unfold selectExistingDeviceForTarget at h
  simp only [hplaced, Bool.false_eq_true, if_false, Option.or_eq_some_iff] at h
  have hmem : ∀ p : Device → Bool, (orderedDeviceCandidates records).find? p = some d →
      d ∈ records ∧ p d = true := fun p h =>
    ⟨mem_orderedDeviceCandidates.mp (List.mem_of_find?_eq_some h), List.find?_some h⟩
  rcases h with (hsite | ⟨_, hcluster⟩) | ⟨_, htag⟩
  · obtain ⟨site, hdesired, hfind⟩ := Option.bind_eq_some_iff.mp hsite
    obtain ⟨hd, hp⟩ := hmem _ hfind
    refine ⟨hd, hnames d hd, .inl ?_⟩
    rw [hdesired, of_decide_eq_true hp]
  · obtain ⟨cluster, hdesired, hfind⟩ := Option.bind_eq_some_iff.mp hcluster
    obtain ⟨hd, hp⟩ := hmem _ hfind
    refine ⟨hd, hnames d hd, .inr (.inl ?_)⟩
    rw [hdesired, of_decide_eq_true hp]
    exact ⟨rfl, rfl⟩
  · obtain ⟨hd, hp⟩ := hmem _ htag
    exact ⟨hd, hnames d hd, .inr (.inr hp)⟩

/-- Where a device may be adopted, one is selected. -/
theorem select_isSome (hd : d ∈ records) (h : Permitted t d) :
    (selectExistingDeviceForTarget records t).isSome = true := by
  have hfind : ∀ p : Device → Bool, p d = true →
      ((orderedDeviceCandidates records).find? p).isSome = true := by
    intro p hp
    rw [List.find?_isSome]
    exact ⟨d, mem_orderedDeviceCandidates.mpr hd, hp⟩
  unfold selectExistingDeviceForTarget
  obtain ⟨_, hsite | ⟨hgiven, hcluster⟩ | htag⟩ := h
  · have hfound := hfind (fun d' => d'.site = d.site) (by simp)
    simp [hsite, hfound]
  · obtain ⟨cluster, heq⟩ := Option.isSome_iff_exists.mp hgiven
    have hfound := hfind (fun d' => d'.cluster = some cluster) (by simp [hcluster, heq])
    simp [heq, hfound]
  · have hfound := hfind Device.proxbox htag
    have hhead : (orderedDeviceCandidates records).head?.isSome = true := by
      rw [List.isSome_head?]
      exact List.ne_nil_of_mem (mem_orderedDeviceCandidates.mpr hd)
    simp only [Option.isSome_or]
    split <;> simp [hfound, hhead]

theorem select_eq_none_iff (ht : t.Placed) (hnames : ∀ d ∈ records, d.name = some t.name) :
    selectExistingDeviceForTarget records t = none ↔ ∀ d ∈ records, ¬Permitted t d := by
  constructor
  · intro h d hd hpermitted
    have hsome := select_isSome hd hpermitted
    rw [h] at hsome
    contradiction
  · intro h
    cases hselect : selectExistingDeviceForTarget records t with
    | none => rfl
    | some d =>
      obtain ⟨hd, hpermitted⟩ := permitted_of_select ht hnames hselect
      exact absurd hpermitted (h d hd)

end Selection

section Writes

variable {nb c py} {t : Target} {d : Device} {s : State} {w : Target × Write}

theorem create_writes {desired : Desired} {s' : State} (h : create nb desired s = some (d, s')) :
    s'.writes = s.writes := by
  unfold create at h
  split at h
  · simp at h
  · dsimp only at h
    split at h
    · simp only [Option.some.injEq, Prod.mk.injEq] at h
      rw [← h.2]
    · simp at h

theorem change_writes {d' : Device} {p : Patch} {s' : State}
    (h : change nb d p s = some (d', s')) : s'.writes = s.writes := by
  unfold change at h
  split at h
  · simp at h
  · dsimp only at h
    split at h
    · simp only [Option.some.injEq, Prod.mk.injEq] at h
      rw [← h.2]
    · simp at h

theorem sent_writes {attempt : Option (Device × State)}
    (h : ∀ d s', attempt = some (d, s') → s'.writes = s.writes) :
    (sent attempt s).2.writes = s.writes := by
  cases attempt with
  | none => rfl
  | some result => exact h result.1 result.2 rfl

theorem post_writes {desired : Desired} :
    (post nb t desired s).2.writes = s.writes ++ [(t, .post desired)] :=
  sent_writes fun _ _ => create_writes

theorem save_writes {p : Patch} :
    (save nb t d p s).2.writes = s.writes ++ [(t, .patch d p)] :=
  sent_writes fun _ _ => change_writes

/-- What `rest_reconcile_async` writes. -/
def writesAlone (c : Settings) (t : Target) (desired : Desired) (s : State) :
    List (Target × Write) :=
  match findExisting desired s.devices with
  | none => [(t, .post desired)]
  | some d =>
    if (patchPayload c desired d).isEmpty then [] else [(t, .patch d (patchPayload c desired d))]

theorem reconcile_writes {desired : Desired} :
    (reconcile nb c t desired s).2.writes = s.writes ++ writesAlone c t desired s := by
  unfold reconcile writesAlone
  cases findExisting desired s.devices with
  | none => exact post_writes
  | some d =>
    dsimp only
    split
    · exact (List.append_nil _).symm
    · exact save_writes

theorem findExisting_mem {desired : Desired} {devices : List Device}
    (h : findExisting desired devices = some d) :
    d ∈ devices ∧ d.name = some desired.name := by
  unfold findExisting at h
  have hmem : d ∈ devices.filter fun d => d.name = some desired.name := by
    rcases Option.or_eq_some_iff.mp h with hsite | ⟨_, hname⟩
    · obtain ⟨site, _, hfind⟩ := Option.bind_eq_some_iff.mp hsite
      exact List.mem_of_find?_eq_some hfind
    · exact List.mem_of_head? hname
  simpa using hmem

theorem findExisting_eq_none_iff {desired : Desired} {devices : List Device} :
    findExisting desired devices = none ↔ ∀ d ∈ devices, d.name ≠ some desired.name := by
  constructor
  · intro h d hd hname
    rw [findExisting, Option.or_eq_none_iff, List.head?_eq_none_iff, List.filter_eq_nil_iff] at h
    exact h.2 d hd (by simpa using hname)
  · intro h
    cases hfind : findExisting desired devices with
    | none => rfl
    | some d => exact absurd (findExisting_mem hfind).2 (h d (findExisting_mem hfind).1)

end Writes

section Single

variable {nb c py} {inv : Inventory} {t : Target}

/-- The devices that are listed for the name. -/
def Inventory.named (inv : Inventory) (t : Target) : List Device :=
  inv.devices.filter fun d => d.name = some t.name

theorem Inventory.mem_named {d : Device} :
    d ∈ inv.named t ↔ d ∈ inv.devices ∧ d.name = some t.name := by
  simp [Inventory.named]

theorem Inventory.eq_of_id {d d₀ : Device} (hd : d ∈ inv.devices) (hd₀ : d₀ ∈ inv.devices)
    (h : d₀.id = d.id) : d₀ = d :=
  List.inj_on_of_nodup_map inv.ids hd₀ hd h

theorem Inventory.exists_permitted_iff :
    (∃ d ∈ inv.named t, Permitted t d) ↔ ∃ d ∈ inv.devices, Permitted t d := by
  constructor
  · rintro ⟨d, hd, h⟩
    exact ⟨d, (inv.mem_named.mp hd).1, h⟩
  · rintro ⟨d, hd, h⟩
    exact ⟨d, inv.mem_named.mpr ⟨hd, h.1⟩, h⟩

variable (c py) in
/-- Without a device that may be adopted, `_ensure_device` leaves it to the lookups. -/
theorem ensureDevice_of_none (ht : t.Placed) (hlisting : nb.listingFails t.name = false)
    (hnone : ¬∃ d ∈ inv.devices, Permitted t d) : ∃ desired : Desired,
      desired.name = t.name ∧ desired.site = t.desiredSite ∧
        ensureDevice nb c py t inv.start = reconcile nb c t desired inv.start := by
  have hselect : selectExistingDeviceForTarget (inv.named t) t = none := by
    rw [select_eq_none_iff ht fun d hd => (inv.mem_named.mp hd).2]
    intro d hd hpermitted
    exact hnone (inv.exists_permitted_iff.mp ⟨d, hd, hpermitted⟩)
  refine ⟨devicePayload c t t.desiredSite
    (c.tagRefs ++ if nb.hasDiscoveryTag then [discoveryTagRef] else []), rfl, rfl, ?_⟩
  unfold ensureDevice
  rw [hlisting, if_neg (by simp)]
  have hselect' : selectExistingDeviceForTarget
    (inv.start.devices.filter fun d => d.name = some t.name) t = none := hselect
  rw [hselect']

/-- With one, no other device is patched. -/
theorem ensureDevice_of_permitted (ht : t.Placed)
    (hsome : ∃ d ∈ inv.devices, Permitted t d) :
    NeverAdopts inv [t] (ensureDevice nb c py t inv.start).2 := by
  refine ⟨?_, by simpa using .inl hsome⟩
  intro t' d p hwrite d₀ hd₀ hid
  unfold ensureDevice at hwrite
  cases hlisting : nb.listingFails t.name with
  | true => simp [hlisting, Inventory.start] at hwrite
  | false =>
    rw [hlisting, if_neg (by simp)] at hwrite
    obtain ⟨d', hd', hpermitted'⟩ := inv.exists_permitted_iff.mpr hsome
    obtain ⟨e, he⟩ := Option.isSome_iff_exists.mp (select_isSome hd' hpermitted')
    obtain ⟨hmem, hpermitted⟩ := permitted_of_select ht (fun d hd => (inv.mem_named.mp hd).2) he
    have he' : selectExistingDeviceForTarget
      (inv.start.devices.filter fun d => d.name = some t.name) t = some e := he
    rw [he'] at hwrite
    dsimp only at hwrite
    split at hwrite
    · simp [Inventory.start] at hwrite
    · rw [save_writes] at hwrite
      simp only [Inventory.start, List.nil_append, List.mem_singleton, Prod.mk.injEq,
        Write.patch.injEq] at hwrite
      obtain ⟨rfl, rfl, _⟩ := hwrite
      rw [inv.eq_of_id (inv.mem_named.mp hmem).1 hd₀ hid]
      exact hpermitted

/-- `_ensure_device` adopts no foreign device if and only if there is one that it may adopt, or the
listing works and shows none of the name. -/
theorem ensureDevice_neverAdopts_iff (ht : t.Placed) :
    NeverAdopts inv [t] (ensureDevice nb c py t inv.start).2 ↔
      (∃ d ∈ inv.devices, Permitted t d) ∨
        (nb.listingFails t.name = false ∧ ∀ d ∈ inv.devices, d.name ≠ some t.name) := by
  by_cases hsome : ∃ d ∈ inv.devices, Permitted t d
  · exact iff_of_true (ensureDevice_of_permitted ht hsome) (.inl hsome)
  rw [or_iff_right hsome]
  constructor
  · intro h
    have hpost := h.created t (List.mem_singleton_self t)
    rw [or_iff_right hsome] at hpost
    obtain ⟨t', desired, hwrite, _⟩ := hpost
    cases hlisting : nb.listingFails t.name with
    | true => simp [ensureDevice, hlisting, Inventory.start] at hwrite
    | false =>
      refine ⟨rfl, ?_⟩
      obtain ⟨desired', hname, _, heq⟩ := ensureDevice_of_none c py ht hlisting hsome
      rw [heq, reconcile_writes, writesAlone] at hwrite
      cases hfind : findExisting desired' inv.start.devices with
      | none =>
        rw [← hname]
        exact findExisting_eq_none_iff.mp hfind
      | some d =>
        rw [hfind] at hwrite
        dsimp only at hwrite
        split at hwrite <;> simp [Inventory.start] at hwrite
  · rintro ⟨hlisting, hnames⟩
    obtain ⟨desired, hname, hsite, heq⟩ := ensureDevice_of_none c py ht hlisting hsome
    have hfind : findExisting desired inv.start.devices = none := by
      rw [findExisting_eq_none_iff, hname]
      exact hnames
    have hwrites : (ensureDevice nb c py t inv.start).2.writes = [(t, .post desired)] := by
      rw [heq, reconcile_writes, writesAlone, hfind]
      rfl
    refine ⟨?_, ?_⟩
    · intro t' d p hwrite
      simp [hwrites] at hwrite
    · intro t' ht'
      rw [List.mem_singleton.mp ht']
      exact .inr ⟨t, desired, by simp [hwrites], hname, hsite⟩

end Single

section Bulk

variable {nb c} {s : State} {w : Target × Write}

def Entry.postWrite (e : Entry) : Target × Write := (e.target, .post e.desired)

def Update.patchWrite (u : Update) : Target × Write := (u.target, .patch u.device u.changes)

theorem createAll_writes {es : List Entry} {ds : List Device} {s' : State}
    (h : createAll nb es s = some (ds, s')) : s'.writes = s.writes ++ es.map Entry.postWrite := by
  induction es generalizing s ds with
  | nil =>
    simp only [createAll, Option.some.injEq, Prod.mk.injEq] at h
    simp [← h.2]
  | cons e es ih =>
    obtain ⟨⟨d, s₁⟩, hcreate, h⟩ := Option.bind_eq_some_iff.mp h
    obtain ⟨⟨ds', s₂⟩, hrest, h⟩ := Option.bind_eq_some_iff.mp h
    simp only [Option.some.injEq, Prod.mk.injEq] at h
    obtain ⟨_, rfl⟩ := h
    have hfirst : s₁.writes = s.writes ++ [e.postWrite] := create_writes hcreate
    rw [ih hrest, hfirst, List.map_cons, List.append_assoc]
    rfl

theorem bulkCreate_writes {i : ℕ} {batch : List Entry} {first : List Device × State}
    (h : bulkCreate nb i batch s = some first) :
    first.2.writes = s.writes ++ batch.map Entry.postWrite := by
  unfold bulkCreate at h
  split at h
  · simp at h
  · exact createAll_writes h

theorem createItems_writes {es : List Entry} : (createItems nb c es s).2.writes =
    s.writes ++ (itemsAlone nb c es s).flatMap fun f => writesAlone c f.1.target f.1.desired f.2 := by
  induction es generalizing s with
  | nil => simp [createItems, itemsAlone]
  | cons e es ih =>
    rw [createItems, itemsAlone, List.flatMap_cons]
    dsimp only
    rw [ih, reconcile_writes, List.append_assoc]

/-- The payloads of bulk POSTs are posted; the others are written alone. -/
theorem mem_createBatches_writes {i : ℕ} {batches : List (List Entry)} :
    w ∈ (createBatches nb c i batches s).2.writes ↔ w ∈ s.writes ∨
      (∃ e ∈ inBulk nb c i batches s, w = e.postWrite) ∨
        ∃ f ∈ alone nb c i batches s, w ∈ writesAlone c f.1.target f.1.desired f.2 := by
  induction batches generalizing i s with
  | nil => simp [createBatches, inBulk, alone]
  | cons batch batches ih =>
    rw [createBatches, inBulk, alone]
    dsimp only
    rw [ih]
    cases hbulk : bulkCreate nb i batch s with
    | some first =>
      rw [Option.getD_some, bulkCreate_writes hbulk]
      simp only [List.mem_append, List.mem_map, or_and_right, exists_or, eq_comm (a := w), or_assoc]
    | none =>
      rw [Option.getD_none, createItems_writes]
      simp only [List.mem_append, List.mem_flatMap, or_and_right, exists_or, or_assoc]
      exact or_congr_right or_left_comm

theorem itemsAlone_map (es : List Entry) (s : State) : (itemsAlone nb c es s).map (·.1) = es := by
  induction es generalizing s with
  | nil => rfl
  | cons e es ih => rw [itemsAlone, List.map_cons, ih]

variable (nb c) in
/-- Each payload goes one of the two ways, once. -/
theorem inBulk_append_alone (i : ℕ) (batches : List (List Entry)) (s : State) :
    (inBulk nb c i batches s ++ (alone nb c i batches s).map (·.1)).Perm batches.flatten := by
  induction batches generalizing i s with
  | nil => rfl
  | cons batch batches ih =>
    rw [inBulk, alone, List.flatten_cons]
    cases bulkCreate nb i batch s with
    | some first =>
      dsimp only
      rw [List.append_assoc]
      exact (ih (i + 1) first.2).append_left batch
    | none =>
      dsimp only
      rw [List.map_append, itemsAlone_map, ← List.append_assoc]
      refine (List.perm_append_comm.append_right _).trans ?_
      rw [List.append_assoc]
      exact (ih (i + 1) (createItems nb c batch s).2).append_left batch

theorem changeAll_writes {us : List Update} {ds : List Device} {s' : State}
    (h : changeAll nb us s = some (ds, s')) : s'.writes = s.writes := by
  induction us generalizing s ds with
  | nil =>
    simp only [changeAll, Option.some.injEq, Prod.mk.injEq] at h
    rw [← h.2]
  | cons u us ih =>
    obtain ⟨⟨d, s₁⟩, hchange, h⟩ := Option.bind_eq_some_iff.mp h
    obtain ⟨⟨ds', s₂⟩, hrest, h⟩ := Option.bind_eq_some_iff.mp h
    simp only [Option.some.injEq, Prod.mk.injEq] at h
    obtain ⟨_, rfl⟩ := h
    rw [ih hrest, change_writes hchange]

theorem changeItems_writes {us : List Update} :
    (changeItems nb us s).2.writes = s.writes ++ us.map Update.patchWrite := by
  induction us generalizing s with
  | nil => simp [changeItems]
  | cons u us ih =>
    rw [changeItems]
    dsimp only
    rw [ih, save_writes, List.map_cons, List.append_assoc]
    rfl

theorem mem_patchBatches_writes {i : ℕ} {batches : List (List Update)} :
    w ∈ (patchBatches nb i batches s).2.writes ↔
      w ∈ s.writes ∨ ∃ u ∈ batches.flatten, w = u.patchWrite := by
  induction batches generalizing i s with
  | nil => simp [patchBatches]
  | cons batch batches ih =>
    have hlogged : (s.logPatches batch).writes = s.writes ++ batch.map Update.patchWrite := rfl
    rw [patchBatches]
    dsimp only
    rw [ih]
    cases hbulk : bulkPatch nb i batch (s.logPatches batch) with
    | some first =>
      have hfirst : first.2.writes = (s.logPatches batch).writes := by
        unfold bulkPatch at hbulk
        split at hbulk
        · simp at hbulk
        · exact changeAll_writes hbulk
      rw [Option.getD_some, hfirst, hlogged]
      simp only [List.flatten_cons, List.mem_append, List.mem_map, or_and_right, exists_or,
        eq_comm (a := w), or_assoc]
    | none =>
      rw [Option.getD_none, changeItems_writes, hlogged]
      simp only [List.flatten_cons, List.mem_append, List.mem_map, or_and_right, exists_or,
        eq_comm (a := w), or_assoc, or_self_left]

theorem firstOfKeys_subset {seen : List (String × Option ℕ)} {es : List Entry} {e : Entry}
    (h : e ∈ firstOfKeys seen es) : e ∈ es ∧ e.key ∉ seen := by
  induction es generalizing seen with
  | nil => simp [firstOfKeys] at h
  | cons e' es ih =>
    rw [firstOfKeys] at h
    split at h
    · obtain ⟨hmem, hseen⟩ := ih h
      exact ⟨List.mem_cons_of_mem _ hmem, hseen⟩
    · rename_i hnew
      rcases List.mem_cons.mp h with rfl | h
      · exact ⟨List.mem_cons_self .., hnew⟩
      · obtain ⟨hmem, hseen⟩ := ih h
        exact ⟨List.mem_cons_of_mem _ hmem, fun hin => hseen (List.mem_cons_of_mem _ hin)⟩

theorem firstOfKeys_nodup (seen : List (String × Option ℕ)) (es : List Entry) :
    ((firstOfKeys seen es).map Entry.key).Nodup := by
  induction es generalizing seen with
  | nil => exact List.nodup_nil
  | cons e es ih =>
    rw [firstOfKeys]
    split
    · exact ih seen
    · rw [List.map_cons, List.nodup_cons]
      refine ⟨?_, ih _⟩
      intro hin
      obtain ⟨e', he', heq⟩ := List.mem_map.mp hin
      exact (firstOfKeys_subset he').2 (heq ▸ List.mem_cons_self ..)

theorem exists_firstOfKeys (seen : List (String × Option ℕ)) {es : List Entry} {e : Entry}
    (h : e ∈ es) (hseen : e.key ∉ seen) : ∃ e' ∈ firstOfKeys seen es, e'.key = e.key := by
  induction es generalizing seen with
  | nil => simp at h
  | cons e₀ es ih =>
    rw [firstOfKeys]
    by_cases heq : e₀.key = e.key
    · rw [if_neg (heq ▸ hseen)]
      exact ⟨e₀, List.mem_cons_self .., heq⟩
    · have hmem : e ∈ es := by
        rcases List.mem_cons.mp h with rfl | hmem
        · exact absurd rfl heq
        · exact hmem
      split
      · exact ih seen hmem hseen
      · obtain ⟨e', he', hkey⟩ := ih (e₀.key :: seen) hmem
          (by rw [List.mem_cons, not_or]; exact ⟨Ne.symm heq, hseen⟩)
        exact ⟨e', List.mem_cons_of_mem _ he', hkey⟩

variable {inv : Inventory} {targets : List Target} {t : Target} {e : Entry} {d : Device} {size : ℕ}

theorem mem_of_matched {devices : List Device} (h : e.matched devices = some d) :
    d ∈ devices ∧ d.name = some e.desired.name ∧ some d.site = e.desired.site := by
  have hmem : d ∈ devices.filter fun d =>
      d.name = some e.desired.name && some d.site = e.desired.site := by
    rcases Option.or_eq_some_iff.mp h with htag | ⟨_, hhead⟩
    · exact (List.mem_filter.mp (List.mem_of_head? htag)).1
    · exact List.mem_of_head? hhead
  simpa using hmem

variable (nb) in
/-- A payload of a node without a device that it may adopt is for its site. -/
theorem siteOf_of_none (ht : t.Placed) (hnone : ¬∃ d ∈ inv.devices, Permitted t d) :
    siteOf nb inv.devices t = t.desiredSite := by
  unfold siteOf
  dsimp only
  have hselect : selectExistingDeviceForTarget (if nb.listingFails t.name then []
      else inv.devices.filter fun d => d.name = some t.name) t = none := by
    split
    · rw [select_eq_none_iff ht (by simp)]
      simp
    · have hnamed : selectExistingDeviceForTarget (inv.named t) t = none := by
        rw [select_eq_none_iff ht fun d hd => (inv.mem_named.mp hd).2]
        intro d hd hpermitted
        exact hnone (inv.exists_permitted_iff.mp ⟨d, hd, hpermitted⟩)
      exact hnamed
  rw [hselect]
  rfl

/-- A payload for a node is matched only with a device if the node may adopt one. -/
theorem exists_permitted_of_matched (ht : t.Placed)
    (hkey : e.key = (entryOf nb c inv.devices t).key) (h : e.matched inv.devices = some d) :
    ∃ d ∈ inv.devices, Permitted t d := by
  by_contra hnone
  obtain ⟨hd, hname, hsite⟩ := mem_of_matched h
  have hkeys := Prod.mk.inj hkey
  refine hnone ⟨d, hd, hname.trans (congrArg some hkeys.1), .inl ?_⟩
  rw [hsite, ← siteOf_of_none nb ht hnone]
  exact hkeys.2.symm

theorem mem_toPatch {u : Update} : u ∈ toPatch c inv.devices (entries nb c inv.devices targets) ↔
    ∃ e ∈ entries nb c inv.devices targets, ∃ d, e.matched inv.devices = some d ∧
      u = ⟨e.target, d, patchPayload c e.desired d⟩ ∧
        (patchPayload c e.desired d).isEmpty = false := by
  rw [toPatch, List.mem_filter, List.mem_filterMap]
  constructor
  · rintro ⟨⟨e, he, hu⟩, hpatch⟩
    obtain ⟨d, hd, rfl⟩ := Option.map_eq_some_iff.mp hu
    exact ⟨e, he, d, hd, rfl, by simpa using hpatch⟩
  · rintro ⟨e, he, d, hd, rfl, hpatch⟩
    refine ⟨⟨e, he, ?_⟩, by simpa using hpatch⟩
    rw [Entry.update, hd]
    rfl

/-- The writes of the devices phase. -/
theorem mem_ensureDevicesBulk_writes :
    w ∈ (ensureDevicesBulk nb c size targets inv.start).2.writes ↔
      (∃ e ∈ inBulk nb c 0 (BulkReconcile.batches (max 1 size)
        (toCreate inv.devices (entries nb c inv.devices targets))) inv.start, w = e.postWrite) ∨
      (∃ f ∈ inv.alone nb c size targets, w ∈ writesAlone c f.1.target f.1.desired f.2) ∨
        ∃ u ∈ toPatch c inv.devices (entries nb c inv.devices targets), w = u.patchWrite := by
  unfold ensureDevicesBulk
  dsimp only
  rw [mem_patchBatches_writes, mem_createBatches_writes,
    BulkReconcile.batches_flatten (by omega)]
  simp only [Inventory.start, List.not_mem_nil, false_or, or_assoc]
  rfl

theorem mem_writesAlone_post {desired desired' : Desired} {t' : Target} :
    (t', Write.post desired') ∈ writesAlone c t desired s ↔
      findExisting desired s.devices = none ∧ t' = t ∧ desired' = desired := by
  unfold writesAlone
  cases findExisting desired s.devices with
  | none => simp
  | some d =>
    dsimp only
    split <;> simp

theorem mem_writesAlone_patch {desired : Desired} {t' : Target} {p : Patch} :
    (t', Write.patch d p) ∈ writesAlone c t desired s ↔
      findExisting desired s.devices = some d ∧ (patchPayload c desired d).isEmpty = false ∧
        t' = t ∧ p = patchPayload c desired d := by
  unfold writesAlone
  cases findExisting desired s.devices with
  | none => simp
  | some d' =>
    dsimp only
    split
    · rename_i hempty
      simp only [List.not_mem_nil, Option.some.injEq, false_iff, not_and]
      rintro rfl hpatch
      rw [hempty] at hpatch
      contradiction
    · simp only [List.mem_singleton, Prod.mk.injEq, Write.patch.injEq, Option.some.injEq]
      constructor
      · rintro ⟨rfl, rfl, rfl⟩
        simp_all
      · rintro ⟨rfl, _, rfl, rfl⟩
        exact ⟨rfl, rfl, rfl⟩

theorem matched_of_neverAdopts
    (h : NeverAdopts inv targets (ensureDevicesBulk nb c size targets inv.start).2) :
    ∀ e ∈ entries nb c inv.devices targets, ∀ d, e.matched inv.devices = some d →
      Permitted e.target d ∨ (patchPayload c e.desired d).isEmpty = true := by
  intro e he d hd
  by_cases hpatch : (patchPayload c e.desired d).isEmpty = true
  · exact .inr hpatch
  · refine .inl (h.patched e.target d (patchPayload c e.desired d) ?_ d (mem_of_matched hd).1 rfl)
    rw [mem_ensureDevicesBulk_writes]
    exact .inr (.inr ⟨_, mem_toPatch.mpr ⟨e, he, d, hd, rfl, by simpa using hpatch⟩, rfl⟩)

variable (nb c inv targets size) in
theorem keys_nodup : ((inBulk nb c 0 (BulkReconcile.batches (max 1 size)
    (toCreate inv.devices (entries nb c inv.devices targets))) inv.start ++
      (inv.alone nb c size targets).map (·.1)).map Entry.key).Nodup := by
  have hperm := inBulk_append_alone nb c 0 (BulkReconcile.batches (max 1 size)
    (toCreate inv.devices (entries nb c inv.devices targets))) inv.start
  rw [BulkReconcile.batches_flatten (by omega)] at hperm
  refine ((hperm.map Entry.key).nodup_iff).mpr ?_
  exact ((List.filter_sublist).map Entry.key).nodup (firstOfKeys_nodup [] _)

theorem found_of_neverAdopts (htargets : ∀ t ∈ targets, t.Placed)
    (h : NeverAdopts inv targets (ensureDevicesBulk nb c size targets inv.start).2) :
    ∀ f ∈ inv.alone nb c size targets, ∀ d, findExisting f.1.desired f.2.devices = some d →
      (∀ t ∈ targets, (entryOf nb c inv.devices t).key = f.1.key →
        ∃ d₀ ∈ inv.devices, Permitted t d₀) ∧
      ((patchPayload c f.1.desired d).isEmpty = true ∨
        ∀ d₀ ∈ inv.devices, d₀.id = d.id → Permitted f.1.target d₀) := by
  intro f hf d hd
  constructor
  · intro t ht hkey
    by_contra hnone
    have hpost := h.created t ht
    rw [or_iff_right hnone] at hpost
    obtain ⟨t', desired, hwrite, hname, hsite⟩ := hpost
    -- a POST with the key of this payload could only be its own
    have hpair : (desired.name, desired.site) = f.1.key := by
      rw [← hkey, hname, hsite, ← siteOf_of_none nb (htargets t ht) hnone]
      rfl
    have hnodup := keys_nodup nb c inv targets size
    rw [List.map_append, List.map_map, List.nodup_append] at hnodup
    obtain ⟨_, halone, hdisjoint⟩ := hnodup
    rw [mem_ensureDevicesBulk_writes] at hwrite
    rcases hwrite with ⟨e, he, heq⟩ | ⟨f', hf', hmem⟩ | ⟨u, _, heq⟩
    · simp only [Entry.postWrite, Prod.mk.injEq, Write.post.injEq] at heq
      refine hdisjoint _ (List.mem_map_of_mem he) _ (List.mem_map_of_mem hf) ?_
      rw [Function.comp_apply, ← hpair, heq.2]
      rfl
    · obtain ⟨hnotfound, _, hdesired⟩ := mem_writesAlone_post.mp hmem
      have hsame : f' = f := by
        refine List.inj_on_of_nodup_map halone hf' hf ?_
        rw [Function.comp_apply, Function.comp_apply, ← hpair, hdesired]
        rfl
      rw [hsame, hd] at hnotfound
      contradiction
    · simp [Update.patchWrite] at heq
  · by_cases hpatch : (patchPayload c f.1.desired d).isEmpty = true
    · exact .inl hpatch
    · refine .inr (h.patched f.1.target d (patchPayload c f.1.desired d) ?_)
      rw [mem_ensureDevicesBulk_writes]
      exact .inr (.inl ⟨f, hf, mem_writesAlone_patch.mpr ⟨hd, by simpa using hpatch, rfl, rfl⟩⟩)

theorem neverAdopts_of_own (htargets : ∀ t ∈ targets, t.Placed)
    (h : inv.AdoptsOwn nb c size targets) :
    NeverAdopts inv targets (ensureDevicesBulk nb c size targets inv.start).2 := by
  constructor
  · intro t d p hwrite d₀ hd₀ hid
    rw [mem_ensureDevicesBulk_writes] at hwrite
    rcases hwrite with ⟨e, _, heq⟩ | ⟨f, hf, hmem⟩ | ⟨u, hu, heq⟩
    · simp [Entry.postWrite] at heq
    · obtain ⟨hfound, hpatch, rfl, _⟩ := mem_writesAlone_patch.mp hmem
      rcases (h.found f hf d hfound).2 with hempty | hpermitted
      · rw [hempty] at hpatch
        contradiction
      · exact hpermitted d₀ hd₀ hid
    · obtain ⟨e, he, d', hd', rfl, hpatch⟩ := mem_toPatch.mp hu
      simp only [Update.patchWrite, Prod.mk.injEq, Write.patch.injEq] at heq
      obtain ⟨rfl, rfl, _⟩ := heq
      rw [inv.eq_of_id (mem_of_matched hd').1 hd₀ hid]
      rcases h.matched e he d hd' with hpermitted | hempty
      · exact hpermitted
      · rw [hempty] at hpatch
        contradiction
  · intro t ht
    by_cases hsome : ∃ d₀ ∈ inv.devices, Permitted t d₀
    · exact .inl hsome
    refine .inr ?_
    obtain ⟨e, he, hkey⟩ := exists_firstOfKeys []
      (List.mem_map_of_mem ht (f := entryOf nb c inv.devices)) (by simp)
    have hkeys := Prod.mk.inj hkey
    have hsite : e.desired.site = t.desiredSite :=
      hkeys.2.trans (siteOf_of_none nb (htargets t ht) hsome)
    have hcreate : e ∈ toCreate inv.devices (entries nb c inv.devices targets) := by
      rw [toCreate, List.mem_filter]
      refine ⟨he, ?_⟩
      rw [Option.isNone_iff_eq_none, Option.eq_none_iff_forall_not_mem]
      intro d hd
      exact hsome (exists_permitted_of_matched (htargets t ht) hkey hd)
    have hway := (inBulk_append_alone nb c 0 (BulkReconcile.batches (max 1 size)
      (toCreate inv.devices (entries nb c inv.devices targets))) inv.start).mem_iff (a := e)
    rw [BulkReconcile.batches_flatten (by omega), List.mem_append, List.mem_map] at hway
    refine ⟨e.target, e.desired, ?_, hkeys.1, hsite⟩
    rw [mem_ensureDevicesBulk_writes]
    rcases hway.mpr hcreate with hbulk | ⟨f, hf, rfl⟩
    · exact .inl ⟨e, hbulk, rfl⟩
    · refine .inr (.inl ⟨f, hf, ?_⟩)
      rw [mem_writesAlone_post]
      refine ⟨?_, rfl, rfl⟩
      rw [Option.eq_none_iff_forall_not_mem]
      intro d hd
      exact hsome ((h.found f hf d hd).1 t ht hkey.symm)

/-- The devices phase adopts no foreign device if and only if the records that the payloads match
are their own, and so are those found after a failed bulk POST. -/
theorem ensureDevicesBulk_neverAdopts_iff (htargets : ∀ t ∈ targets, t.Placed) :
    NeverAdopts inv targets (ensureDevicesBulk nb c size targets inv.start).2 ↔
      inv.AdoptsOwn nb c size targets :=
  ⟨fun h => ⟨matched_of_neverAdopts h, found_of_neverAdopts htargets h⟩,
    neverAdopts_of_own htargets⟩

end Bulk

/-- When no foreign device is adopted: by `_ensure_device`, and by the devices phase. -/
theorem neverAdopts_iff (inv : Inventory) :
    (∀ t : Target, t.Placed → (NeverAdopts inv [t] (ensureDevice nb c py t inv.start).2 ↔
      (∃ d ∈ inv.devices, Permitted t d) ∨
        (nb.listingFails t.name = false ∧ ∀ d ∈ inv.devices, d.name ≠ some t.name))) ∧
    ∀ (size : ℕ) (targets : List Target), (∀ t ∈ targets, t.Placed) →
      (NeverAdopts inv targets (ensureDevicesBulk nb c size targets inv.start).2 ↔
        inv.AdoptsOwn nb c size targets) :=
  ⟨fun _ ht => ensureDevice_neverAdopts_iff ht,
    fun _ _ htargets => ensureDevicesBulk_neverAdopts_iff htargets⟩

section Foreign

def Settings.sample : Settings where
  deviceType := some 1
  role := some 1
  tagRefs := [⟨some "Proxbox", "proxbox", some "ff5722", by decide⟩]
  overwriteDeviceRole := true
  overwriteDeviceType := true
  overwriteDeviceTags := true
  overwriteFlags := none
  customFieldsEnabled := false
  lastUpdated := ""

/-- A NetBox that accepts every device. -/
def NetBox.sample : NetBox where
  accepts _ _ := true
  listingFails _ := false
  bulkCreateFails _ := false
  bulkPatchFails _ := false
  hasDiscoveryTag := false

/-- A device of another site, without the tag. -/
def foreignDevice : Device where
  id := 7
  name := some "pve1"
  status := "active"
  cluster := none
  deviceType := some 4
  role := some 4
  site := 9
  description := "rack switch"
  tags := []
  customFields := []

def Inventory.sample : Inventory where
  devices := [foreignDevice]
  next := 8
  ids := by decide
  fresh := by decide

/-- The equivalences at a node whose name a device of another site has: the bulk sync creates a new
device, `_ensure_device` takes the other one. -/
theorem neverAdopts_iff_foreign :
    ¬NeverAdopts Inventory.sample [⟨"pve1", some 5, some 3⟩]
      (ensureDevice NetBox.sample Settings.sample Python.ascii ⟨"pve1", some 5, some 3⟩
        Inventory.sample.start).2 ∧
    NeverAdopts Inventory.sample [⟨"pve1", some 5, some 3⟩]
      (ensureDevicesBulk NetBox.sample Settings.sample 50 [⟨"pve1", some 5, some 3⟩]
        Inventory.sample.start).2 := by
  constructor
  · rw [(neverAdopts_iff NetBox.sample Settings.sample Python.ascii Inventory.sample).1
      ⟨"pve1", some 5, some 3⟩ (.inl rfl)]
    simp [Inventory.sample, foreignDevice, Permitted, Device.proxbox, Device.hasTag]
  · rw [(neverAdopts_iff NetBox.sample Settings.sample Python.ascii Inventory.sample).2 50
      [⟨"pve1", some 5, some 3⟩] (by simp [Target.Placed])]
    have hmatched : (entries NetBox.sample Settings.sample Inventory.sample.devices
        [⟨"pve1", some 5, some 3⟩]).all
          (fun e => (e.matched Inventory.sample.devices).isNone) = true := by decide +kernel
    have halone : (Inventory.sample.alone NetBox.sample Settings.sample 50
        [⟨"pve1", some 5, some 3⟩]).isEmpty = true := by decide +kernel
    constructor
    · intro e he d hd
      have hnone := List.all_eq_true.mp hmatched e he
      simp [hd] at hnone
    · intro f hf
      rw [List.isEmpty_iff.mp halone] at hf
      simp at hf

/-- A device of another site that only shares the name of the node is patched for it. -/
theorem foreign_device_patched : ∃ p, (⟨"pve1", some 5, some 3⟩, Write.patch foreignDevice p) ∈
    (ensureDevice NetBox.sample Settings.sample Python.ascii ⟨"pve1", some 5, some 3⟩
      Inventory.sample.start).2.writes ∧
    ¬Permitted ⟨"pve1", some 5, some 3⟩ foreignDevice := by
  refine ⟨patchPayload Settings.sample (devicePayload Settings.sample ⟨"pve1", some 5, some 3⟩
    (some 5) Settings.sample.tagRefs) foreignDevice, ?_, ?_⟩
  · have hwrites : (ensureDevice NetBox.sample Settings.sample Python.ascii
        ⟨"pve1", some 5, some 3⟩ Inventory.sample.start).2.writes =
          [(⟨"pve1", some 5, some 3⟩, Write.patch foreignDevice (patchPayload Settings.sample
            (devicePayload Settings.sample ⟨"pve1", some 5, some 3⟩ (some 5)
              Settings.sample.tagRefs) foreignDevice))] := rfl
    rw [hwrites]
    exact List.mem_singleton_self _
  · simp [Permitted, foreignDevice, Device.proxbox, Device.hasTag]

end Foreign

end ProxboxApi.DeviceEnsure
