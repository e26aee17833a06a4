import ProxboxApi.SyncStateReader
import ProxboxApi.VmIdentity

/-! The hydration of the VM snapshot: the identity of a sidecar row is laid over the record of its
VM before the names are resolved and the queue is built. -/

namespace ProxboxApi.VmQueue

open SyncState

variable (py : Python)

/-- A VM of NetBox: its record, and what the services read off it. -/
structure StoredVm where
  record : Record
  id : ℤ
  name : String
  cluster : Option ℤ
  id_eq : field "id" record = .int id
  id_pos : 0 < id
  name_eq : field "name" record = .str name
  name_ne : name ≠ ""
  cluster_eq : relationId py (field "cluster" record) = some cluster
  cfEndpoint_eq : field "cf_proxmox_endpoint_id" record = .null
  endpoint_eq : field "proxmox_endpoint_id" record = .null

/-- A row of the VM sync state, with the name and the type of the guest it was written for. -/
structure SyncStateRow extends SidecarRow where
  proxmoxVmType : Option String
  proxmoxVmName : Json

/-- The VMs of NetBox and the rows of the sync state. -/
structure Inventory where
  vms : List (StoredVm py)
  rows : List SyncStateRow
  sidecarInstalled : Bool
  distinct : (vms.map (·.id)).Nodup
  installed : sidecarInstalled = false → rows = []

variable {py}

/-- The identity custom fields of a VM, as NetBox filters them. -/
def StoredVm.identity (vm : StoredVm py) : VirtualMachine where
  id := vm.id
  cluster := vm.cluster
  cfProxmoxVmId := storedVmid py vm.record
  cfProxmoxEndpointId := (customFields vm.record).bind fun fields =>
    normalizePositiveInt py (field "proxmox_endpoint_id" fields)

def Inventory.netBox (inv : Inventory py) : NetBox where
  vms := inv.vms.map (·.identity)
  rows := inv.rows.map (·.toSidecarRow)
  sidecarInstalled := inv.sidecarInstalled
  distinct := by simpa [List.map_map, Function.comp_def, StoredVm.identity] using inv.distinct
  installed h := by simp [inv.installed h]

/-- `_load_netbox_virtual_machine_snapshot`. -/
def Inventory.snapshot (inv : Inventory py) : List Record := inv.vms.map (·.record)

def Inventory.find (inv : Inventory py) (id : ℤ) : Option (StoredVm py) :=
  inv.vms.find? (·.id = id)

theorem normalizePositiveInt_pos {value : Json} {n : ℤ}
    (h : normalizePositiveInt py value = some n) : 0 < n := by
  unfold normalizePositiveInt at h
  split at h
  · contradiction
  · simpa using (Option.filter_eq_some_iff.mp h).2

theorem endpointId_pos {record : Record} {e : ℤ}
    (h : extractProxmoxEndpointId py record = some e) : 0 < e := by
  simp only [extractProxmoxEndpointId, Option.or_eq_some_iff] at h
  rcases h with (h | ⟨-, h⟩) | ⟨-, h⟩
  · exact normalizePositiveInt_pos h
  · exact normalizePositiveInt_pos h
  · cases hfields : customFields record with
    | none => simp [hfields] at h
    | some fields =>
      rw [hfields, Option.or_eq_some_iff] at h
      rcases h with h | ⟨-, h⟩
      · exact normalizePositiveInt_pos h
      · exact normalizePositiveInt_pos h

/-- A guest of a NetBox cluster, prepared. -/
structure Guest where
  prepared : PreparedVMState
  clusterId : ℤ
  vmid : ℤ
  vmid_pos : 0 < vmid
  cluster_eq : field "cluster" prepared.desiredPayload = .int clusterId
  vmid_eq : field "vmid" prepared.resource = .int vmid

/-- `_vm_identity_lookup`. -/
def vmIdentityLookup (vmid : ℤ) (endpointId clusterId : Option ℤ) : LegacyQuery where
  cfProxmoxVmId := some vmid
  cfProxmoxEndpointId := endpointId
  clusterId := if endpointId.isSome then none else clusterId

/-- No read fails. -/
def noFailures : Failures := ⟨false, false, fun _ => false, false⟩

/-- `resolve_virtual_machine_by_sync_state` for a payload, with the legacy query where the custom
fields are enabled, over reads that succeed. -/
def resolvePayload (inv : Inventory py) (legacyEnabled : Bool) (payload : Json.Fields) (vmid : ℤ)
    (clusterId lookupClusterId : Option ℤ) : Option Resolution :=
  if 0 < vmid then
    let endpointId := extractProxmoxEndpointId py payload
    let identity : Identity :=
      { proxmoxVmId := vmid
        endpointId := endpointId
        clusterId := clusterId
        fallbackQuery :=
          if legacyEnabled then some (vmIdentityLookup vmid endpointId lookupClusterId) else none
        endpoint_pos := fun _ h => endpointId_pos h }
    (resolveVirtualMachineBySyncState inv.netBox noFailures legacyEnabled false identity).join
  else none

variable (py)

/-- `_prepared_proxmox_vmid`; the outer `none` is an exception. -/
def preparedProxmoxVmid (p : PreparedVMState) : Option (Option ℤ) :=
  (relationId py (field "vmid" p.resource)).map (·.filter (0 < ·))

/-- The type that the sidecar writes name: `str(vm_type or "").strip().lower()`. -/
def sidecarVmType (p : PreparedVMState) : String := py.lower (Text.strip p.vmType)

/-- `_overlay_sidecar_identity_on_vm_snapshot`. -/
def overlaySidecarIdentity (p : PreparedVMState) (proxmoxVmid : ℤ) (endpointId : Option ℤ)
    (record : Record) : Record :=
  let merged := Dict.set "proxmox_vm_id" (.int proxmoxVmid) ((customFields record).getD [])
  let merged := match endpointId with
    | some e => Dict.set "proxmox_endpoint_id" (.int e) merged
    | none => merged
  let vmType := sidecarVmType py p
  let merged := if vmType = "qemu" ∨ vmType = "lxc" then
    Dict.set "proxmox_vm_type" (.str vmType) merged else merged
  Dict.set "custom_fields" (.obj merged) record

/-- The record has the id; the ids of a snapshot are distinct. -/
def hasId (id : ℤ) (record : Record) : Bool :=
  relationId py (field "id" record) = some (some id)

/-- The record as the snapshot has it now: the indexes hold the records themselves, so that they see
an overlay. -/
def current (snapshot : List Record) (record : Record) : Record :=
  match relationId py (field "id" record) with
  | some (some id) => (snapshot.find? (hasId py id)).getD record
  | _ => record

/-- The indexes select a record, whose type is read off it as it is now. -/
def ScopeIndex.selects (snapshot : List Record) (index : ScopeIndex) (scopeId vmid : ℤ)
    (vmType : Option String) : Bool :=
  match vmType, (Dict.get (scopeId, vmid) index.untyped).getD [] with
  | some t, [record] => (Dict.get (scopeId, vmid, t) index.typed).isSome ||
      extractProxmoxVmType py (current py snapshot record) = none
  | some t, _ => (Dict.get (scopeId, vmid, t) index.typed).isSome
  | none, [_] => true
  | none, _ => false

/-- `_select_existing_vm_record(...) is not None`, by indexes that were built before the records of
the snapshot were overlaid. -/
def selectsExisting (snapshot : List Record) (indexes : Indexes) (p : PreparedVMState)
    (endpointId clusterId : Option ℤ) (vmid : ℤ) : Bool :=
  let vmType := normalizeProxmoxVmType py (.str p.vmType)
  match endpointId, clusterId with
  | some endpointId, _ => indexes.endpoint.selects py snapshot endpointId vmid vmType
  | none, some clusterId => indexes.cluster.selects py snapshot clusterId vmid vmType
  | none, none => false

/-- The snapshot, the keys that were resolved and the number of records hydrated so far. -/
structure HydrationState where
  snapshot : List Record
  resolvedKeys : List (Option ℤ × ℤ × String)
  hydrated : ℕ

/-- The overlay of the record that the resolver found, which the snapshot may lack. -/
def HydrationState.overlay (s : HydrationState) (p : PreparedVMState) (vmid : ℤ)
    (endpointId : Option ℤ) (id : ℤ) (found : Record) : HydrationState :=
  let snapshot := if s.snapshot.any (hasId py id) then s.snapshot else s.snapshot ++ [found]
  { s with
    snapshot := snapshot.map fun record =>
      if hasId py id record then overlaySidecarIdentity py p vmid endpointId record else record
    hydrated := s.hydrated + 1 }

variable {py} (inv : Inventory py) (legacyEnabled : Bool)

/-- One turn of the loop of `_hydrate_vm_snapshot_with_sidecar_identity`; `none` is an exception. -/
def hydrateOne (indexes : Indexes) (s : HydrationState) (p : PreparedVMState) :
    Option HydrationState := do
  match ← preparedProxmoxVmid py p with
  | none => some s
  | some vmid =>
    let endpointId := extractProxmoxEndpointId py p.desiredPayload
    let clusterId ← relationId py (field "cluster" p.desiredPayload)
    let key := (endpointId, vmid, sidecarVmType py p)
    if selectsExisting py s.snapshot indexes p endpointId clusterId vmid then some s
    else if key ∈ s.resolvedKeys then some s
    else
      let s := { s with resolvedKeys := key :: s.resolvedKeys }
      match resolvePayload inv legacyEnabled p.desiredPayload vmid clusterId clusterId with
      | some ⟨_, id, .sidecar⟩ => match inv.find id with
        | some vm => some (s.overlay py p vmid endpointId id vm.record)
        | none => some s
      | _ => some s

/-- `_hydrate_vm_snapshot_with_sidecar_identity`: the snapshot after it and the number it
returns. -/
def hydrateVmSnapshotWithSidecarIdentity (snapshot : List Record)
    (prepared : List PreparedVMState) : Option (List Record × ℕ) :=
  if prepared.isEmpty then some (snapshot, 0)
  else do
    let indexes ← buildVmSnapshotIdentityIndexes py snapshot
    let s ← prepared.foldlM (hydrateOne inv legacyEnabled indexes) ⟨snapshot, [], 0⟩
    some (s.snapshot, s.hydrated)

/-- The records differ in their custom fields only. -/
def SameFields (record record' : Record) : Prop :=
  ∀ name, name ≠ "custom_fields" → field name record' = field name record

theorem sameFields_overlay {p : PreparedVMState} {vmid : ℤ} {endpointId : Option ℤ}
    {record : Record} : SameFields record (overlaySidecarIdentity py p vmid endpointId record) := by
  intro name hname
  simp only [field, overlaySidecarIdentity, Dict.get_set, if_neg (Ne.symm hname)]

theorem sameFields_refl (record : Record) : SameFields record record := fun _ _ => rfl

theorem SameFields.trans {record record' record'' : Record} (h : SameFields record record')
    (h' : SameFields record' record'') : SameFields record record'' :=
  fun name hname => (h' name hname).trans (h name hname)

theorem SameFields.hasId_eq {record record' : Record} (h : SameFields record record') (id : ℤ) :
    hasId py id record' = hasId py id record := by
  unfold hasId
  rw [h "id" (by decide)]

theorem StoredVm.hasId_iff (vm : StoredVm py) {id : ℤ} : hasId py id vm.record = true ↔ vm.id = id := by
  simp [hasId, vm.id_eq, relationId, relationCandidate]

variable {inv} {legacyEnabled}

theorem Inventory.find_eq_some_iff {id : ℤ} {vm : StoredVm py} :
    inv.find id = some vm ↔ vm ∈ inv.vms ∧ vm.id = id := by
  unfold Inventory.find
  constructor
  · intro h
    exact ⟨List.mem_of_find?_eq_some h, by simpa using List.find?_some h⟩
  · rintro ⟨hmem, rfl⟩
    cases hfind : inv.vms.find? (·.id = vm.id) with
    | none =>
      rw [List.find?_eq_none] at hfind
      exact absurd (decide_eq_true rfl) (hfind vm hmem)
    | some vm' =>
      have hid : vm'.id = vm.id := by simpa using List.find?_some hfind
      rw [List.inj_on_of_nodup_map inv.distinct (List.mem_of_find?_eq_some hfind) hmem hid]

/-- The snapshot is that of NetBox, up to custom fields. -/
def OfInventory (inv : Inventory py) (snapshot : List Record) : Prop :=
  List.Forall₂ SameFields inv.snapshot snapshot

theorem ofInventory_snapshot (inv : Inventory py) : OfInventory inv inv.snapshot :=
  List.forall₂_same.mpr fun record _ => sameFields_refl record

theorem exists_left {α β : Type} {R : α → β → Prop} {xs : List α} {ys : List β}
    (h : List.Forall₂ R xs ys) {y : β} (hy : y ∈ ys) : ∃ x ∈ xs, R x y := by
  induction h with
  | nil => simp at hy
  | cons hxy hrest ih =>
    rcases List.mem_cons.mp hy with rfl | hy
    · exact ⟨_, List.mem_cons_self, hxy⟩
    · obtain ⟨x, hx, hxy⟩ := ih hy
      exact ⟨x, List.mem_cons_of_mem _ hx, hxy⟩

theorem OfInventory.mem {snapshot : List Record} (h : OfInventory inv snapshot) {record : Record}
    (hmem : record ∈ snapshot) : ∃ vm ∈ inv.vms, SameFields vm.record record := by
  obtain ⟨stored, hstored, hsame⟩ := exists_left h hmem
  obtain ⟨vm, hvm, rfl⟩ := List.mem_map.mp hstored
  exact ⟨vm, hvm, hsame⟩

theorem OfInventory.any_hasId {snapshot : List Record} (h : OfInventory inv snapshot)
    {vm : StoredVm py} (hvm : vm ∈ inv.vms) : snapshot.any (hasId py vm.id) = true := by
  have hstored : vm.record ∈ inv.snapshot := List.mem_map_of_mem hvm
  obtain ⟨record, hmem, hsame⟩ := exists_left h.flip hstored
  have hsame : SameFields vm.record record := hsame
  refine List.any_eq_true.mpr ⟨record, hmem, ?_⟩
  rw [hsame.hasId_eq]
  exact vm.hasId_iff.mpr rfl

/-- What an overlay of a VM of NetBox makes of the snapshot: its record is in it. -/
theorem overlay_snapshot {s : HydrationState} (h : OfInventory inv s.snapshot) {vm : StoredVm py}
    (hvm : vm ∈ inv.vms) {p : PreparedVMState} {vmid : ℤ} {endpointId : Option ℤ} :
    (s.overlay py p vmid endpointId vm.id vm.record).snapshot = s.snapshot.map fun record =>
      if hasId py vm.id record then overlaySidecarIdentity py p vmid endpointId record
      else record := by
  unfold HydrationState.overlay
  rw [if_pos (h.any_hasId hvm)]

theorem OfInventory.overlay {s : HydrationState} (h : OfInventory inv s.snapshot) {vm : StoredVm py}
    (hvm : vm ∈ inv.vms) {p : PreparedVMState} {vmid : ℤ} {endpointId : Option ℤ} :
    OfInventory inv (s.overlay py p vmid endpointId vm.id vm.record).snapshot := by
  rw [overlay_snapshot h hvm]
  unfold OfInventory at h ⊢
  rw [List.forall₂_map_right_iff]
  refine h.imp fun record record' hsame => ?_
  split_ifs
  · exact hsame.trans sameFields_overlay
  · exact hsame

/-- What a turn does to the snapshot: nothing, or the overlay of the VM that the resolver found. -/
theorem hydrateOne_snapshot {indexes : Indexes} {s s' : HydrationState} {p : PreparedVMState}
    (h : hydrateOne inv legacyEnabled indexes s p = some s') : s'.snapshot = s.snapshot ∨
      ∃ vm ∈ inv.vms, ∃ vmid endpointId,
        s'.snapshot = (s.overlay py p vmid endpointId vm.id vm.record).snapshot := by
  unfold hydrateOne at h
  obtain ⟨vmid, hvmid, h⟩ := Option.bind_eq_some_iff.mp h
  cases vmid with
  | none =>
    obtain rfl := Option.some.inj h
    exact Or.inl rfl
  | some vmid =>
    obtain ⟨clusterId, hcluster, h⟩ := Option.bind_eq_some_iff.mp h
    dsimp only at h
    split_ifs at h
    · obtain rfl := Option.some.inj h
      exact Or.inl rfl
    · obtain rfl := Option.some.inj h
      exact Or.inl rfl
    · split at h
      · split at h
        · rename_i vm hfind
          obtain ⟨hmem, rfl⟩ := Inventory.find_eq_some_iff.mp hfind
          obtain rfl := Option.some.inj h
          exact Or.inr ⟨vm, hmem, vmid, _, rfl⟩
        · obtain rfl := Option.some.inj h
          exact Or.inl rfl
      · obtain rfl := Option.some.inj h
        exact Or.inl rfl

theorem OfInventory.foldlM {indexes : Indexes} {prepared : List PreparedVMState}
    {s s' : HydrationState} (hs : OfInventory inv s.snapshot)
    (h : prepared.foldlM (hydrateOne inv legacyEnabled indexes) s = some s') :
    OfInventory inv s'.snapshot := by
  induction prepared generalizing s with
  | nil =>
    obtain rfl : s = s' := by simpa using h
    exact hs
  | cons p prepared ih =>
    rw [List.foldlM_cons] at h
    obtain ⟨mid, hstep, hrest⟩ := Option.bind_eq_some_iff.mp h
    refine ih ?_ hrest
    rcases hydrateOne_snapshot hstep with heq | ⟨vm, hvm, vmid, endpointId, heq⟩
    · exact heq ▸ hs
    · exact heq ▸ hs.overlay hvm

/-- The hydrated snapshot is that of NetBox, up to custom fields. -/
theorem hydrate_ofInventory {snapshot : List Record} {hydrated : ℕ}
    {prepared : List PreparedVMState}
    (h : hydrateVmSnapshotWithSidecarIdentity inv legacyEnabled inv.snapshot prepared =
      some (snapshot, hydrated)) : OfInventory inv snapshot := by
  unfold hydrateVmSnapshotWithSidecarIdentity at h
  split_ifs at h
  · cases h
    exact ofInventory_snapshot inv
  · obtain ⟨indexes, -, h⟩ := Option.bind_eq_some_iff.mp h
    obtain ⟨s, hrun, h⟩ := Option.bind_eq_some_iff.mp h
    cases h
    exact (ofInventory_snapshot inv).foldlM hrun

end ProxboxApi.VmQueue
