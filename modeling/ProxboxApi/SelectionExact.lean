import ProxboxApi.Outcomes
import ProxboxApi.VmSelection

/-! What the explicit selection returns: one live guest for each requested id, and nothing else. -/

namespace ProxboxApi.VmSelection

open ProxboxApi.VmQueue (Record field relationId normalizePositiveInt extractProxmoxEndpointId
  sortedSet)
open ProxboxApi.Vmid

variable (py : Python)

/-- Every session that a cluster alias is seen with has this endpoint id, and one is. -/
structure OwnedBy (pxs : List SessionFields) (clusterStatus : List Json) (name : String)
    (endpointId : ℤ) : Prop where
  some : ∃ (i : ℕ) (s : SessionFields), pxs[i]? = .some s ∧
    name ∈ aliases py s (clusterStatus[i]?.getD .null)
  sole : ∀ (i : ℕ) (s : SessionFields), pxs[i]? = .some s →
    name ∈ aliases py s (clusterStatus[i]?.getD .null) →
      extractProxmoxSessionEndpointId py s = .some endpointId

/-- What NetBox records of the guest of a VM; a name of no cluster is empty. -/
structure RecordedIdentity where
  vmid : Option ℤ
  vmType : Option String
  clusterName : String
  endpointId : Option ℤ

/-- The positive number that a vmid is. -/
def positiveVmid (vmid : Option String) : Option ℤ :=
  vmid.bind fun s => normalizePositiveInt py (.str s)

/-- What the record of the VM says itself. -/
def ownIdentity (vm : Record) : RecordedIdentity where
  vmid := positiveVmid py (extractProxmoxVmid py vm)
  vmType := extractProxmoxVmType py vm
  clusterName :=
    normalizeClusterName py (((relationName py (field "cluster" vm)).map .str).getD .null)
  endpointId := extractProxmoxEndpointId py vm

/-- The first of the keys at the top of a record that can be read. NetBox keeps the identity of a
VM among its custom fields, so there is none. -/
def atTop {α : Type} (read : Json → Option α) (keys : List String) (vm : Record) : Option α :=
  keys.findSome? fun key => read (field key vm)

/-- What the sidecar row of a VM says: its vmid, its type, its cluster and its endpoint, the first
two and the last after those at the top of the record of the VM. -/
def rowIdentity (vm row : Record) : RecordedIdentity where
  vmid := positiveVmid py ((atTop (normalizeVmid py)
    ["cf_proxmox_vm_id", "proxmox_vm_id", "cf_proxmox_vmid", "proxmox_vmid"] vm).or
      (extractProxmoxVmid py row))
  vmType := (atTop (guestType py) ["cf_proxmox_vm_type", "proxmox_vm_type"] vm).or
    (extractProxmoxVmType py row)
  clusterName := normalizeClusterName py (sidecarCluster py row)
  endpointId := (atTop (normalizePositiveInt py)
    ["cf_proxmox_endpoint_id", "proxmox_endpoint_id"] vm).or
      (normalizePositiveInt py (field "proxmox_endpoint_raw_id" row))

/-- What is recorded of a selected VM: what its only sidecar row says, or the VM itself where it has
no row that could be read. -/
inductive Records (sources : Sources) (id : ℤ) (vm : Record) : RecordedIdentity → Prop where
  | sidecar (rows : List Record) (row : Record) : sources.scan = .rows rows →
    rows.filter (fun r => relationId py (field "virtual_machine" r) = some (some id)) = [row] →
    Records sources id vm (rowIdentity py vm row)
  | legacy : sources.legacyFallbackAllowed = true →
    (∀ rows, sources.scan = .rows rows → ∀ r ∈ rows,
      relationId py (field "virtual_machine" r) ≠ some (some id)) →
    Records sources id vm (ownIdentity py vm)

/-- The live resource under a cluster key is the guest that is recorded, in a cluster that one
known endpoint owns, which is the recorded one if one is. -/
structure LiveGuest (sources : Sources) (recorded : RecordedIdentity) (endpointId : ℤ)
    (entry : String × Json.Fields) : Prop where
  kind : recorded.vmType = some "qemu" ∨ recorded.vmType = some "lxc"
  vmType : recorded.vmType = some (py.lower (Text.strip (py.str (field "type" entry.2))))
  vmid : ∃ vmid, recorded.vmid = some vmid ∧
    normalizePositiveInt py (field "vmid" entry.2) = some vmid
  cluster : normalizeClusterName py (.str entry.1) = recorded.clusterName
  named : recorded.clusterName ≠ ""
  owned : OwnedBy py sources.pxs sources.clusterStatus recorded.clusterName endpointId
  stored : ∀ id, recorded.endpointId = some id → id = endpointId

/-- The resources, each with its cluster key. -/
def entriesOf (resources : List (String × List Json.Fields)) : List (String × Json.Fields) :=
  resources.flatMap fun (key, items) => items.map (key, ·)

/-- A requested id, and the live guest of the VM with this id. -/
def Selected (sources : Sources) (vms : List Record) (id : ℤ)
    (entry : String × Json.Fields) : Prop :=
  ∃ vm ∈ vms, relationId py (field "id" vm) = some (some id) ∧
    ∃ recorded endpointId, Records py sources id vm recorded ∧
      LiveGuest py sources recorded endpointId entry

/-- The result holds one live guest for each requested id, taken from the live resources, and
nothing else. -/
def ExactSelection (sources : Sources) (vms : List Record) (requested : List ℤ)
    (clusterResources : List Json) (result : List (String × List Json.Fields)) : Prop :=
  (entriesOf result).Sublist (entriesOf (liveResources clusterResources)) ∧
    ∃ ids, ids.Perm requested ∧
      List.Forall₂ (Selected py sources vms) ids (entriesOf result)

/-- The distinct ids that are requested. -/
def DistinctIds (netboxVmIds : List Json) (requested : List ℤ) : Prop :=
  requested.Nodup ∧ ∀ id, id ∈ requested ↔
    ∃ rawId ∈ netboxVmIds, normalizePositiveInt py rawId = some id

theorem requestedIds_ok {netboxVmIds : List Json} {requested : List ℤ}
    (h : requestedIds py netboxVmIds = .ok requested) : DistinctIds py netboxVmIds requested := by
  have hstart : DistinctIds py [] [] := ⟨List.nodup_nil, by simp⟩
  rw [← List.nil_append netboxVmIds]
  refine Outcomes.foldlM_invariant (DistinctIds py) ?_ hstart h
  rintro done rawId ids ids' ⟨hnodup, hmem⟩ hstep
  split at hstep <;> cases hstep
  rename_i vmId hvmId
  split
  · refine ⟨hnodup, ?_⟩
    intro id
    rw [hmem]
    constructor
    · rintro ⟨raw, hraw, hid⟩
      exact ⟨raw, List.mem_append_left _ hraw, hid⟩
    · rintro ⟨raw, hraw, hid⟩
      rcases List.mem_append.mp hraw with hraw | hraw
      · exact ⟨raw, hraw, hid⟩
      · rw [List.mem_singleton.mp hraw, hvmId] at hid
        cases hid
        exact (hmem vmId).mp ‹_›
  · refine ⟨List.nodup_append.mpr ⟨hnodup, by simp, ?_⟩, ?_⟩
    · intro a ha b hb heq
      rw [List.mem_singleton.mp hb] at heq
      exact absurd (heq ▸ ha) ‹_›
    · intro id
      rw [List.mem_append, hmem, List.mem_singleton]
      constructor
      · rintro (⟨raw, hraw, hid⟩ | rfl)
        · exact ⟨raw, List.mem_append_left _ hraw, hid⟩
        · exact ⟨rawId, by simp, hvmId⟩
      · rintro ⟨raw, hraw, hid⟩
        rcases List.mem_append.mp hraw with hraw | hraw
        · exact Or.inl ⟨raw, hraw, hid⟩
        · rw [List.mem_singleton.mp hraw, hvmId] at hid
          cases hid
          exact Or.inr rfl

/-- The owners of an alias after its session has been seen. -/
theorem mem_addOwner {index : EndpointIdsByCluster} {names : List String} {name : String}
    {owner : Option ℤ} {e : Option ℤ} :
    e ∈ (Dict.get name (names.foldl (addOwner owner) index)).getD [] ↔
      e ∈ (Dict.get name index).getD [] ∨ (name ∈ names ∧ e = owner) := by
  induction names generalizing index with
  | nil => simp
  | cons first names ih =>
    have hfirst : e ∈ (Dict.get name (addOwner owner index first)).getD [] ↔
        e ∈ (Dict.get name index).getD [] ∨ (name = first ∧ e = owner) := by
      unfold addOwner
      rw [Dict.get_set]
      by_cases hname : first = name
      · subst hname
        by_cases howner : owner ∈ (Dict.get first index).getD []
        · simp only [if_pos howner, if_true, Option.getD_some, true_and]
          constructor
          · exact Or.inl
          · rintro (h | rfl)
            · exact h
            · exact howner
        · simp [howner]
      · simp [hname, Ne.symm hname]
    rw [List.foldl_cons, ih, hfirst, List.mem_cons]
    tauto

theorem mem_indexSources {index : EndpointIdsByCluster} {pxs : List SessionFields}
    {clusterStatus : List Json} {name : String} {e : Option ℤ} :
    e ∈ (Dict.get name (indexSources py index pxs clusterStatus)).getD [] ↔
      e ∈ (Dict.get name index).getD [] ∨ ∃ (i : ℕ) (s : SessionFields), pxs[i]? = some s ∧
        name ∈ aliases py s (clusterStatus[i]?.getD .null) ∧
          e = extractProxmoxSessionEndpointId py s := by
  induction pxs generalizing index clusterStatus with
  | nil => simp [indexSources]
  | cons px pxs ih =>
    rw [indexSources, ih, mem_addOwner]
    have htail : ∀ i, clusterStatus.tail[i]? = clusterStatus[i + 1]? := by
      intro i
      simp
    constructor
    · rintro ((h | ⟨hname, rfl⟩) | ⟨i, s, hs, hname, rfl⟩)
      · exact Or.inl h
      · exact Or.inr ⟨0, px, rfl, by simpa [List.head?_eq_getElem?] using hname, rfl⟩
      · exact Or.inr ⟨i + 1, s, hs, by rwa [← htail], rfl⟩
    · rintro (h | ⟨i, s, hs, hname, rfl⟩)
      · exact Or.inl (Or.inl h)
      · cases i with
        | zero =>
          cases hs
          exact Or.inl (Or.inr ⟨by simpa [List.head?_eq_getElem?] using hname, rfl⟩)
        | succ i => exact Or.inr ⟨i, s, hs, by rwa [htail], rfl⟩

theorem ownedBy_of_owners {pxs : List SessionFields} {clusterStatus : List Json} {name : String}
    {endpointId : ℤ}
    (h : (Dict.get name (sourceEndpointIdsByCluster py pxs clusterStatus)).getD [] =
      [some endpointId]) : OwnedBy py pxs clusterStatus name endpointId := by
  have hmem : ∀ e, e = some endpointId ↔ ∃ (i : ℕ) (s : SessionFields), pxs[i]? = some s ∧
      name ∈ aliases py s (clusterStatus[i]?.getD .null) ∧
        e = extractProxmoxSessionEndpointId py s := by
    intro e
    rw [← List.mem_singleton, ← h, sourceEndpointIdsByCluster, mem_indexSources]
    simp [Dict.get]
  refine ⟨?_, ?_⟩
  · obtain ⟨i, s, hs, hname, -⟩ := (hmem _).mp rfl
    exact ⟨i, s, hs, hname⟩
  · intro i s hs hname
    exact (hmem _).mpr ⟨i, s, hs, hname, rfl⟩

theorem ofRelation_ok {x : Option (Option ℤ)} {o : Option ℤ} :
    ofRelation x = .ok o ↔ x = some o := by
  cases x with
  | none => simp [ofRelation]
  | some y => simp [ofRelation]

theorem withIds_ok {name : String} {records : List Record} {pairs : List (Option ℤ × Record)} :
    withIds py name records = .ok pairs ↔ List.Forall₂ (fun r pair =>
      pair.2 = r ∧ relationId py (field name r) = some pair.1) records pairs := by
  unfold withIds
  rw [Outcomes.mapM_eq_ok_iff]
  have hpair : ∀ (r : Record) (pair : Option ℤ × Record),
      (do .ok (← ofRelation (relationId py (field name r)), r) : Except Failure _) = .ok pair ↔
        pair.2 = r ∧ relationId py (field name r) = some pair.1 := by
    intro r pair
    rw [Outcomes.bind_eq_ok_iff]
    constructor
    · rintro ⟨o, ho, heq⟩
      cases heq
      exact ⟨rfl, ofRelation_ok.mp ho⟩
    · rintro ⟨rfl, ho⟩
      exact ⟨pair.1, ofRelation_ok.mpr ho, rfl⟩
  simp only [hpair]

theorem mem_of_withIds {name : String} {records : List Record}
    {pairs : List (Option ℤ × Record)} (h : withIds py name records = .ok pairs)
    {o : Option ℤ} {r : Record} (hmem : (o, r) ∈ pairs) :
    r ∈ records ∧ relationId py (field name r) = some o := by
  have hall := (withIds_ok py).mp h
  clear h
  induction hall with
  | nil => simp at hmem
  | cons hhead _ ih =>
    rcases List.mem_cons.mp hmem with rfl | hmem
    · obtain ⟨rfl, ho⟩ := hhead
      exact ⟨List.mem_cons_self .., ho⟩
    · obtain ⟨hr, ho⟩ := ih hmem
      exact ⟨List.mem_cons_of_mem _ hr, ho⟩

theorem mem_withIds {name : String} {records : List Record}
    {pairs : List (Option ℤ × Record)} (h : withIds py name records = .ok pairs)
    {o : Option ℤ} {r : Record} (hmem : r ∈ records)
    (ho : relationId py (field name r) = some o) : (o, r) ∈ pairs := by
  have hall := (withIds_ok py).mp h
  clear h
  induction hall with
  | nil => simp at hmem
  | @cons first pair _ _ hhead _ ih =>
    rcases List.mem_cons.mp hmem with rfl | hmem
    · obtain ⟨rfl, ho'⟩ := hhead
      rw [ho, Option.some.injEq] at ho'
      rw [ho']
      exact List.mem_cons_self ..
    · exact List.mem_cons_of_mem _ (ih hmem)

theorem sidecarsByVmId_eq {name : String} {rows : List Record}
    {pairs : List (Option ℤ × Record)} (h : withIds py name rows = .ok pairs) (id : ℤ) :
    sidecarsByVmId pairs id =
      rows.filter fun r => relationId py (field name r) = some (some id) := by
  have hall := (withIds_ok py).mp h
  clear h
  unfold sidecarsByVmId
  induction hall with
  | nil => rfl
  | cons hhead _ ih =>
    obtain ⟨rfl, ho⟩ := hhead
    rw [List.filter_cons, List.filter_cons, ho]
    split <;> simp_all

section Overlay

variable {py} {vm row vm' : Record} {id : ℤ}

/-- What the overlay does: it writes the row's endpoint, vmid and type into the custom fields, and
the row's cluster name. -/
theorem overlay_ok (h : overlaySelectedSidecarIdentity py vm row id = .ok vm') :
    ∃ endpointId vmid vmType clusterId,
      normalizePositiveInt py (field "proxmox_endpoint_raw_id" row) = some endpointId ∧
      positiveVmid py (extractProxmoxVmid py row) = some vmid ∧
      extractProxmoxVmType py row = some vmType ∧
      selectedSidecarClusterName py row ≠ "" ∧
      vm' = Dict.set "cluster" (.obj (((clusterId : Option ℤ).map fun id =>
          [("id", Json.int id)]).getD [] ++ [("name", .str (overlaidClusterName py row))]))
        (Dict.set "custom_fields" (.obj (Dict.update ((VmQueue.customFields vm).getD [])
          [("proxmox_endpoint_id", .int endpointId), ("proxmox_vm_id", .int vmid),
            ("proxmox_vm_type", .str vmType)])) vm) := by
  unfold overlaySelectedSidecarIdentity at h
  dsimp only at h
  split at h
  · rename_i endpointId vmid vmType hendpointId hvmid hvmType
    split at h
    · contradiction
    · rename_i hcluster
      obtain ⟨clusterId, -, heq⟩ := Outcomes.bind_eq_ok_iff.mp h
      exact ⟨endpointId, vmid, vmType, clusterId, hendpointId, hvmid, hvmType, hcluster,
        (Except.ok.inj heq).symm⟩
  · contradiction

/-- The overlay leaves the other fields of the record. -/
theorem field_of_overlay (h : overlaySelectedSidecarIdentity py vm row id = .ok vm')
    {name : String} (hcluster : "cluster" ≠ name) (hcustom : "custom_fields" ≠ name) :
    field name vm' = field name vm := by
  obtain ⟨endpointId, vmid, vmType, clusterId, -, -, -, -, rfl⟩ := overlay_ok h
  unfold field
  rw [Dict.get_set_of_ne hcluster, Dict.get_set_of_ne hcustom]

theorem atTop_of_overlay {α : Type} {read : Json → Option α}
    (h : overlaySelectedSidecarIdentity py vm row id = .ok vm') {keys : List String}
    (hkeys : "cluster" ∉ keys ∧ "custom_fields" ∉ keys) :
    atTop read keys vm' = atTop read keys vm := by
  unfold atTop
  induction keys with
  | nil => rfl
  | cons key keys ih =>
    simp only [List.mem_cons, not_or] at hkeys
    rw [List.findSome?_cons, List.findSome?_cons, ih ⟨hkeys.1.2, hkeys.2.2⟩,
      field_of_overlay h hkeys.1.1 hkeys.2.1]

/-- The custom fields and the cluster that the overlay writes. -/
theorem written_of_overlay (h : overlaySelectedSidecarIdentity py vm row id = .ok vm') :
    ∃ endpointId vmid vmType fields cluster,
      normalizePositiveInt py (field "proxmox_endpoint_raw_id" row) = some endpointId ∧
      positiveVmid py (extractProxmoxVmid py row) = some vmid ∧
      extractProxmoxVmType py row = some vmType ∧
      VmQueue.customFields vm' = some fields ∧
      field "proxmox_endpoint_id" fields = .int endpointId ∧
      field "proxmox_vm_id" fields = .int vmid ∧ field "proxmox_vm_type" fields = .str vmType ∧
      field "cluster" vm' = .obj cluster ∧
      field "name" cluster = .str (overlaidClusterName py row) := by
  obtain ⟨endpointId, vmid, vmType, clusterId, hendpointId, hvmid, hvmType, -, rfl⟩ := overlay_ok h
  have hnodup : (Dict.keys [("proxmox_endpoint_id", Json.int endpointId),
      ("proxmox_vm_id", .int vmid), ("proxmox_vm_type", .str vmType)]).Nodup := by
    change ["proxmox_endpoint_id", "proxmox_vm_id", "proxmox_vm_type"].Nodup
    decide
  refine ⟨endpointId, vmid, vmType, Dict.update ((VmQueue.customFields vm).getD [])
      [("proxmox_endpoint_id", Json.int endpointId), ("proxmox_vm_id", .int vmid),
        ("proxmox_vm_type", .str vmType)],
    (clusterId.map fun id => [("id", Json.int id)]).getD [] ++
      [("name", .str (overlaidClusterName py row))],
    hendpointId, hvmid, hvmType, ?_, ?_, ?_, ?_, ?_, ?_⟩
  · unfold VmQueue.customFields field
    rw [Dict.get_set_of_ne (by decide), Dict.get_set_self]
    rfl
  · unfold field
    rw [Dict.get_update hnodup]
    rfl
  · unfold field
    rw [Dict.get_update hnodup]
    rfl
  · unfold field
    rw [Dict.get_update hnodup]
    rfl
  · unfold field
    rw [Dict.get_set_self]
    rfl
  · cases clusterId <;> rfl

theorem positive_of_normalizePositiveInt {value : Json} {n : ℤ}
    (h : normalizePositiveInt py value = some n) : 0 < n := by
  unfold normalizePositiveInt at h
  split at h
  · contradiction
  · exact of_decide_eq_true (Option.mem_filter_iff.mp h).2

theorem normalizeVmid_int (hint : ∀ n : ℤ, py.parseInt (toString n) = some n) {n : ℤ}
    (hn : 0 < n) : normalizeVmid py (.int n) = some (toString n) := by
  have hne : Text.strip (py.str (.int n)) ≠ "" := by
    intro hempty
    have hread := normalizePositiveInt_int hint hn
    unfold normalizePositiveInt at hread
    rw [hempty] at hread
    simp at hread
  unfold normalizeVmid textOrNone
  rw [if_neg (by simp [Json.isNull])]
  dsimp only
  rw [if_neg hne, Python.str, strip_toString]

/-- The number of a vmid is read back from its text. -/
theorem positiveVmid_toString (hint : ∀ n : ℤ, py.parseInt (toString n) = some n) {n : ℤ}
    (hn : 0 < n) : positiveVmid py (some (toString n)) = some n := by
  have hread := normalizePositiveInt_int hint hn
  unfold normalizePositiveInt VmQueue.stripInt at hread
  rw [Python.str] at hread
  rw [positiveVmid, Option.bind_some, normalizePositiveInt, VmQueue.stripInt, Python.str]
  exact hread

theorem kind_of_guestType {value : Json} {vmType : String}
    (h : guestType py value = some vmType) : vmType = "qemu" ∨ vmType = "lxc" := by
  unfold guestType at h
  split at h
  · dsimp only at h
    split at h
    · cases h
      assumption
    · contradiction
  · contradiction

theorem kind_of_extractProxmoxVmType {record : Record} {vmType : String}
    (h : extractProxmoxVmType py record = some vmType) : vmType = "qemu" ∨ vmType = "lxc" := by
  unfold extractProxmoxVmType firstField at h
  rw [Option.or_eq_some_iff] at h
  rcases h with h | ⟨-, h⟩
  · obtain ⟨key, -, hread⟩ := List.exists_of_findSome?_eq_some h
    exact kind_of_guestType hread
  · split at h
    · obtain ⟨key, -, hread⟩ := List.exists_of_findSome?_eq_some h
      exact kind_of_guestType hread
    · contradiction

/-- The name of a kind of guest is read back. -/
theorem guestType_kind {vmType : String} (h : vmType = "qemu" ∨ vmType = "lxc") :
    guestType py (.str vmType) = some vmType := by
  have hlower : py.lower (Text.strip vmType) = vmType := by
    rcases h with rfl | rfl
    · rw [show Text.strip "qemu" = "qemu" by decide, py.lower_ascii _ (by simp)]
      rfl
    · rw [show Text.strip "lxc" = "lxc" by decide, py.lower_ascii _ (by simp)]
      rfl
  have htruthy : Python.truthy (.str vmType) = true := by
    rcases h with rfl | rfl <;> rfl
  unfold guestType
  rw [if_pos htruthy]
  dsimp only [Python.str]
  rw [hlower, if_pos h]

/-- Of a VM whose identity is among its custom fields, a row with a vmid, a type, a cluster name and
an endpoint says just these. -/
theorem rowIdentity_of_columns (hint : ∀ n : ℤ, py.parseInt (toString n) = some n)
    {vmid endpointId : ℤ} {vmType clusterName : String}
    (hvm : ∀ key ∈ ["cf_proxmox_vm_id", "proxmox_vm_id", "cf_proxmox_vmid", "proxmox_vmid",
      "cf_proxmox_vm_type", "proxmox_vm_type", "cf_proxmox_endpoint_id", "proxmox_endpoint_id"],
      field key vm = .null)
    (hrow : ∀ key ∈ ["cf_proxmox_vm_id", "cf_proxmox_vm_type"], field key row = .null)
    (hvmid : field "proxmox_vm_id" row = .int vmid) (hpositive : 0 < vmid)
    (hvmType : field "proxmox_vm_type" row = .str vmType)
    (hkind : vmType = "qemu" ∨ vmType = "lxc")
    (hcluster : field "proxmox_cluster_name" row = .str clusterName) (hname : clusterName ≠ "")
    (hendpoint : field "proxmox_endpoint_raw_id" row = .int endpointId)
    (hendpointId : 0 < endpointId) :
    rowIdentity py vm row =
      ⟨some vmid, some vmType, normalizeClusterName py (.str clusterName), some endpointId⟩ := by
  simp only [List.forall_mem_cons, List.not_mem_nil, IsEmpty.forall_iff, implies_true,
    and_true] at hvm hrow
  have hnull : normalizeVmid py .null = none := rfl
  have hnullType : guestType py .null = none := rfl
  have hnullInt : normalizePositiveInt py .null = none := rfl
  have hrowVmid : extractProxmoxVmid py row = some (toString vmid) := by
    unfold extractProxmoxVmid firstField
    simp [List.findSome?_cons, hrow, hvmid, hnull, normalizeVmid_int hint hpositive]
  have hrowType : extractProxmoxVmType py row = some vmType := by
    unfold extractProxmoxVmType firstField
    simp [List.findSome?_cons, hrow, hvmType, hnullType, guestType_kind hkind]
  have htruthy : Python.truthy (.str clusterName) = true := by
    simp [Python.truthy, hname]
  simpa [rowIdentity, atTop, sidecarCluster, hvm, hnull, hnullType, hnullInt, hrowVmid, hrowType,
    hcluster, htruthy, hendpoint, normalizePositiveInt_int hint hendpointId] using
    positiveVmid_toString hint hpositive

theorem firstField_of_overlay {α : Type} {read : Json → Option α} {top custom : List String}
    {fields : Json.Fields} (h : overlaySelectedSidecarIdentity py vm row id = .ok vm')
    (hfields : VmQueue.customFields vm' = some fields)
    (htop : "cluster" ∉ top ∧ "custom_fields" ∉ top) : firstField read top custom vm' =
      (atTop read top vm).or (custom.findSome? fun key => read (field key fields)) := by
  unfold firstField
  rw [hfields, ← atTop_of_overlay h htop]
  rfl

theorem vmid_of_overlay (hint : ∀ n : ℤ, py.parseInt (toString n) = some n)
    (h : overlaySelectedSidecarIdentity py vm row id = .ok vm') :
    (ownIdentity py vm').vmid = (rowIdentity py vm row).vmid := by
  obtain ⟨-, vmid, -, fields, -, -, hvmid, -, hfields, -, hfield, -⟩ := written_of_overlay h
  have hpositive : 0 < vmid := by
    obtain ⟨s, -, hs⟩ := Option.bind_eq_some_iff.mp hvmid
    exact positive_of_normalizePositiveInt hs
  unfold ownIdentity rowIdentity
  dsimp only
  rw [extractProxmoxVmid, firstField_of_overlay h hfields (by decide), List.findSome?_cons, hfield,
    normalizeVmid_int hint hpositive]
  cases atTop (normalizeVmid py)
    ["cf_proxmox_vm_id", "proxmox_vm_id", "cf_proxmox_vmid", "proxmox_vmid"] vm with
  | none =>
    rw [Option.none_or, Option.none_or, hvmid]
    exact positiveVmid_toString hint hpositive
  | some s => rfl

theorem vmType_of_overlay (h : overlaySelectedSidecarIdentity py vm row id = .ok vm') :
    (ownIdentity py vm').vmType = (rowIdentity py vm row).vmType := by
  obtain ⟨-, -, vmType, fields, -, -, -, hvmType, hfields, -, -, hfield, -⟩ :=
    written_of_overlay h
  unfold ownIdentity rowIdentity
  dsimp only
  rw [hvmType]
  unfold extractProxmoxVmType
  rw [firstField_of_overlay h hfields (by decide), List.findSome?_cons, hfield,
    guestType_kind (kind_of_extractProxmoxVmType hvmType)]

theorem endpointId_of_overlay (hint : ∀ n : ℤ, py.parseInt (toString n) = some n)
    (h : overlaySelectedSidecarIdentity py vm row id = .ok vm') :
    (ownIdentity py vm').endpointId = (rowIdentity py vm row).endpointId := by
  obtain ⟨endpointId, -, -, fields, -, hendpointId, -, -, hfields, hfield, -⟩ :=
    written_of_overlay h
  have htop : atTop (normalizePositiveInt py) ["cf_proxmox_endpoint_id", "proxmox_endpoint_id"] vm' =
      atTop (normalizePositiveInt py) ["cf_proxmox_endpoint_id", "proxmox_endpoint_id"] vm :=
    atTop_of_overlay h (by decide)
  unfold ownIdentity rowIdentity
  dsimp only
  rw [← htop, hendpointId]
  unfold extractProxmoxEndpointId atTop
  dsimp only
  rw [hfields]
  dsimp only
  rw [hfield, normalizePositiveInt_int hint (positive_of_normalizePositiveInt hendpointId),
    Option.some_or, List.findSome?_cons, List.findSome?_cons, List.findSome?_nil]
  cases normalizePositiveInt py (field "cf_proxmox_endpoint_id" vm') <;>
    cases normalizePositiveInt py (field "proxmox_endpoint_id" vm') <;> rfl

theorem normalizeClusterName_str (s : String) :
    normalizeClusterName py (.str s) = py.casefold (Text.strip s) := by
  unfold normalizeClusterName
  split
  · rfl
  · rename_i hempty
    have hs : s = "" := by simpa [Python.truthy] using hempty
    rw [hs]
    rfl

theorem relationName_of_name {cluster : Json.Fields} {name : String} (hname : name ≠ "")
    (h : field "name" cluster = .str name) : relationName py (.obj cluster) = some name := by
  unfold relationName
  dsimp only
  rw [List.map_cons, h, List.find?_cons_of_pos (by simpa [Python.truthy] using hname)]
  rfl

/-- The name that the overlay writes is the row's up to case and blanks. -/
theorem normalizeClusterName_overlaid
    (hfold : ∀ s, normalizeClusterName py (.str (normalizeClusterName py (.str s))) =
      normalizeClusterName py (.str s)) :
    normalizeClusterName py (.str (overlaidClusterName py row)) =
      normalizeClusterName py (sidecarCluster py row) := by
  unfold overlaidClusterName selectedSidecarClusterName
  by_cases hgiven : Python.truthy (field "proxmox_cluster_name" row) = true
  · unfold sidecarCluster
    rw [if_pos hgiven, if_pos hgiven, normalizeClusterName_str, Text.strip_strip]
    unfold normalizeClusterName
    rw [if_pos hgiven]
  · unfold sidecarCluster
    rw [if_neg hgiven, if_neg hgiven, normalizeClusterName_str, Text.strip_strip,
      ← normalizeClusterName_str]
    cases relationName py (field "proxmox_cluster" row) with
    | none => simp [normalizeClusterName, Python.truthy]
    | some name =>
      dsimp only
      exact hfold name

theorem clusterName_of_overlay
    (hfold : ∀ s, normalizeClusterName py (.str (normalizeClusterName py (.str s))) =
      normalizeClusterName py (.str s))
    (h : overlaySelectedSidecarIdentity py vm row id = .ok vm') :
    (ownIdentity py vm').clusterName = (rowIdentity py vm row).clusterName := by
  obtain ⟨-, -, -, -, cluster, -, -, -, -, -, -, -, hcluster, hname⟩ := written_of_overlay h
  obtain ⟨-, -, -, -, -, -, -, hnamed, -⟩ := overlay_ok h
  have hfolded : normalizeClusterName py (.str (overlaidClusterName py row)) =
      normalizeClusterName py (sidecarCluster py row) := normalizeClusterName_overlaid hfold
  have hne : overlaidClusterName py row ≠ "" := by
    intro hempty
    rw [hempty] at hfolded
    exact hnamed hfolded.symm
  unfold ownIdentity rowIdentity
  dsimp only
  rw [hcluster, relationName_of_name hne hname]
  exact hfolded

/-- The record that the overlay makes says itself what the row says. -/
theorem ownIdentity_of_overlay (hint : ∀ n : ℤ, py.parseInt (toString n) = some n)
    (hfold : ∀ s, normalizeClusterName py (.str (normalizeClusterName py (.str s))) =
      normalizeClusterName py (.str s))
    (h : overlaySelectedSidecarIdentity py vm row id = .ok vm') :
    ownIdentity py vm' = rowIdentity py vm row := by
  have hvmid := vmid_of_overlay hint h
  have hvmType := vmType_of_overlay h
  have hclusterName := clusterName_of_overlay hfold h
  have hendpointId := endpointId_of_overlay hint h
  cases hown : ownIdentity py vm'
  cases hrow : rowIdentity py vm row
  rw [hown, hrow] at hvmid hvmType hclusterName hendpointId
  rw [RecordedIdentity.mk.injEq]
  exact ⟨hvmid, hvmType, hclusterName, hendpointId⟩

end Overlay

/-- Each hydrated record is that of a selected VM, and says what is recorded of its guest. -/
theorem hydrated_of_ok (hint : ∀ n : ℤ, py.parseInt (toString n) = some n)
    (hfold : ∀ s, normalizeClusterName py (.str (normalizeClusterName py (.str s))) =
      normalizeClusterName py (.str s)) {sources : Sources} {vms hydrated : List Record}
    (h : hydrateSelectedSidecarIdentities py sources.scan sources.legacyFallbackAllowed vms =
      .ok hydrated) {vm' : Record} (hmem : vm' ∈ hydrated) {id : ℤ}
    (hid : relationId py (field "id" vm') = some (some id)) :
    ∃ vm ∈ vms, relationId py (field "id" vm) = some (some id) ∧
      Records py sources id vm (ownIdentity py vm') := by
  unfold hydrateSelectedSidecarIdentities at h
  obtain ⟨pairs, hpairs, h⟩ := Outcomes.bind_eq_ok_iff.mp h
  dsimp only at h
  split at h
  · -- no record has an id, so `vm'` has none
    rename_i hempty
    cases h
    have hpair := mem_withIds py hpairs hmem hid
    rw [List.isEmpty_iff, List.filterMap_eq_nil_iff] at hempty
    exact absurd (hempty _ hpair) (by simp)
  · have hunread : ∀ outcome : Failure, (if sources.legacyFallbackAllowed = true then
        (Except.ok vms : Except Failure (List Record)) else .error outcome) = .ok hydrated →
        (∀ rows, sources.scan ≠ .rows rows) → ∃ vm ∈ vms,
          relationId py (field "id" vm) = some (some id) ∧
            Records py sources id vm (ownIdentity py vm') := by
      intro outcome heq hscan
      split at heq
      · cases heq
        exact ⟨vm', hmem, hid, .legacy ‹_› fun rows hrows => absurd hrows (hscan rows)⟩
      · contradiction
    split at h
    · exact hunread _ h (by simp [*])
    · exact hunread _ h (by simp [*])
    · rename_i rows hscan
      obtain ⟨parents, hparents, h⟩ := Outcomes.bind_eq_ok_iff.mp h
      obtain ⟨vm, hvm, hhydrate⟩ := Outcomes.mem_of_mapM h hmem
      unfold hydrateSelectedVmIdentity at hhydrate
      obtain ⟨o, ho, hhydrate⟩ := Outcomes.bind_eq_ok_iff.mp hhydrate
      rw [ofRelation_ok] at ho
      cases o with
      | none =>
        cases hhydrate
        rw [ho] at hid
        simp at hid
      | some vmId =>
        dsimp only at hhydrate
        rw [sidecarsByVmId_eq py hparents] at hhydrate
        split at hhydrate
        · -- no row: the record itself, if the legacy fields may be used
          rename_i hnone
          split at hhydrate
          · cases hhydrate
            rw [hid, Option.some.injEq, Option.some.injEq] at ho
            subst ho
            refine ⟨vm', hvm, hid, .legacy ‹_› ?_⟩
            intro rows' hrows' r hr hparent
            rw [hscan] at hrows'
            cases hrows'
            have hfound := List.filter_eq_nil_iff.mp hnone r hr
            simp [hparent] at hfound
          · contradiction
        · -- one row, whose identity overlays the record
          rename_i row hrow
          have hsame : field "id" vm' = field "id" vm :=
            field_of_overlay hhydrate (by decide) (by decide)
          rw [← hsame, hid, Option.some.injEq, Option.some.injEq] at ho
          subst ho
          rw [hsame] at hid
          rw [ownIdentity_of_overlay hint hfold hhydrate]
          exact ⟨vm, hvm, hid, .sidecar rows row hscan hrow⟩
        · contradiction

/-- What the owner of a selected record is. -/
structure OwnerOf (index : EndpointIdsByCluster) (requireStoredEndpoint : Bool) (vm : Record)
    (owner : SelectedVmOwner) : Prop where
  recorded : recordedGuest py vm = some ⟨owner.clusterName, owner.vmid, owner.vmType⟩
  source : (Dict.get owner.clusterName index).getD [] = [some owner.endpointId]
  stored : ∀ id, extractProxmoxEndpointId py vm = some id → id = owner.endpointId
  required : requireStoredEndpoint = true →
    extractProxmoxEndpointId py vm = some owner.endpointId

theorem resolveSelectedOwner_ok {index : EndpointIdsByCluster} {requireStoredEndpoint : Bool}
    {vm : Record} {netboxId : ℤ} {owner : SelectedVmOwner}
    (h : resolveSelectedOwner py index requireStoredEndpoint vm netboxId = .ok owner) :
    owner.netboxId = netboxId ∧ OwnerOf py index requireStoredEndpoint vm owner := by
  unfold resolveSelectedOwner at h
  split at h
  · contradiction
  · rename_i guest hguest
    dsimp only at h
    split at h
    · contradiction
    · rename_i source hsource
      split at h
      · rename_i hstored
        split at h
        · contradiction
        · cases h
          exact ⟨rfl, hguest, hsource, by simp [hstored], fun hrequire => absurd hrequire ‹_›⟩
      · rename_i stored hstored
        split at h
        · rename_i hsame
          cases h
          subst hsame
          refine ⟨rfl, hguest, hsource, ?_, fun _ => hstored⟩
          intro id hid
          rw [hstored] at hid
          exact (Option.some.inj hid).symm
        · contradiction
    · contradiction

/-- The owners that the loop adds, in the order of the requested ids. -/
theorem resolveOwners_ok {index : EndpointIdsByCluster} {requireStoredEndpoint : Bool}
    {records : List (ℤ × Record)} {owners owners' : List SelectedVmOwner} {requested : List ℤ}
    (h : resolveOwners py index requireStoredEndpoint records owners requested = .ok owners') :
    ∃ added, owners' = owners ++ added ∧ added.map (·.netboxId) = requested ∧
      ∀ o ∈ added, ∃ vm, Dict.get o.netboxId records = some vm ∧
        OwnerOf py index requireStoredEndpoint vm o := by
  induction requested generalizing owners with
  | nil =>
    cases h
    exact ⟨[], by simp, rfl, by simp⟩
  | cons netboxId rest ih =>
    unfold resolveOwners at h
    split at h
    · contradiction
    · rename_i vm hvm
      obtain ⟨owner, howner, h⟩ := Outcomes.bind_eq_ok_iff.mp h
      split at h
      · contradiction
      · obtain ⟨hid, hof⟩ := resolveSelectedOwner_ok py howner
        obtain ⟨added, rfl, hmap, hall⟩ := ih h
        refine ⟨owner :: added, by simp, by simp [hid, hmap], ?_⟩
        intro o ho
        rcases List.mem_cons.mp ho with rfl | ho
        · exact ⟨vm, by rw [hid]; exact hvm, hof⟩
        · exact hall o ho

theorem resolveSelectedOwners_ok {index : EndpointIdsByCluster} {requireStoredEndpoint : Bool}
    {vms : List Record} {requested : List ℤ} {owners : List SelectedVmOwner}
    (h : resolveSelectedOwners py index requireStoredEndpoint vms requested = .ok owners) :
    owners.map (·.netboxId) = requested ∧ ∀ o ∈ owners, ∃ vm ∈ vms,
      relationId py (field "id" vm) = some (some o.netboxId) ∧
        OwnerOf py index requireStoredEndpoint vm o := by
  unfold resolveSelectedOwners at h
  obtain ⟨pairs, hpairs, h⟩ := Outcomes.bind_eq_ok_iff.mp h
  dsimp only at h
  split at h
  · contradiction
  · obtain ⟨added, hadded, hmap, hall⟩ := resolveOwners_ok py h
    rw [List.nil_append] at hadded
    subst hadded
    refine ⟨hmap, ?_⟩
    intro o ho
    obtain ⟨vm, hget, hof⟩ := hall o ho
    rcases Dict.mem_update (Dict.mem_of_get hget) with hmem | hmem
    · simp at hmem
    · obtain ⟨⟨id, vm'⟩, hpair, heq⟩ := List.mem_filterMap.mp hmem
      cases id with
      | none => simp at heq
      | some id =>
        simp only [Option.map_some, Option.some.injEq, Prod.mk.injEq] at heq
        obtain ⟨rfl, rfl⟩ := heq
        obtain ⟨hvm, hid⟩ := mem_of_withIds py hpairs hpair
        exact ⟨vm', hvm, hid, hof⟩

theorem ownerOf_some {index : EndpointIdsByCluster} {owners : List SelectedVmOwner} {key : String}
    {resource : Json.Fields} {o : SelectedVmOwner}
    (h : ownerOf py index owners key resource = some o) :
    o ∈ owners ∧ resourceKey py index key resource = some o.resourceKey := by
  unfold ownerOf at h
  obtain ⟨k, hk, hget⟩ := Option.bind_eq_some_iff.mp h
  rcases Dict.mem_update (Dict.mem_of_get hget) with hmem | hmem
  · simp at hmem
  · obtain ⟨o', ho', heq⟩ := List.mem_map.mp hmem
    cases heq
    exact ⟨ho', hk⟩

theorem ownIdentity_of_recordedGuest {vm : Record} {guest : RecordedGuest}
    (h : recordedGuest py vm = some guest) : (ownIdentity py vm).vmid = some guest.vmid ∧
      (ownIdentity py vm).vmType = some guest.vmType ∧
      (ownIdentity py vm).clusterName = guest.clusterName ∧ guest.clusterName ≠ "" := by
  unfold recordedGuest at h
  obtain ⟨vmid, hvmid, h⟩ := Option.bind_eq_some_iff.mp h
  obtain ⟨vmType, hvmType, h⟩ := Option.bind_eq_some_iff.mp h
  dsimp only at h
  split at h
  · contradiction
  · rename_i hname
    cases h
    exact ⟨hvmid, hvmType, rfl, hname⟩

/-- A resource with the key of an owner is the live guest that the owner's record names. -/
theorem liveGuest_of_key {sources : Sources} {requireStoredEndpoint : Bool} {vm : Record}
    {o : SelectedVmOwner} {entry : String × Json.Fields}
    (hof : OwnerOf py (sourceEndpointIdsByCluster py sources.pxs sources.clusterStatus)
      requireStoredEndpoint vm o)
    (hkey : resourceKey py (sourceEndpointIdsByCluster py sources.pxs sources.clusterStatus)
      entry.1 entry.2 = some o.resourceKey) :
    LiveGuest py sources (ownIdentity py vm) o.endpointId entry := by
  obtain ⟨hrecordedVmid, hrecordedType, hrecordedName, hnamed⟩ :=
    ownIdentity_of_recordedGuest py hof.recorded
  unfold resourceKey SelectedVmOwner.resourceKey at hkey
  obtain ⟨endpointId, -, hkey⟩ := Option.bind_eq_some_iff.mp hkey
  obtain ⟨vmid, hvmid, hkey⟩ := Option.bind_eq_some_iff.mp hkey
  by_cases htruthy : Python.truthy (field "type" entry.2) = true
  · simp only [htruthy, if_true] at hkey
    split at hkey
    · rename_i hkind
      simp only [Option.some.injEq, Prod.mk.injEq] at hkey
      obtain ⟨-, hname, rfl, htype⟩ := hkey
      rw [htype] at hkind
      constructor
      · rw [hrecordedType]
        exact hkind.imp (congrArg some) (congrArg some)
      · rw [hrecordedType, htype]
      · exact ⟨_, hrecordedVmid, hvmid⟩
      · exact hname.trans hrecordedName.symm
      · exact hrecordedName ▸ hnamed
      · exact hrecordedName ▸ ownedBy_of_owners py hof.source
      · exact hof.stored
    · contradiction
  · simp [htruthy] at hkey

/-- Keeping some resources of each list, and the lists that are not empty, keeps some entries. -/
theorem entriesOf_filter {p : String → Json.Fields → Bool}
    {live : List (String × List Json.Fields)} :
    entriesOf ((live.map fun group => (group.1, group.2.filter (p group.1))).filter
        (!·.2.isEmpty)) =
      (entriesOf live).filter fun e => p e.1 e.2 := by
  induction live with
  | nil => rfl
  | cons group live ih =>
    obtain ⟨key, items⟩ := group
    have hhead : entriesOf ((key, items) :: live) = items.map (key, ·) ++ entriesOf live := by
      simp [entriesOf]
    have hkept : (items.map (key, ·)).filter (fun e => p e.1 e.2) =
        (items.filter (p key)).map (key, ·) := by
      rw [List.filter_map]
      rfl
    rw [hhead, List.filter_append, hkept, ← ih, List.map_cons]
    cases items.filter (p key) with
    | nil => simp
    | cons first rest => simp [entriesOf]

/-- The entries that the filter keeps are live resources that have an owner, and each owner has
one of them. -/
theorem filter_ok {index : EndpointIdsByCluster} {owners : List SelectedVmOwner}
    {clusterResources : List Json} {result : List (String × List Json.Fields)}
    (h : filterClusterResourcesByOwners py index owners clusterResources = .ok result) :
    (entriesOf result).Sublist (entriesOf (liveResources clusterResources)) ∧
      (∀ e ∈ entriesOf result, (ownerOf py index owners e.1 e.2).isSome = true) ∧
        ∀ o ∈ owners, ((entriesOf result).filterMap fun e =>
          (ownerOf py index owners e.1 e.2).map (·.netboxId)).count o.netboxId = 1 := by
  unfold filterClusterResourcesByOwners at h
  dsimp only at h
  split at h
  · contradiction
  · rename_i hambiguous
    split at h
    · contradiction
    · rename_i hunresolved
      have hresult := Except.ok.inj h
      rw [hresult] at hambiguous hunresolved
      have hentries : entriesOf result = (entriesOf (liveResources clusterResources)).filter
          fun e => (ownerOf py index owners e.1 e.2).isSome := by
        rw [← hresult]
        exact entriesOf_filter (p := fun key r => (ownerOf py index owners key r).isSome)
      have hmatched : (result.flatMap fun (key, resources) => resources.filterMap fun r =>
          (ownerOf py index owners key r).map (·.netboxId)) = (entriesOf result).filterMap fun e =>
            (ownerOf py index owners e.1 e.2).map (·.netboxId) := by
        rw [entriesOf, List.filterMap_flatMap]
        simp only [List.filterMap_map, Function.comp_def]
      rw [hmatched] at hambiguous hunresolved
      refine ⟨?_, ?_, ?_⟩
      · rw [hentries]
        exact List.filter_sublist
      · intro e he
        rw [hentries] at he
        exact (List.mem_filter.mp he).2
      · intro o ho
        simp only [ne_eq, Decidable.not_not, List.map_eq_nil_iff, List.filter_eq_nil_iff,
          decide_eq_true_eq] at hambiguous hunresolved
        have hmost := hambiguous o ho
        have hleast := hunresolved o ho
        omega

theorem selectResources_ok (hint : ∀ n : ℤ, py.parseInt (toString n) = some n)
    (hfold : ∀ s, normalizeClusterName py (.str (normalizeClusterName py (.str s))) =
      normalizeClusterName py (.str s)) {sources : Sources} {requireStoredEndpoint : Bool}
    {vms : List Record} {requested : List ℤ} {clusterResources : List Json}
    {result : List (String × List Json.Fields)} (hnodup : requested.Nodup)
    (h : selectResources py sources requireStoredEndpoint vms requested clusterResources =
      .ok result) : ExactSelection py sources vms requested clusterResources result := by
  unfold selectResources at h
  obtain ⟨hydrated, hhydrated, h⟩ := Outcomes.bind_eq_ok_iff.mp h
  obtain ⟨owners, howners, h⟩ := Outcomes.bind_eq_ok_iff.mp h
  obtain ⟨hrequested, hof⟩ := resolveSelectedOwners_ok py howners
  obtain ⟨hsublist, howned, hcount⟩ := filter_ok py h
  let idOf (e : String × Json.Fields) : Option ℤ :=
    (ownerOf py (sourceEndpointIdsByCluster py sources.pxs sources.clusterStatus)
      owners e.1 e.2).map (·.netboxId)
  refine ⟨hsublist, (entriesOf result).filterMap idOf, ?_, ?_⟩
  · refine Outcomes.perm_of_count hnodup ?_ ?_
    · intro id hid
      obtain ⟨e, -, he⟩ := List.mem_filterMap.mp hid
      obtain ⟨o, ho, rfl⟩ := Option.map_eq_some_iff.mp he
      rw [← hrequested]
      exact List.mem_map_of_mem (ownerOf_some py ho).1
    · intro id hid
      rw [← hrequested] at hid
      obtain ⟨o, ho, rfl⟩ := List.mem_map.mp hid
      exact hcount o ho
  · have hids : List.Forall₂ (fun id e => idOf e = some id) ((entriesOf result).filterMap idOf)
        (entriesOf result) := by
      refine Outcomes.forall₂_filterMap ?_
      intro e he
      rw [Option.isSome_map]
      exact howned e he
    refine hids.imp ?_
    intro id e he
    obtain ⟨o, ho, rfl⟩ := Option.map_eq_some_iff.mp he
    obtain ⟨hmem, hkey⟩ := ownerOf_some py ho
    obtain ⟨vm', hvm', hid, hofvm⟩ := hof o hmem
    obtain ⟨vm, hvm, hvmid, hrecords⟩ := hydrated_of_ok py hint hfold hhydrated hvm' hid
    exact ⟨vm, hvm, hvmid, _, _, hrecords, liveGuest_of_key py hofvm hkey⟩

/-- Both variants of the explicit selection raise, or return one live guest for each distinct
requested id, and nothing else. -/
theorem selection_exact (hint : ∀ n : ℤ, py.parseInt (toString n) = some n)
    (hfold : ∀ s, normalizeClusterName py (.str (normalizeClusterName py (.str s))) =
      normalizeClusterName py (.str s)) (sources : Sources) (clusterResources : List Json) :
    (∀ fetch netboxVmIds result,
      filterClusterResourcesByNetboxVmIds py sources fetch netboxVmIds clusterResources =
        .ok result →
      ∃ requested vms, DistinctIds py netboxVmIds requested ∧
        (netboxVmIds = [] ∨ listNetboxVirtualMachinesByIds py fetch requested = .ok vms) ∧
          ExactSelection py sources vms requested clusterResources result) ∧
    ∀ vm netboxVmId result,
      filterClusterResourcesForSelectedVm py sources vm netboxVmId clusterResources = .ok result →
      ∃ requested, DistinctIds py [netboxVmId] requested ∧
        ExactSelection py sources [vm] requested clusterResources result := by
  constructor
  · intro fetch netboxVmIds result h
    unfold filterClusterResourcesByNetboxVmIds at h
    split at h
    · rename_i hempty
      cases h
      rw [List.isEmpty_iff] at hempty
      subst hempty
      exact ⟨[], [], ⟨List.nodup_nil, by simp⟩, Or.inl rfl, List.nil_sublist _, [], .refl _, .nil⟩
    · obtain ⟨requested, hrequested, h⟩ := Outcomes.bind_eq_ok_iff.mp h
      obtain ⟨vms, hvms, h⟩ := Outcomes.bind_eq_ok_iff.mp h
      have hdistinct := requestedIds_ok py hrequested
      exact ⟨requested, vms, hdistinct, Or.inr hvms, selectResources_ok py hint hfold hdistinct.1 h⟩
  · intro vm netboxVmId result h
    obtain ⟨requested, hrequested, h⟩ := Outcomes.bind_eq_ok_iff.mp h
    have hdistinct := requestedIds_ok py hrequested
    exact ⟨requested, hdistinct, selectResources_ok py hint hfold hdistinct.1 h⟩

/-- A cluster of one endpoint, and a sidecar row for VM 7. -/
def oneCluster : Sources where
  pxs := [⟨.int 1, .null, .null, .str "pve", .null⟩]
  clusterStatus := [.str "PVE"]
  scan := .rows [[("virtual_machine", .obj [("id", .int 7)]), ("proxmox_cluster_name", .str "Pve"),
    ("proxmox_endpoint_raw_id", .int 1), ("proxmox_vm_id", .int 100),
    ("proxmox_vm_type", .str "qemu")]]
  legacyFallbackAllowed := false

/-- ASCII letters change their case once. -/
theorem normalizeClusterName_ascii_twice (s : String) :
    normalizeClusterName .ascii (.str (normalizeClusterName .ascii (.str s))) =
      normalizeClusterName .ascii (.str s) := by
  have hcasefold : ∀ s, Python.casefold .ascii s = String.ofList (s.toList.map Char.toLower) := by
    intro s
    unfold Python.casefold
    rw [List.map_eq_flatMap]
    rfl
  rw [normalizeClusterName_str, normalizeClusterName_str, hcasefold, hcasefold]
  refine congrArg String.ofList ?_
  unfold Text.strip
  rw [String.toList_ofList, String.toList_ofList, String.toList_ofList, Text.stripChars_map_toLower,
    Text.stripChars_stripChars, List.map_map]
  apply List.map_congr_left
  intro c _
  exact Text.toLower_toLower c

def guest (vmid : ℤ) : Json.Fields := [("vmid", .int vmid), ("type", .str "qemu")]

theorem selection_exact_oneCluster : ∃ requested vms,
    DistinctIds .ascii [.int 7, .str "7"] requested ∧
      ExactSelection .ascii oneCluster vms requested
        [.obj [("pve", .arr [.obj (guest 101), .obj (guest 100)])]] [("pve", [guest 100])] := by
  have hrun : filterClusterResourcesByNetboxVmIds .ascii oneCluster
      (fun _ => .ok [[("id", .int 7)]]) [.int 7, .str "7"]
      [.obj [("pve", .arr [.obj (guest 101), .obj (guest 100)])]] =
        .ok [("pve", [guest 100])] := by
    rfl
  obtain ⟨requested, vms, hdistinct, -, hexact⟩ :=
    (selection_exact .ascii parseAscii_toString normalizeClusterName_ascii_twice oneCluster
      _).1 _ _ _ hrun
  exact ⟨requested, vms, hdistinct, hexact⟩

end ProxboxApi.VmSelection
