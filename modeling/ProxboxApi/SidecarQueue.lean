import ProxboxApi.QueueMatching
import ProxboxApi.Runs
import ProxboxApi.SidecarHydration
import ProxboxApi.TypedPick
import ProxboxApi.VmidHelpers

/-! Which records the queue matches with the prepared VMs after the hydration of the snapshot, turn
by turn of its loop. -/

namespace ProxboxApi.VmQueue

variable (py : Python)

inductive GuestKind where
  | qemu
  | lxc
  deriving DecidableEq, Repr

def GuestKind.name : GuestKind → String
  | .qemu => "qemu"
  | .lxc => "lxc"

/-- A guest as the full update prepares it, of one of the two kinds. -/
structure KindedGuest extends Guest where
  kind : GuestKind
  kind_eq : prepared.vmType = kind.name

def Guest.endpointId (g : Guest) : Option ℤ := extractProxmoxEndpointId py g.prepared.desiredPayload

/-- The scope and the key under which a guest is looked up. -/
def Guest.key (g : Guest) : Scope × (ℤ × ℤ) :=
  match g.endpointId py with
  | some e => (.endpoint, (e, g.vmid))
  | none => (.cluster, (g.clusterId, g.vmid))

/-- The Proxmox identity: endpoint or else cluster, vmid, and kind. -/
def KindedGuest.identity (g : KindedGuest) : (Scope × (ℤ × ℤ)) × GuestKind :=
  (g.key py, g.kind)

def identOf (record : Record) : Option ℤ := (relationId py (field "id" record)).join

/-- The id of the record a prepared VM is matched with. -/
def matchedId (snapshot : List Record) (p : PreparedVMState) : Option (Option ℤ) :=
  (matched py snapshot p).map (identOf py)

variable {py} (inv : Inventory py) (legacyEnabled : Bool)

/-- A row of the sync state binds the identity of the guest to the VM. -/
def Binds (g : KindedGuest) (vm : StoredVm py) : Prop :=
  ∃ row ∈ inv.rows, row.virtualMachine = some vm.id ∧ row.proxmoxVmId = some g.vmid ∧
    row.proxmoxVmType = some g.kind.name ∧ row.proxmoxEndpointRawId = g.endpointId py ∧
    (g.endpointId py = none → vm.cluster = some g.clusterId)

/-- The identity a row is of: its endpoint, or else the cluster of its VM; vmid and kind. -/
def SyncStateRow.identity (row : SyncStateRow) :
    (Option ℤ × Option ℤ) × Option ℤ × Option String :=
  ((row.proxmoxEndpointRawId, if row.proxmoxEndpointRawId.isSome then none
    else row.virtualMachine.bind fun id => (inv.find id).bind (·.cluster)),
    row.proxmoxVmId, row.proxmoxVmType)

/-- The rows bind distinct identities to distinct VMs of NetBox. -/
def DistinctRows : Prop :=
  (∀ row ∈ inv.rows, ∃ vm ∈ inv.vms, row.virtualMachine = some vm.id) ∧
    inv.rows.Pairwise fun row row' =>
      row.identity inv ≠ row'.identity inv ∧ row.virtualMachine ≠ row'.virtualMachine

/-- The VM that the resolver names by a sidecar row. -/
def sidecarVm (g : Guest) : Option (StoredVm py) :=
  match resolvePayload inv legacyEnabled g.prepared.desiredPayload g.vmid (some g.clusterId)
      (some g.clusterId) with
  | some ⟨_, id, .sidecar⟩ => inv.find id
  | _ => none

theorem lawful_key : LawfulBEq (Option ℤ × ℤ × String) := inferInstance

attribute [local instance] lawful_key in
/-- The VM whose record a turn of the hydration overlays: the indexes do not select a record, and
the resolver was not asked under the key before. -/
def overlaidVm (indexes : Indexes) (s : HydrationState) (g : Guest) : Option (StoredVm py) :=
  if selectsExisting py s.snapshot indexes g.prepared (g.endpointId py) (some g.clusterId) g.vmid
  then none
  else if (g.endpointId py, g.vmid, sidecarVmType py g.prepared) ∈ s.resolvedKeys then none
  else sidecarVm inv legacyEnabled g

def turn (indexes : Indexes) (s : HydrationState) (g : KindedGuest) : Option HydrationState :=
  hydrateOne inv legacyEnabled indexes s g.prepared

variable (py) in
/-- The records before that of a VM. -/
def before (snapshot : List Record) (id : ℤ) : List Record :=
  snapshot.takeWhile fun record => !hasId py id record

variable (py) in
/-- The first of the records that carries the identity of the guest, with its kind. -/
def firstOf (records : List Record) (g : KindedGuest) : Option Record :=
  (candidates py records (g.key py).1 (g.key py).2).find? fun record =>
    extractProxmoxVmType py record = some g.kind.name

/-- With the identity of the guest `q`, the record of the VM carries the key of the guest `p`. -/
def Carries (snapshot : List Record) (w : StoredVm py) (q p : KindedGuest) : Prop :=
  ∃ record ∈ snapshot, hasId py w.id record ∧ recordKey py (p.key py).1
    (overlaySidecarIdentity py q.prepared q.vmid (q.endpointId py) record) = some (p.key py).2

/-- The overlay of the VM with the identity of `q` leaves the match of `p`.  If the VM is the match,
it comes to carry the identity of `p`; if another record is, the VM does not come to carry its key, or
the match has the kind of `p` and the VM gets the other kind or stands behind; without a match, the VM
does not become one, and does not leave a lone record without a type behind. -/
def Undisturbed (snapshot : List Record) (w : StoredVm py) (q p : KindedGuest) : Prop :=
  match matched py snapshot p.prepared with
  | some x => (hasId py w.id x = true → Carries snapshot w q p ∧ q.kind = p.kind) ∧
      (hasId py w.id x = false → Carries snapshot w q p →
        extractProxmoxVmType py x = some p.kind.name ∧
          (q.kind = p.kind → x ∈ before py snapshot w.id))
  | none => (Carries snapshot w q p → q.kind ≠ p.kind) ∧
      (¬ Carries snapshot w q p → ∀ x,
        (candidates py snapshot (p.key py).1 (p.key py).2).filter (!hasId py w.id ·) = [x] →
          extractProxmoxVmType py x ≠ none)

/-- The turn of a guest leaves it matched with the VM: nothing is overlaid and it is matched, or the
first record of its identity is that of the VM, where that of the overlaid VM is one. -/
def Reaches (indexes : Indexes) (s : HydrationState) (q : KindedGuest) (vm : StoredVm py) : Prop :=
  match overlaidVm inv legacyEnabled indexes s q.toGuest with
  | none => matchedId py s.snapshot q.prepared = some (some vm.id)
  | some w => match firstOf py (before py s.snapshot w.id) q with
    | some x => hasId py vm.id x = true
    | none => w.id = vm.id

/-- What a turn must do, among the guests of the batch. -/
structure Fair (indexes : Indexes) (guests : List KindedGuest) (s : HydrationState)
    (q : KindedGuest) : Prop where
  bound : ∀ vm ∈ inv.vms, Binds inv q vm → Reaches inv legacyEnabled indexes s q vm
  steady : ∀ w, overlaidVm inv legacyEnabled indexes s q.toGuest = some w → ∀ p ∈ guests,
    p.identity py ≠ q.identity py → Undisturbed s.snapshot w q p

/-- The turn changes the match of no other guest. -/
def Steady (indexes : Indexes) (guests : List KindedGuest) (s : HydrationState)
    (q : KindedGuest) : Prop :=
  ∀ s', turn inv legacyEnabled indexes s q = some s' → ∀ p ∈ guests,
    p.identity py ≠ q.identity py →
      matchedId py s'.snapshot p.prepared = matchedId py s.snapshot p.prepared

/-- The sidecar identities are honoured: a guest whose identity a row binds is not created and is
matched with the VM, and the hydration of one guest never changes the match of another. -/
structure Honoured (indexes : Indexes) (guests : List KindedGuest) (ops : List NetBoxVMOperation) :
    Prop where
  bound : ∀ op ∈ ops, ∀ g ∈ guests, op.prepared = g.prepared → ∀ vm ∈ inv.vms, Binds inv g vm →
    op.method ≠ .create ∧ ∃ record, op.existingRecord = some record ∧ hasId py vm.id record = true
  steady : Runs.Guarded (turn inv legacyEnabled indexes)
    (Steady inv legacyEnabled indexes guests) ⟨inv.snapshot, [], 0⟩ guests

variable {inv} {legacyEnabled}

section Matching

variable {snapshot : List Record} {g p q : KindedGuest}

@[simp] theorem GuestKind.lower_name (kind : GuestKind) :
    py.lower (Text.strip kind.name) = kind.name := by
  cases kind
  · exact py.lower_ascii "qemu" (by simp)
  · exact py.lower_ascii "lxc" (by simp)

theorem GuestKind.name_injective {kind kind' : GuestKind} (h : kind.name = kind'.name) :
    kind = kind' := by
  cases kind <;> cases kind' <;> first | rfl | exact absurd h (by decide)

theorem GuestKind.name_ne (kind : GuestKind) : kind.name ≠ "" := by
  cases kind <;> decide

theorem normalizeProxmoxVmType_name (kind : GuestKind) :
    normalizeProxmoxVmType py (.str kind.name) = some kind.name := by
  simp [normalizeProxmoxVmType, vmTypeValue, Json.isNull, Python.str, kind.name_ne]

variable (py) in
theorem preparedVmType_eq (g : KindedGuest) :
    preparedVmType py g.prepared = some g.kind.name := by
  unfold preparedVmType
  rw [g.kind_eq]
  exact normalizeProxmoxVmType_name g.kind

variable (py) in
theorem sidecarVmType_eq (g : KindedGuest) : sidecarVmType py g.prepared = g.kind.name := by
  unfold sidecarVmType
  rw [g.kind_eq, GuestKind.lower_name]

variable (py) in
theorem target_eq_key (g : Guest) : target py g.prepared = some (g.key py) := by
  unfold target Guest.key
  rw [g.cluster_eq, g.vmid_eq]
  simp only [relationId, relationCandidate, Option.bind_some, Option.join_some, Option.map_some]
  unfold Guest.endpointId
  cases extractProxmoxEndpointId py g.prepared.desiredPayload <;> rfl

/-- The choice for a type is the pick of it. -/
theorem choose_eq_pick (t : String) (cands : List Record) :
    choose py (some t) cands = TypedPick.pick (extractProxmoxVmType py) t cands := by
  unfold choose TypedPick.pick
  dsimp only
  cases cands.find? (fun r => extractProxmoxVmType py r = some t) with
  | some record => rfl
  | none =>
    rw [Option.none_or]
    rcases cands with _ | ⟨record, _ | ⟨record', cands⟩⟩ <;> rfl

theorem matched_eq_pick : matched py snapshot g.prepared =
    TypedPick.pick (extractProxmoxVmType py) g.kind.name
      (candidates py snapshot (g.key py).1 (g.key py).2) := by
  unfold matched
  rw [target_eq_key, preparedVmType_eq, Option.bind_some, choose_eq_pick]

theorem hasId_iff_ident {id : ℤ} {record : Record} :
    hasId py id record = true ↔ identOf py record = some id := by
  simp [hasId, identOf, Option.join_eq_some_iff]

theorem matchedId_eq_some_iff {id : ℤ} : matchedId py snapshot g.prepared = some (some id) ↔
    ∃ record, matched py snapshot g.prepared = some record ∧ hasId py id record = true := by
  simp [matchedId, Option.map_eq_some_iff, hasId_iff_ident]

end Matching

variable (py) in
/-- The snapshot after the overlay of a VM with the identity of a guest. -/
def overlaid (snapshot : List Record) (w : StoredVm py) (q : KindedGuest) : List Record :=
  snapshot.map fun record =>
    if hasId py w.id record then
      overlaySidecarIdentity py q.prepared q.vmid (q.endpointId py) record
    else record

section Overlay

variable {snapshot : List Record} {w vm : StoredVm py} {p q : KindedGuest} {record : Record}

theorem SameFields.identOf_eq {record' : Record} (h : SameFields record record') :
    identOf py record' = identOf py record := by
  unfold identOf
  rw [h "id" (by decide)]

theorem map_identOf (h : OfInventory inv snapshot) :
    snapshot.map (identOf py) = inv.vms.map fun vm => some vm.id := by
  unfold OfInventory Inventory.snapshot at h
  generalize inv.vms = vms at h ⊢
  induction vms generalizing snapshot with
  | nil =>
    obtain rfl := List.forall₂_nil_left_iff.mp h
    rfl
  | cons vm vms ih =>
    obtain ⟨record, rest, hsame, hrest, rfl⟩ := List.forall₂_cons_left_iff.mp h
    have hid : identOf py vm.record = some vm.id := hasId_iff_ident.mp (vm.hasId_iff.mpr rfl)
    rw [List.map_cons, List.map_cons, ih hrest, hsame.identOf_eq, hid]

/-- The record of the VM, between others. -/
structure Between (w : StoredVm py) (a : List Record) (r : Record) (b : List Record) : Prop where
  same : SameFields w.record r
  front : ∀ x ∈ a, identOf py x ≠ identOf py r
  back : ∀ x ∈ b, identOf py x ≠ identOf py r

/-- The record of a VM of NetBox stands once in the snapshot. -/
theorem OfInventory.split (h : OfInventory inv snapshot) (hw : w ∈ inv.vms) :
    ∃ a r b, snapshot = a ++ r :: b ∧ Between w a r b := by
  have hstored : w.record ∈ inv.snapshot := List.mem_map_of_mem hw
  obtain ⟨r, hr, hsame⟩ := exists_left h.flip hstored
  have hsame : SameFields w.record r := hsame
  obtain ⟨a, b, rfl⟩ := List.append_of_mem hr
  have hnodup : ((a ++ r :: b).map (identOf py)).Nodup := by
    rw [map_identOf h, ← Function.comp_def, ← List.map_map]
    exact inv.distinct.map (Option.some_injective _)
  rw [List.map_append, List.map_cons, List.nodup_append] at hnodup
  obtain ⟨-, hright, hdisjoint⟩ := hnodup
  refine ⟨a, r, b, rfl, ⟨hsame, ?_, ?_⟩⟩
  · intro x hx
    exact hdisjoint _ (List.mem_map_of_mem hx) _ List.mem_cons_self
  · intro x hx heq
    exact (List.nodup_cons.mp hright).1 (heq ▸ List.mem_map_of_mem hx)

theorem field_overlay {name : String} (hname : name ≠ "custom_fields") {P : PreparedVMState}
    {vmid : ℤ} {e : Option ℤ} :
    field name (overlaySidecarIdentity py P vmid e record) = field name record :=
  sameFields_overlay name hname

variable (py) in
/-- The custom fields that an overlay writes. -/
theorem customFields_overlay (q : KindedGuest) (record : Record) : ∃ fields,
    customFields (overlaySidecarIdentity py q.prepared q.vmid (q.endpointId py) record) =
      some fields ∧ field "proxmox_vm_id" fields = .int q.vmid ∧
      field "proxmox_vm_type" fields = .str q.kind.name ∧
      ∀ e, q.endpointId py = some e → field "proxmox_endpoint_id" fields = .int e := by
  have hkind : q.kind.name = "qemu" ∨ q.kind.name = "lxc" := by
    cases q.kind
    · exact Or.inl rfl
    · exact Or.inr rfl
  have hset : ∀ fields : Json.Fields,
      customFields (Dict.set "custom_fields" (.obj fields) record) = some fields := by
    intro fields
    simp [customFields, field, Dict.get_set]
  unfold overlaySidecarIdentity
  rw [sidecarVmType_eq]
  dsimp only
  rw [if_pos hkind]
  refine ⟨_, hset _, ?_, ?_, ?_⟩
  · cases q.endpointId py <;> simp [field, Dict.get_set]
  · simp [field, Dict.get_set]
  · intro e he
    simp [he, field, Dict.get_set]

/-- An overlay gives the record the kind of the guest. -/
theorem extractProxmoxVmType_overlay : extractProxmoxVmType py
    (overlaySidecarIdentity py q.prepared q.vmid (q.endpointId py) record) =
      some q.kind.name := by
  obtain ⟨fields, hfields, -, htype, -⟩ := customFields_overlay py q record
  unfold extractProxmoxVmType
  rw [hfields]
  dsimp only
  rw [htype]
  exact normalizeProxmoxVmType_name q.kind

/-- An overlay gives the record the key of the guest, with the cluster of the guest if it has no
endpoint. -/
theorem recordKey_overlay (hint : ∀ n : ℤ, py.parseInt (toString n) = some n)
    (hsame : SameFields w.record record)
    (hcluster : q.endpointId py = none → w.cluster = some q.clusterId) :
    recordKey py (q.key py).1
      (overlaySidecarIdentity py q.prepared q.vmid (q.endpointId py) record) =
      some (q.key py).2 := by
  obtain ⟨fields, hfields, hvmid, -, hendpoint⟩ := customFields_overlay py q record
  have hstored : storedVmid py
      (overlaySidecarIdentity py q.prepared q.vmid (q.endpointId py) record) = some q.vmid := by
    unfold storedVmid
    rw [hfields]
    dsimp only
    rw [hvmid, Vmid.stripInt_int hint]
  unfold Guest.key
  cases he : q.endpointId py with
  | some e =>
    rw [he] at hstored hfields
    have hpos : 0 < e := endpointId_pos he
    have hread : extractProxmoxEndpointId py
        (overlaySidecarIdentity py q.prepared q.vmid (some e) record) = some e := by
      have hcf : field "cf_proxmox_endpoint_id"
          (overlaySidecarIdentity py q.prepared q.vmid (some e) record) = .null := by
        rw [field_overlay (by decide), hsame "cf_proxmox_endpoint_id" (by decide),
          w.cfEndpoint_eq]
      have htop : field "proxmox_endpoint_id"
          (overlaySidecarIdentity py q.prepared q.vmid (some e) record) = .null := by
        rw [field_overlay (by decide), hsame "proxmox_endpoint_id" (by decide), w.endpoint_eq]
      have hnull : normalizePositiveInt py .null = none := by
        simp [normalizePositiveInt, Json.isNull]
      unfold extractProxmoxEndpointId
      dsimp only
      rw [hcf, htop, hnull, hfields]
      dsimp only
      rw [hendpoint e he, Vmid.normalizePositiveInt_int hint hpos]
      rfl
    simp [recordKey, extractEndpointAndProxmoxVmid, hread, hstored]
  | none =>
    rw [he] at hstored
    have hread : relationId py (field "cluster"
        (overlaySidecarIdentity py q.prepared q.vmid none record)) = some (some q.clusterId) := by
      rw [field_overlay (by decide), hsame "cluster" (by decide), w.cluster_eq, hcluster he]
    simp [recordKey, extractClusterAndProxmoxVmid, hread, hstored]

end Overlay

namespace Between

variable {w vm : StoredVm py} {a b : List Record} {r : Record} {p q : KindedGuest}

theorem ident (h : Between w a r b) : identOf py r = some w.id := by
  rw [h.same.identOf_eq]
  exact hasId_iff_ident.mp (w.hasId_iff.mpr rfl)

theorem hasId_self (h : Between w a r b) : hasId py w.id r = true := hasId_iff_ident.mpr h.ident

theorem hasId_front (h : Between w a r b) {x : Record} (hx : x ∈ a) : hasId py w.id x = false := by
  rw [← Bool.not_eq_true, hasId_iff_ident, ← h.ident]
  exact h.front x hx

theorem hasId_back (h : Between w a r b) {x : Record} (hx : x ∈ b) : hasId py w.id x = false := by
  rw [← Bool.not_eq_true, hasId_iff_ident, ← h.ident]
  exact h.back x hx

theorem before_eq (h : Between w a r b) : before py (a ++ r :: b) w.id = a := by
  unfold before
  rw [List.takeWhile_append_of_pos (fun x hx => by simp [h.hasId_front hx]),
    List.takeWhile_cons_of_neg (by simp [h.hasId_self]), List.append_nil]

theorem overlaid_eq (h : Between w a r b) : overlaid py (a ++ r :: b) w q =
    a ++ overlaySidecarIdentity py q.prepared q.vmid (q.endpointId py) r :: b := by
  have hkeep : ∀ l : List Record, (∀ x ∈ l, hasId py w.id x = false) → overlaid py l w q = l := by
    intro l hl
    unfold overlaid
    rw [List.map_congr_left (g := id) fun x hx => by simp [hl x hx], List.map_id]
  have hfront := hkeep a fun x hx => h.hasId_front hx
  have hback := hkeep b fun x hx => h.hasId_back hx
  unfold overlaid at hfront hback ⊢
  rw [List.map_append, List.map_cons, hfront, hback, if_pos h.hasId_self]

theorem carries_iff (h : Between w a r b) : Carries (a ++ r :: b) w q p ↔
    recordKey py (p.key py).1
      (overlaySidecarIdentity py q.prepared q.vmid (q.endpointId py) r) = some (p.key py).2 := by
  constructor
  · rintro ⟨record, hmem, hid, hkey⟩
    rcases List.mem_append.mp hmem with hfront | hcons
    · rw [h.hasId_front hfront] at hid
      contradiction
    · rcases List.mem_cons.mp hcons with rfl | hback
      · exact hkey
      · rw [h.hasId_back hback] at hid
        contradiction
  · intro hkey
    exact ⟨r, by simp, h.hasId_self, hkey⟩

end Between

/-- The candidates of a key, with the record between others. -/
theorem candidates_append_cons {a b : List Record} {r : Record} (scope : Scope) (key : ℤ × ℤ) :
    candidates py (a ++ r :: b) scope key =
      TypedPick.among (candidates py a scope key) (candidates py b scope key) r
        (recordKey py scope r = some key) := by
  unfold candidates TypedPick.among
  rw [List.filter_append, List.filter_cons, List.append_assoc]
  by_cases hkey : recordKey py scope r = some key
  · simp [hkey]
  · simp [hkey]

theorem matched_append_cons {a b : List Record} {r : Record} {p : KindedGuest} :
    matched py (a ++ r :: b) p.prepared = TypedPick.pick (extractProxmoxVmType py) p.kind.name
      (TypedPick.among (candidates py a (p.key py).1 (p.key py).2)
        (candidates py b (p.key py).1 (p.key py).2) r
        (recordKey py (p.key py).1 r = some (p.key py).2)) := by
  rw [matched_eq_pick, candidates_append_cons]

/-- The match stays exactly if the overlay does not disturb it. -/
theorem Between.matchedId_overlaid_iff {w : StoredVm py} {a b : List Record} {r : Record}
    {p q : KindedGuest} (h : Between w a r b) :
    matchedId py (overlaid py (a ++ r :: b) w q) p.prepared =
        matchedId py (a ++ r :: b) p.prepared ↔ Undisturbed (a ++ r :: b) w q p := by
  have hident : ∀ x, hasId py w.id x = true ↔ identOf py x = identOf py r := by
    intro x
    rw [hasId_iff_ident, h.ident]
  have hoverlay : identOf py (overlaySidecarIdentity py q.prepared q.vmid (q.endpointId py) r) =
      identOf py r := sameFields_overlay.identOf_eq
  have hkind : q.kind.name = p.kind.name ↔ q.kind = p.kind :=
    ⟨GuestKind.name_injective, congrArg GuestKind.name⟩
  have hfront : ∀ x ∈ candidates py a (p.key py).1 (p.key py).2,
      identOf py x ≠ identOf py r := by
    intro x hx
    exact h.front x ((mem_candidates py).mp hx).1
  have hback : ∀ x ∈ candidates py b (p.key py).1 (p.key py).2,
      identOf py x ≠ identOf py r := by
    intro x hx
    exact h.back x ((mem_candidates py).mp hx).1
  unfold matchedId
  rw [h.overlaid_eq, matched_append_cons, matched_append_cons,
    TypedPick.stays_iff hfront hback hoverlay extractProxmoxVmType_overlay]
  unfold TypedPick.Stays Undisturbed
  rw [← matched_append_cons, h.before_eq, h.carries_iff]
  cases hmatched : matched py (a ++ r :: b) p.prepared with
  | some x =>
    have hkey : recordKey py (p.key py).1 x = some (p.key py).2 := by
      rw [matched_eq_pick] at hmatched
      exact ((mem_candidates py).mp (TypedPick.pick_mem hmatched)).2
    have hother : identOf py x ≠ identOf py r ↔ hasId py w.id x = false := by
      rw [Ne, ← hident x, Bool.not_eq_true]
    dsimp only
    rw [hkind, ← hident x, hother, mem_candidates]
    simp only [hkey, and_true]
  | none =>
    have hothers : (candidates py (a ++ r :: b) (p.key py).1 (p.key py).2).filter
        (!hasId py w.id ·) = candidates py a (p.key py).1 (p.key py).2 ++
          candidates py b (p.key py).1 (p.key py).2 := by
      have hself : (if recordKey py (p.key py).1 r = some (p.key py).2 then [r] else []).filter
          (!hasId py w.id ·) = [] := by
        split_ifs
        · simp [h.hasId_self]
        · rfl
      have hkeep : ∀ l : List Record, (∀ x ∈ l, hasId py w.id x = false) →
          l.filter (!hasId py w.id ·) = l := by
        intro l hl
        rw [List.filter_eq_self]
        intro x hx
        rw [hl x hx, Bool.not_false]
      rw [candidates_append_cons, TypedPick.among, List.filter_append, List.filter_append, hself,
        hkeep _ fun x hx => h.hasId_front ((mem_candidates py).mp hx).1,
        hkeep _ fun x hx => h.hasId_back ((mem_candidates py).mp hx).1, List.append_nil]
    dsimp only
    rw [hothers, Ne, hkind]

end ProxboxApi.VmQueue
