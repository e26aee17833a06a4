import ProxboxApi.InterfaceIps
import Mathlib.Logic.Relation

/-! What a sync of the addresses of one interface may do to the IP records, in bulk and one by one,
and where both leave the same records. -/

namespace ProxboxApi.InterfaceIps

open DeviceEnsure (normalizedTagList)
open Relation (ReflTransGen)

def Interface.owner (iface : Interface) : String × ℕ := (vmInterface, iface.id)

/-- One step for an owner: its records change, an unassigned one becomes its own, or it gets a new
one. A careful step makes no new record where an unassigned one has the address. -/
inductive Step (owner : String × ℕ) (careful : Prop) : IpTable → IpTable → Prop
  | settle (t : IpTable) (g : IpRecord → IpRecord) (hid : ∀ r ∈ t.rows, (g r).id = r.id)
      (haddress : ∀ r ∈ t.rows, (g r).address = r.address)
      (hassigned : ∀ r ∈ t.rows, (g r).assigned = r.assigned)
      (hothers : ∀ r ∈ t.rows, r.assigned ≠ some owner → g r = r) :
      Step owner careful t { t with rows := t.rows.map g }
  | adopt (t : IpTable) (g : IpRecord → IpRecord) (r : IpRecord) (hr : r ∈ t.rows)
      (hid : (g r).id = r.id) (haddress : (g r).address = r.address) (hfree : r.assigned = none)
      (hassigned : (g r).assigned = some owner)
      (hown : ∀ r' ∈ t.rows, r'.address = r.address → r'.assigned ≠ some owner)
      (hothers : ∀ r' ∈ t.rows, r' ≠ r → g r' = r') :
      Step owner careful t { t with rows := t.rows.map g }
  | create (t : IpTable) (r : IpRecord) (hid : r.id = t.next) (hassigned : r.assigned = some owner)
      (hown : ∀ r' ∈ t.rows, r'.address = r.address →
        r'.assigned ≠ some owner ∧ (careful → r'.assigned ≠ none)) :
      Step owner careful t { rows := t.rows ++ [r], next := t.next + 1 }

/-- The owner has at most one record of the address. -/
def Single (owner : String × ℕ) (address : String) (t : IpTable) : Prop :=
  ∀ r ∈ t.rows, ∀ r' ∈ t.rows, r.address = address → r'.address = address →
    r.assigned = some owner → r'.assigned = some owner → r = r'

/-- What the steps of an owner leave: the records of others as they were, every record with its
address, and a new one only for an address which the owner had none of. -/
structure Frame (owner : String × ℕ) (careful : Prop) (t t' : IpTable) : Prop where
  next : t.next ≤ t'.next
  kept : ∀ r ∈ t.rows, ∃ r' ∈ t'.rows, r'.id = r.id ∧ r'.address = r.address ∧
    (r'.assigned = r.assigned ∨ r.assigned = none ∧ r'.assigned = some owner)
  others : ∀ r ∈ t.rows, r.assigned ≠ none → r.assigned ≠ some owner → r ∈ t'.rows
  created : ∀ r ∈ t'.rows, t.next ≤ r.id → r.assigned = some owner ∧
    ∀ r₀ ∈ t.rows, r₀.address = r.address →
      r₀.assigned ≠ some owner ∧ (careful → r₀.assigned ≠ none)
  single : ∀ address, Single owner address t → Single owner address t'

/-- The ids of the records are distinct, and below the next one. -/
structure Sound (t : IpTable) : Prop where
  ids : (t.rows.map IpRecord.id).Nodup
  next : ∀ r ∈ t.rows, r.id < t.next

variable {owner : String × ℕ} {careful : Prop} {t t' t'' : IpTable}

theorem Frame.refl (hsound : Sound t) : Frame owner careful t t where
  next := le_rfl
  kept r hr := ⟨r, hr, rfl, rfl, .inl rfl⟩
  others _ hr _ _ := hr
  created r hr hnew := absurd (hsound.next r hr) (by omega)
  single _ h := h

theorem Frame.settle (h : Frame owner careful t t') {g : IpRecord → IpRecord}
    (hid : ∀ r ∈ t'.rows, (g r).id = r.id) (haddress : ∀ r ∈ t'.rows, (g r).address = r.address)
    (hassigned : ∀ r ∈ t'.rows, (g r).assigned = r.assigned)
    (hothers : ∀ r ∈ t'.rows, r.assigned ≠ some owner → g r = r) :
    Frame owner careful t { t' with rows := t'.rows.map g } where
  next := h.next
  kept r hr := by
    obtain ⟨r', hr', hid', haddress', hassigned'⟩ := h.kept r hr
    refine ⟨g r', List.mem_map_of_mem hr', (hid r' hr').trans hid',
      (haddress r' hr').trans haddress', ?_⟩
    rw [hassigned r' hr']
    exact hassigned'
  others r hr hsome hne := by
    have hr' := h.others r hr hsome hne
    exact List.mem_map.mpr ⟨r, hr', hothers r hr' hne⟩
  created r hr hnew := by
    obtain ⟨r', hr', rfl⟩ := List.mem_map.mp hr
    rw [hid r' hr'] at hnew
    rw [haddress r' hr', hassigned r' hr']
    exact h.created r' hr' hnew
  single address hsingle := by
    intro r₁ h₁ r₂ h₂ ha₁ ha₂ ho₁ ho₂
    obtain ⟨r₁', h₁', rfl⟩ := List.mem_map.mp h₁
    obtain ⟨r₂', h₂', rfl⟩ := List.mem_map.mp h₂
    rw [haddress _ h₁'] at ha₁
    rw [haddress _ h₂'] at ha₂
    rw [hassigned _ h₁'] at ho₁
    rw [hassigned _ h₂'] at ho₂
    rw [h.single address hsingle r₁' h₁' r₂' h₂' ha₁ ha₂ ho₁ ho₂]

/-- A record that a step has made is not unassigned, so it is not adopted. -/
theorem Frame.adopt (h : Frame owner careful t t') {g : IpRecord → IpRecord} {r : IpRecord}
    (hid : (g r).id = r.id) (haddress : (g r).address = r.address)
    (hfree : r.assigned = none) (hassigned : (g r).assigned = some owner)
    (hown : ∀ r' ∈ t'.rows, r'.address = r.address → r'.assigned ≠ some owner)
    (hothers : ∀ r' ∈ t'.rows, r' ≠ r → g r' = r') :
    Frame owner careful t { t' with rows := t'.rows.map g } where
  next := h.next
  kept r₀ hr₀ := by
    obtain ⟨r', hr', hid', haddress', hassigned'⟩ := h.kept r₀ hr₀
    refine ⟨g r', List.mem_map_of_mem hr', ?_⟩
    by_cases heq : r' = r
    · subst heq
      refine ⟨hid.trans hid', haddress.trans haddress', ?_⟩
      rcases hassigned' with hsame | ⟨_, hmine⟩
      · exact .inr ⟨hsame ▸ hfree, hassigned⟩
      · rw [hfree] at hmine
        cases hmine
    · rw [hothers r' hr' heq]
      exact ⟨hid', haddress', hassigned'⟩
  others r₀ hr₀ hsome hne := by
    have hr' := h.others r₀ hr₀ hsome hne
    refine List.mem_map.mpr ⟨r₀, hr', hothers r₀ hr' ?_⟩
    rintro rfl
    exact hsome hfree
  created r₀ hr₀ hnew := by
    obtain ⟨r', hr', rfl⟩ := List.mem_map.mp hr₀
    by_cases heq : r' = r
    · subst heq
      rw [hid] at hnew
      have hmine := (h.created r' hr' hnew).1
      rw [hfree] at hmine
      cases hmine
    · rw [hothers r' hr' heq] at hnew ⊢
      exact h.created r' hr' hnew
  single address hsingle := by
    intro r₁ h₁ r₂ h₂ ha₁ ha₂ ho₁ ho₂
    obtain ⟨r₁', h₁', rfl⟩ := List.mem_map.mp h₁
    obtain ⟨r₂', h₂', rfl⟩ := List.mem_map.mp h₂
    by_cases heq₁ : r₁' = r
    · by_cases heq₂ : r₂' = r
      · rw [heq₁, heq₂]
      · subst heq₁
        rw [hothers r₂' h₂' heq₂] at ha₂ ho₂
        exact absurd ho₂ (hown r₂' h₂' (by rw [ha₂, ← ha₁, haddress]))
    · rw [hothers r₁' h₁' heq₁] at ha₁ ho₁ ⊢
      by_cases heq₂ : r₂' = r
      · subst heq₂
        exact absurd ho₁ (hown r₁' h₁' (by rw [ha₁, ← ha₂, haddress]))
      · rw [hothers r₂' h₂' heq₂] at ha₂ ho₂ ⊢
        exact h.single address hsingle r₁' h₁' r₂' h₂' ha₁ ha₂ ho₁ ho₂

theorem Frame.create (h : Frame owner careful t t') {r : IpRecord}
    (hassigned : r.assigned = some owner)
    (hown : ∀ r' ∈ t'.rows, r'.address = r.address →
      r'.assigned ≠ some owner ∧ (careful → r'.assigned ≠ none)) :
    Frame owner careful t { rows := t'.rows ++ [r], next := t'.next + 1 } where
  next := h.next.trans (Nat.le_succ _)
  kept r₀ hr₀ := by
    obtain ⟨r', hr', hface⟩ := h.kept r₀ hr₀
    exact ⟨r', List.mem_append_left _ hr', hface⟩
  others r₀ hr₀ hsome hne := List.mem_append_left _ (h.others r₀ hr₀ hsome hne)
  created r₁ hr₁ hnew := by
    rcases List.mem_append.mp hr₁ with hr₁ | hr₁
    · exact h.created r₁ hr₁ hnew
    · rw [List.mem_singleton.mp hr₁]
      refine ⟨hassigned, ?_⟩
      intro r₀ hr₀ haddress
      obtain ⟨r', hr', _, haddress', hassigned'⟩ := h.kept r₀ hr₀
      obtain ⟨hne, hcareful⟩ := hown r' hr' (haddress'.trans haddress)
      rcases hassigned' with hsame | ⟨_, hmine⟩
      · rw [← hsame]
        exact ⟨hne, hcareful⟩
      · exact absurd hmine hne
  single address hsingle := by
    intro r₁ h₁ r₂ h₂ ha₁ ha₂ ho₁ ho₂
    rcases List.mem_append.mp h₁ with h₁ | h₁
    · rcases List.mem_append.mp h₂ with h₂ | h₂
      · exact h.single address hsingle r₁ h₁ r₂ h₂ ha₁ ha₂ ho₁ ho₂
      · rw [List.mem_singleton.mp h₂] at ha₂
        exact absurd ho₁ (hown r₁ h₁ (ha₁.trans ha₂.symm)).1
    · rcases List.mem_append.mp h₂ with h₂ | h₂
      · rw [List.mem_singleton.mp h₁] at ha₁
        exact absurd ho₂ (hown r₂ h₂ (ha₂.trans ha₁.symm)).1
      · rw [List.mem_singleton.mp h₁, List.mem_singleton.mp h₂]

theorem Frame.step (h : Frame owner careful t t') (hstep : Step owner careful t' t'') :
    Frame owner careful t t'' := by
  cases hstep with
  | settle g hid haddress hassigned hothers => exact h.settle hid haddress hassigned hothers
  | adopt g r hr hid haddress hfree hassigned hown hothers =>
    exact h.adopt hid haddress hfree hassigned hown hothers
  | create r hid hassigned hown => exact h.create hassigned hown

/-- The steps of an owner keep the frame. -/
theorem frame_of_run (hsound : Sound t) (h : ReflTransGen (Step owner careful) t t') :
    Frame owner careful t t' := by
  induction h with
  | refl => exact Frame.refl hsound
  | tail _ hstep ih => exact ih.step hstep

/-- The owner has a record of the address. -/
def Holds (owner : String × ℕ) (address : String) (t : IpTable) : Prop :=
  ∃ r ∈ t.rows, r.address = address ∧ r.assigned = some owner

theorem Frame.holds {address : String} (h : Frame owner careful t t')
    (hholds : Holds owner address t) : Holds owner address t' := by
  obtain ⟨r, hr, rfl, hassigned⟩ := hholds
  obtain ⟨r', hr', _, haddress, hsame | ⟨hnone, _⟩⟩ := h.kept r hr
  · exact ⟨r', hr', haddress, hsame.trans hassigned⟩
  · rw [hassigned] at hnone
    cases hnone

/-- A sync of one payload: it takes steps of the interface and leaves it a record. -/
structure Sync (careful : Prop) (f : Payload → IpTable → IpTable) : Prop where
  sound : ∀ p t, Sound t → Sound (f p t)
  run : ∀ p t, Sound t → ReflTransGen (Step p.owner careful) t (f p t)
  holds : ∀ p t, Sound t → Holds p.owner p.address (f p t)

variable {f : Payload → IpTable → IpTable} {ps : List Payload}

theorem foldl_run (hsync : Sync careful f) (hps : ∀ p ∈ ps, p.owner = owner) (hsound : Sound t) :
    ReflTransGen (Step owner careful) t (ps.foldl (fun t p => f p t) t) := by
  induction ps generalizing t with
  | nil => exact .refl
  | cons p ps ih =>
    rw [List.forall_mem_cons] at hps
    rw [List.foldl_cons]
    have hrun := hsync.run p t hsound
    rw [hps.1] at hrun
    exact hrun.trans (ih hps.2 (hsync.sound p t hsound))

theorem foldl_frame (hsync : Sync careful f) (hps : ∀ p ∈ ps, p.owner = owner) (hsound : Sound t) :
    Frame owner careful t (ps.foldl (fun t p => f p t) t) :=
  frame_of_run hsound (foldl_run hsync hps hsound)

theorem foldl_holds (hsync : Sync careful f) (hps : ∀ p ∈ ps, p.owner = owner) (hsound : Sound t)
    {p : Payload} (hp : p ∈ ps) : Holds owner p.address (ps.foldl (fun t p => f p t) t) := by
  induction ps generalizing t with
  | nil => simp at hp
  | cons p' ps ih =>
    rw [List.forall_mem_cons] at hps
    rw [List.foldl_cons]
    have hsound' := hsync.sound p' t hsound
    rcases List.mem_cons.mp hp with rfl | hp
    · have hholds := hsync.holds p t hsound
      rw [hps.1] at hholds
      exact (foldl_frame hsync hps.2 hsound').holds hholds
    · exact ih hps.2 hsound' hp

section Paths

variable {py : Python} {parse : String → Option Host} {enabled : Bool}
  {flags : Option OverwriteFlags} {p : Payload} {r : IpRecord}

theorem key_eq_some_iff {address : String} {id : ℕ} :
    r.key = some (address, id) ↔ r.address = address ∧ r.assigned = some (vmInterface, id) := by
  unfold IpRecord.key
  rcases hassigned : r.assigned with _ | ⟨objectType, objectId⟩
  · simp
  · by_cases htype : objectType = vmInterface
    · simp [htype]
    · simp [htype]

/-- A field that was patched is not patched into anything else. -/
theorem patched_twice {α : Type} (g : α → Bool) (current desired : α) :
    (if g (if g current then desired else current) then desired
      else if g current then desired else current) = if g current then desired else current := by
  by_cases h : g current = true
  · rw [if_pos h, ite_self]
  · rw [if_neg h, if_neg h]

theorem settled_settled (f : IpFields) (p : Payload) (r : IpRecord) :
    settled py f p (settled py f p r) = settled py f p r := by
  have hstatus := patched_twice
    (fun s => patched f.status (normalizeStatus py s) "active") r.status "active"
  have hdnsName := patched_twice
    (fun s => patched f.dnsName (normalizeDnsName py s) p.dnsName) r.dnsName p.dnsName
  have htags := patched_twice
    (fun s => patched f.tags (normalizedTagList s) p.tags) r.tags p.tags
  have hlastUpdated := patched_twice
    (fun _ => patched f.customFields none p.lastUpdated) r.lastUpdated p.lastUpdated
  simp only [settled, IpRecord.mk.injEq]
  exact ⟨trivial, trivial, trivial, hstatus, hdnsName, htags, hlastUpdated⟩

theorem settled_record (f : IpFields) (p : Payload) (id : ℕ) :
    settled py f p (p.record id) = p.record id := by
  unfold settled Payload.record
  simp only [ite_self]

theorem bulkSpec_stable (py : Python) (f : IpFields) : (bulkSpec py f).Stable where
  make _ _ := rfl
  change _ _ := rfl
  change_key _ _ _ := rfl
  make_key id p := (key_eq_some_iff (r := p.record id)).mpr ⟨rfl, rfl⟩
  change_change := settled_settled f
  change_make id p := settled_record f p id

/-- The reconciliation of payloads of which some custom fields are left out first. -/
def sentSpec (py : Python) (enabled : Bool) (flags : Option OverwriteFlags) :
    FirstMatch.Spec IpRecord Payload (String × ℕ) :=
  (bulkSpec py (patchableFields enabled flags)).comap (sent enabled flags)

theorem sentSpec_stable (py : Python) (enabled : Bool) (flags : Option OverwriteFlags) :
    (sentSpec py enabled flags).Stable :=
  (bulkSpec_stable py (patchableFields enabled flags)).comap (sent enabled flags)

theorem bulkReconcileVmInterfaceIps_eq (py : Python) (enabled : Bool)
    (flags : Option OverwriteFlags) (ps : List Payload) (t : IpTable) :
    bulkReconcileVmInterfaceIps py enabled flags ps t = (sentSpec py enabled flags).bulk t ps :=
  FirstMatch.bulk_map t ps

theorem sent_eq (enabled : Bool) (flags : Option OverwriteFlags) (p : Payload) :
    ∃ lastUpdated, sent enabled flags p = { p with lastUpdated := lastUpdated } := by
  unfold sent legacyCustomFieldsPayload
  split
  · exact ⟨p.lastUpdated, rfl⟩
  · exact ⟨none, rfl⟩

@[simp]
theorem sent_address (enabled : Bool) (flags : Option OverwriteFlags) (p : Payload) :
    (sent enabled flags p).address = p.address := by
  obtain ⟨lastUpdated, h⟩ := sent_eq enabled flags p
  rw [h]

@[simp]
theorem sent_owner (enabled : Bool) (flags : Option OverwriteFlags) (p : Payload) :
    (sent enabled flags p).owner = p.owner := by
  obtain ⟨lastUpdated, h⟩ := sent_eq enabled flags p
  rw [h]
  rfl

theorem sentSpec_key (p : Payload) :
    (sentSpec py enabled flags).key p = (p.address, p.interfaceId) := by
  change ((sent enabled flags p).address, (sent enabled flags p).interfaceId) = _
  obtain ⟨lastUpdated, h⟩ := sent_eq enabled flags p
  rw [h]

theorem Sound.bulk (hsound : Sound t) : (sentSpec py enabled flags).Sound t :=
  ⟨hsound.ids, hsound.next⟩

theorem sound_bulk (hsound : Sound t) (py : Python) (enabled : Bool)
    (flags : Option OverwriteFlags) (ps : List Payload) :
    Sound (bulkReconcileVmInterfaceIps py enabled flags ps t) := by
  rw [bulkReconcileVmInterfaceIps_eq]
  have h := FirstMatch.bulk_sound (sentSpec_stable py enabled flags).toLawful hsound.bulk ps
  exact ⟨h.ids, h.next⟩

theorem mem_of_matched (h : (sentSpec py enabled flags).matched t.rows p = some r) :
    r ∈ t.rows ∧ r.address = p.address ∧ r.assigned = some p.owner := by
  obtain ⟨hr, hkey⟩ := FirstMatch.mem_of_matched h
  rw [sentSpec_key] at hkey
  exact ⟨hr, key_eq_some_iff.mp hkey⟩

theorem matched_eq_none_iff : (sentSpec py enabled flags).matched t.rows p = none ↔
    ∀ r ∈ t.rows, r.address = p.address → r.assigned ≠ some p.owner := by
  rw [FirstMatch.matched_eq_none_iff]
  refine forall₂_congr fun r _ => ?_
  rw [sentSpec_key]
  change r.key ≠ some (p.address, p.interfaceId) ↔ _
  rw [Ne, key_eq_some_iff, not_and]
  rfl

variable (py enabled flags) in
/-- The payload alone in bulk, where the interface has no record of its address. -/
theorem bulk_of_new (hsound : Sound t)
    (hown : ∀ r ∈ t.rows, r.address = p.address → r.assigned ≠ some p.owner) :
    bulkReconcileVmInterfaceIps py enabled flags [p] t =
      { rows := t.rows ++ [(sent enabled flags p).record t.next], next := t.next + 1 } := by
  rw [bulkReconcileVmInterfaceIps_eq]
  exact FirstMatch.bulk_singleton_of_none (sentSpec_stable py enabled flags).toLawful hsound.bulk
    (matched_eq_none_iff.mpr hown)

/-- With the setting and without flags nothing of a payload is left out. -/
theorem bulk_of_new_whole (hsound : Sound t)
    (hown : ∀ r ∈ t.rows, r.address = p.address → r.assigned ≠ some p.owner) :
    bulkReconcileVmInterfaceIps py true none [p] t =
      { rows := t.rows ++ [p.record t.next], next := t.next + 1 } :=
  bulk_of_new py true none hsound hown

/-- The payload alone in bulk, where the interface has a record of its address. -/
theorem bulk_of_own (hsound : Sound t) (h : (sentSpec py enabled flags).matched t.rows p = some r) :
    bulkReconcileVmInterfaceIps py enabled flags [p] t =
      { t with rows := t.rows.map ((sentSpec py enabled flags).touched p r) } := by
  rw [bulkReconcileVmInterfaceIps_eq]
  exact FirstMatch.bulk_singleton_of_some (sentSpec_stable py enabled flags).toLawful hsound.bulk h

/-- What the bulk sync makes of a record keeps its id, its address and its assignment. -/
theorem touched_face (r' : IpRecord) :
    ((sentSpec py enabled flags).touched p r r').id = r'.id ∧
      ((sentSpec py enabled flags).touched p r r').address = r'.address ∧
      ((sentSpec py enabled flags).touched p r r').assigned = r'.assigned := by
  unfold FirstMatch.Spec.touched
  split <;> exact ⟨rfl, rfl, rfl⟩

theorem Sound.eq_of_id (hsound : Sound t) {r' : IpRecord} (hr : r ∈ t.rows) (hr' : r' ∈ t.rows)
    (h : r.id = r'.id) : r = r' :=
  List.inj_on_of_nodup_map hsound.ids hr hr' h

theorem step_of_own (hsound : Sound t) (h : (sentSpec py enabled flags).matched t.rows p = some r) :
    Step p.owner careful t (bulkReconcileVmInterfaceIps py enabled flags [p] t) := by
  obtain ⟨hr, _, hassigned⟩ := mem_of_matched h
  rw [bulk_of_own hsound h]
  apply Step.settle
  · intro r' _
    exact (touched_face r').1
  · intro r' _
    exact (touched_face r').2.1
  · intro r' _
    exact (touched_face r').2.2
  · intro r' hr' hne
    apply FirstMatch.touched_of_ne
    intro hid
    rw [hsound.eq_of_id hr' hr hid] at hne
    exact hne hassigned

theorem bulk_sync (py : Python) (enabled : Bool) (flags : Option OverwriteFlags) :
    Sync False fun p t => bulkReconcileVmInterfaceIps py enabled flags [p] t where
  sound p t hsound := sound_bulk hsound py enabled flags [p]
  run p t hsound := by
    apply ReflTransGen.single
    cases hmatched : (sentSpec py enabled flags).matched t.rows p with
    | none =>
      have hown := matched_eq_none_iff.mp hmatched
      rw [bulk_of_new py enabled flags hsound hown]
      apply Step.create
      · rfl
      · exact congrArg some (sent_owner enabled flags p)
      · intro r' hr' haddress
        exact ⟨hown r' hr' (haddress.trans (sent_address enabled flags p)), False.elim⟩
    | some r => exact step_of_own hsound hmatched
  holds p t hsound := by
    cases hmatched : (sentSpec py enabled flags).matched t.rows p with
    | none =>
      rw [bulk_of_new py enabled flags hsound (matched_eq_none_iff.mp hmatched)]
      exact ⟨(sent enabled flags p).record t.next,
        List.mem_append_right _ (List.mem_singleton_self _), sent_address enabled flags p,
        congrArg some (sent_owner enabled flags p)⟩
    | some r =>
      obtain ⟨hr, haddress, hassigned⟩ := mem_of_matched hmatched
      have hstep : Step p.owner False t (bulkReconcileVmInterfaceIps py enabled flags [p] t) :=
        step_of_own hsound hmatched
      exact ((Frame.refl hsound).step hstep).holds ⟨r, hr, haddress, hassigned⟩

variable (py enabled flags) in
/-- The record of the interface that is chosen for a payload is the one of its key. -/
theorem find?_owns (p : Payload) (rows : List IpRecord) :
    (rows.filter fun r => r.address = p.address).find? p.owns =
      (sentSpec py enabled flags).matched rows p := by
  rw [List.find?_filter, FirstMatch.Spec.matched]
  congr 1
  funext r
  rw [Bool.eq_iff_iff, FirstMatch.hits_iff, decide_eq_true_eq, Payload.owns, decide_eq_true_eq,
    decide_eq_true_eq, sentSpec_key]
  exact key_eq_some_iff.symm

theorem Sound.find?_id (hsound : Sound t) (hr : r ∈ t.rows) :
    t.rows.find? (fun r' => r'.id = r.id) = some r := by
  cases hfind : t.rows.find? fun r' => r'.id = r.id with
  | none =>
    rw [List.find?_eq_none] at hfind
    exact absurd (decide_eq_true rfl) (hfind r hr)
  | some r' =>
    have hid : r'.id = r.id := by simpa using List.find?_some hfind
    rw [hsound.eq_of_id (List.mem_of_find?_eq_some hfind) hr hid]

theorem differs_owned (hassigned : r.assigned = some p.owner) : p.owns r = true := by
  rw [Payload.owns, decide_eq_true_eq, hassigned]

/-- Where the interface has a record of the address, both paths change that one. -/
theorem reconcileInterfaceIp_of_own (hsound : Sound t)
    (h : (sentSpec py true none).matched t.rows p = some r) :
    reconcileInterfaceIp py p t = bulkReconcileVmInterfaceIps py true none [p] t := by
  obtain ⟨hr, _, hassigned⟩ := mem_of_matched h
  have htarget : p.target t.rows = some r := by
    rw [Payload.target, find?_owns py true none, h, Option.some_or]
  have htouched : (sentSpec py true none).touched p r r =
      if differs py .all p r then settled py .all p r else r := FirstMatch.touched_self
  rw [reconcileInterfaceIp, htarget, bulk_of_own hsound h]
  dsimp only
  rw [reconcile, hsound.find?_id hr]
  dsimp only
  rw [differs_owned hassigned, Bool.not_true, Bool.or_false]
  by_cases hdiffers : differs py .all p r = true
  · rw [if_pos hdiffers]
    congr 1
    apply List.map_congr_left
    intro r' hr'
    by_cases hid : r'.id = r.id
    · obtain rfl := hsound.eq_of_id hr' hr hid
      rw [if_pos rfl, htouched, if_pos hdiffers, adopted, ← hassigned]
      rfl
    · rw [if_neg hid, FirstMatch.touched_of_ne hid]
  · rw [if_neg hdiffers]
    have hsame : t.rows.map ((sentSpec py true none).touched p r) = t.rows := by
      refine (List.map_congr_left ?_).trans (List.map_id _)
      intro r' hr'
      by_cases hid : r'.id = r.id
      · obtain rfl := hsound.eq_of_id hr' hr hid
        rw [htouched, if_neg hdiffers]
        rfl
      · exact FirstMatch.touched_of_ne hid
    rw [hsame]

/-- An address without a record of the interface and without an unassigned one gets a new one. -/
theorem reconcileInterfaceIp_of_new
    (hown : ∀ r ∈ t.rows, r.address = p.address → r.assigned ≠ some p.owner)
    (hfree : ∀ r ∈ t.rows, r.address = p.address → r.assigned ≠ none) :
    reconcileInterfaceIp py p t = { rows := t.rows ++ [p.record t.next], next := t.next + 1 } := by
  have htarget : p.target t.rows = none := by
    rw [Payload.target, find?_owns py true none, matched_eq_none_iff.mpr hown,
      Option.none_or, List.find?_eq_none]
    intro r hr
    obtain ⟨hr, haddress⟩ := List.mem_filter.mp hr
    rw [IpRecord.adoptable, decide_eq_true_eq]
    exact hfree r hr (of_decide_eq_true haddress)
  have hlookup : t.rows.find? (fun r' => r'.address = p.address && p.owns r') = none := by
    rw [List.find?_eq_none]
    intro r hr h
    rw [Bool.and_eq_true, decide_eq_true_eq, Payload.owns, decide_eq_true_eq] at h
    exact hown r hr h.1 h.2
  rw [reconcileInterfaceIp, htarget]
  dsimp only
  rw [reconcile, hlookup]

variable (py) in
/-- An address without a record of the interface takes an unassigned one. -/
theorem reconcileInterfaceIp_of_free (hsound : Sound t)
    (hown : ∀ r ∈ t.rows, r.address = p.address → r.assigned ≠ some p.owner)
    (hfree : ∃ r ∈ t.rows, r.address = p.address ∧ r.assigned = none) :
    ∃ r ∈ t.rows, r.address = p.address ∧ r.assigned = none ∧ reconcileInterfaceIp py p t =
      { t with rows := t.rows.map fun r' => if r'.id = r.id then adopted py p r' else r' } := by
  obtain ⟨r₀, hr₀, haddress₀, hfree₀⟩ := hfree
  cases hfind : (t.rows.filter fun r => r.address = p.address).find? IpRecord.adoptable with
  | none =>
    rw [List.find?_eq_none] at hfind
    have hmem : r₀ ∈ t.rows.filter fun r => r.address = p.address :=
      List.mem_filter.mpr ⟨hr₀, decide_eq_true haddress₀⟩
    exact absurd (decide_eq_true hfree₀) (hfind r₀ hmem)
  | some r =>
    obtain ⟨hr, haddress⟩ := List.mem_filter.mp (List.mem_of_find?_eq_some hfind)
    have hnone : r.adoptable = true := List.find?_some hfind
    rw [IpRecord.adoptable, decide_eq_true_eq] at hnone
    refine ⟨r, hr, of_decide_eq_true haddress, hnone, ?_⟩
    have htarget : p.target t.rows = some r := by
      rw [Payload.target, find?_owns py true none, matched_eq_none_iff.mpr hown,
        Option.none_or, hfind]
    have howns : p.owns r = false := by
      rw [Payload.owns, hnone]
      rfl
    rw [reconcileInterfaceIp, htarget]
    dsimp only
    rw [reconcile, hsound.find?_id hr]
    dsimp only
    rw [howns, Bool.not_false, Bool.or_true, if_pos rfl]

theorem adopt_sound (hsound : Sound t) (p : Payload) (r : IpRecord) : Sound { t with
    rows := t.rows.map fun r' => if r'.id = r.id then adopted py p r' else r' } := by
  have hid : ∀ r' : IpRecord, (if r'.id = r.id then adopted py p r' else r').id = r'.id := by
    intro r'
    split <;> rfl
  constructor
  · have hids := hsound.ids
    rw [List.map_map]
    convert hids using 1
    apply List.map_congr_left
    intro r' _
    exact hid r'
  · intro r' hr'
    obtain ⟨r'', hr'', rfl⟩ := List.mem_map.mp hr'
    rw [hid r'']
    exact hsound.next r'' hr''

theorem adopt_step (hsound : Sound t) (hr : r ∈ t.rows) (haddress : r.address = p.address)
    (hfree : r.assigned = none)
    (hown : ∀ r ∈ t.rows, r.address = p.address → r.assigned ≠ some p.owner) :
    Step p.owner careful t { t with
      rows := t.rows.map fun r' => if r'.id = r.id then adopted py p r' else r' } := by
  apply Step.adopt t _ r hr
  · rw [if_pos rfl]
    rfl
  · rw [if_pos rfl]
    rfl
  · exact hfree
  · rw [if_pos rfl]
    rfl
  · intro r' hr' heq
    exact hown r' hr' (heq.trans haddress)
  · intro r' hr' hne
    rw [if_neg fun hid => hne (hsound.eq_of_id hr' hr hid)]

/-- What `_reconcile_interface_ip` does, by the records of the address. -/
theorem each_sync (py : Python) : Sync True (reconcileInterfaceIp py) where
  sound p t hsound := by
    cases hmatched : (sentSpec py true none).matched t.rows p with
    | some r =>
      rw [reconcileInterfaceIp_of_own hsound hmatched]
      exact (bulk_sync py true none).sound p t hsound
    | none =>
      have hown := matched_eq_none_iff.mp hmatched
      by_cases hfree : ∃ r ∈ t.rows, r.address = p.address ∧ r.assigned = none
      · obtain ⟨r, _, _, _, heq⟩ := reconcileInterfaceIp_of_free py hsound hown hfree
        rw [heq]
        exact adopt_sound hsound p r
      · push Not at hfree
        rw [reconcileInterfaceIp_of_new hown hfree, ← bulk_of_new_whole hsound hown]
        exact (bulk_sync py true none).sound p t hsound
  run p t hsound := by
    apply ReflTransGen.single
    cases hmatched : (sentSpec py true none).matched t.rows p with
    | some r =>
      rw [reconcileInterfaceIp_of_own hsound hmatched]
      exact step_of_own hsound hmatched
    | none =>
      have hown := matched_eq_none_iff.mp hmatched
      by_cases hfree : ∃ r ∈ t.rows, r.address = p.address ∧ r.assigned = none
      · obtain ⟨r, hr, haddress, hnone, heq⟩ :=
          reconcileInterfaceIp_of_free py hsound hown hfree
        rw [heq]
        exact adopt_step hsound hr haddress hnone hown
      · push Not at hfree
        rw [reconcileInterfaceIp_of_new hown hfree]
        exact .create t _ rfl rfl fun r' hr' haddress =>
          ⟨hown r' hr' haddress, fun _ => hfree r' hr' haddress⟩
  holds p t hsound := by
    cases hmatched : (sentSpec py true none).matched t.rows p with
    | some r =>
      rw [reconcileInterfaceIp_of_own hsound hmatched]
      exact (bulk_sync py true none).holds p t hsound
    | none =>
      have hown := matched_eq_none_iff.mp hmatched
      by_cases hfree : ∃ r ∈ t.rows, r.address = p.address ∧ r.assigned = none
      · obtain ⟨r, hr, haddress, _, heq⟩ :=
          reconcileInterfaceIp_of_free py hsound hown hfree
        rw [heq]
        refine ⟨adopted py p r, List.mem_map.mpr ⟨r, hr, if_pos rfl⟩, haddress, rfl⟩
      · push Not at hfree
        rw [reconcileInterfaceIp_of_new hown hfree,
          ← bulk_of_new_whole hsound hown]
        exact (bulk_sync py true none).holds p t hsound

variable {iface : Interface} {addresses : List String} {ps : List Payload}

/-- The payloads of the addresses that a guest reports on an interface. -/
def payloads (py : Python) (parse : String → Option Host) (iface : Interface)
    (addresses : List String) : List Payload :=
  addresses.filterMap (buildVmInterfaceIpPayload py parse iface)

theorem eq_payloadOf (h : p ∈ payloads py parse iface addresses) :
    p = payloadOf py iface p.address := by
  obtain ⟨address, _, hbuild⟩ := List.mem_filterMap.mp h
  obtain ⟨cleaned, _, rfl⟩ := Option.map_eq_some_iff.mp hbuild
  rfl

theorem owner_payloads : ∀ p ∈ payloads py parse iface addresses, p.owner = iface.owner := by
  intro p hp
  rw [eq_payloadOf hp]
  rfl

/-- The payloads of one interface differ in their addresses only. -/
theorem payloads_uniform :
    (sentSpec py enabled flags).Uniform (payloads py parse iface addresses) := by
  intro p hp p' hp' hkey
  rw [sentSpec_key, sentSpec_key] at hkey
  have haddress : p.address = p'.address := congrArg Prod.fst hkey
  rw [eq_payloadOf hp, eq_payloadOf hp', haddress]

variable (py parse iface addresses) in
/-- The payloads of an interface do in bulk what they do one by one. -/
theorem bulk_payloads (hsound : Sound t) (enabled : Bool) (flags : Option OverwriteFlags) :
    bulkReconcileVmInterfaceIps py enabled flags (payloads py parse iface addresses) t =
      (payloads py parse iface addresses).foldl
        (fun t p => bulkReconcileVmInterfaceIps py enabled flags [p] t) t := by
  simp only [bulkReconcileVmInterfaceIps_eq]
  exact FirstMatch.bulk_eq_foldl (sentSpec_stable py enabled flags) hsound.bulk payloads_uniform

/-- An unassigned record of an address that is reported stands beside one of the interface. -/
def Beside (owner : String × ℕ) (ps : List Payload) (t : IpTable) : Prop :=
  ∀ p ∈ ps, (∃ r ∈ t.rows, r.address = p.address ∧ r.assigned = none) →
    Holds owner p.address t

/-- The step of one payload in bulk unassigns nothing. -/
theorem free_of_bulk (hsound : Sound t)
    (hr : r ∈ (bulkReconcileVmInterfaceIps py enabled flags [p] t).rows)
    (hnone : r.assigned = none) :
    ∃ r₀ ∈ t.rows, r₀.address = r.address ∧ r₀.assigned = none := by
  cases hmatched : (sentSpec py enabled flags).matched t.rows p with
  | none =>
    rw [bulk_of_new py enabled flags hsound (matched_eq_none_iff.mp hmatched)] at hr
    rcases List.mem_append.mp hr with hr | hr
    · exact ⟨r, hr, rfl, hnone⟩
    · rw [List.mem_singleton.mp hr] at hnone
      cases hnone
  | some r₁ =>
    rw [bulk_of_own hsound hmatched] at hr
    obtain ⟨r₀, hr₀, rfl⟩ := List.mem_map.mp hr
    have hface : ((sentSpec py enabled flags).touched p r₁ r₀).address = r₀.address ∧
        ((sentSpec py enabled flags).touched p r₁ r₀).assigned = r₀.assigned :=
      (touched_face r₀).2
    rw [hface.2] at hnone
    exact ⟨r₀, hr₀, hface.1.symm, hnone⟩

variable (py) in
theorem foldl_agree (hsound : Sound t) (hps : ∀ p ∈ ps, p.owner = iface.owner)
    (hbeside : Beside iface.owner ps t) :
    ps.foldl (fun t p => bulkReconcileVmInterfaceIps py true none [p] t) t =
      reconcileEach py ps t := by
  induction ps generalizing t with
  | nil => rfl
  | cons p ps ih =>
    rw [List.forall_mem_cons] at hps
    have hone : reconcileInterfaceIp py p t = bulkReconcileVmInterfaceIps py true none [p] t := by
      cases hmatched : (sentSpec py true none).matched t.rows p with
      | some r => exact reconcileInterfaceIp_of_own hsound hmatched
      | none =>
        have hown := matched_eq_none_iff.mp hmatched
        rw [bulk_of_new_whole hsound hown]
        apply reconcileInterfaceIp_of_new hown
        intro r hr haddress hnone
        obtain ⟨r', hr', haddress', hassigned'⟩ :=
          hbeside p (List.mem_cons_self ..) ⟨r, hr, haddress, hnone⟩
        exact hown r' hr' haddress' (by rw [hps.1, hassigned'])
    have hsound' := (bulk_sync py true none).sound p t hsound
    have hbeside' : Beside iface.owner ps (bulkReconcileVmInterfaceIps py true none [p] t) := by
      intro p' hp' hfree
      obtain ⟨r, hr, haddress, hnone⟩ := hfree
      obtain ⟨r₀, hr₀, haddress₀, hnone₀⟩ := free_of_bulk hsound hr hnone
      have hholds := hbeside p' (List.mem_cons_of_mem _ hp')
        ⟨r₀, hr₀, haddress₀.trans haddress, hnone₀⟩
      have hrun := (bulk_sync py true none).run p t hsound
      rw [hps.1] at hrun
      exact (frame_of_run hsound hrun).holds hholds
    rw [List.foldl_cons, reconcileEach, List.foldl_cons, hone]
    exact ih hsound' hps.2 hbeside'

/-- What the flags and the setting do not decide of a record. -/
def IpRecord.face (r : IpRecord) : ℕ × String × Option (String × ℕ) :=
  (r.id, r.address, r.assigned)

/-- A record without the time of its last update. -/
def IpRecord.undated (r : IpRecord) : IpRecord := { r with lastUpdated := none }

theorem face_change (enabled : Bool) (flags : Option OverwriteFlags) (p : Payload)
    (r : IpRecord) : (if (sentSpec py enabled flags).differs p r then
      (sentSpec py enabled flags).change p r else r).face = r.face := by
  split <;> rfl

theorem face_make (enabled : Bool) (flags : Option OverwriteFlags) (id : ℕ) (p : Payload) :
    ((sentSpec py enabled flags).make id p).face = (p.record id).face := by
  change (id, (sent enabled flags p).address, some (sent enabled flags p).owner) = _
  rw [sent_address, sent_owner]
  rfl

theorem ite_patched {α β : Type} [DecidableEq α] {allowed : Bool} {current desired : α} {x y : β}
    (h : patched allowed current desired = false) :
    (if patched allowed current desired then x else y) = y := by
  rw [h]
  rfl

/-- Without flags the setting decides the time of the last update only. -/
theorem undated_change (enabled : Bool) (p : Payload) (r : IpRecord) :
    (if (sentSpec py enabled none).differs p r then
      (sentSpec py enabled none).change p r else r).undated =
      (settled py .all p r).undated := by
  obtain ⟨lastUpdated, hsent⟩ := sent_eq enabled none p
  change (if differs py (patchableFields enabled none) (sent enabled none p) r then
    settled py (patchableFields enabled none) (sent enabled none p) r else r).undated = _
  rw [hsent]
  by_cases hdiffers : differs py (patchableFields enabled none)
      { p with lastUpdated := lastUpdated } r = true
  · rw [if_pos hdiffers]
    rfl
  · rw [if_neg hdiffers]
    unfold differs at hdiffers
    simp only [Bool.or_eq_true, not_or, Bool.not_eq_true] at hdiffers
    obtain ⟨⟨⟨hstatus, hdnsName⟩, htags⟩, -⟩ := hdiffers
    unfold settled IpRecord.undated
    simp only [IpRecord.mk.injEq]
    exact ⟨trivial, trivial, trivial, (ite_patched hstatus).symm, (ite_patched hdnsName).symm,
      (ite_patched htags).symm, trivial⟩

theorem undated_make (enabled : Bool) (id : ℕ) (p : Payload) :
    ((sentSpec py enabled none).make id p).undated = (p.record id).undated := by
  obtain ⟨lastUpdated, hsent⟩ := sent_eq enabled none p
  change ((sent enabled none p).record id).undated = _
  rw [hsent]
  rfl

theorem key_sentSpec_eq (enabled : Bool) (flags : Option OverwriteFlags) :
    (sentSpec py enabled flags).key = (sentSpec py true none).key := by
  funext p
  rw [sentSpec_key, sentSpec_key]

/-- Neither the flags nor the setting decide which records there are nor what they are assigned
to. -/
theorem bulk_face (hsound : Sound t) (enabled : Bool) (flags : Option OverwriteFlags)
    (ps : List Payload) :
    (bulkReconcileVmInterfaceIps py enabled flags ps t).rows.map IpRecord.face =
      (bulkReconcileVmInterfaceIps py true none ps t).rows.map IpRecord.face := by
  rw [bulkReconcileVmInterfaceIps_eq, bulkReconcileVmInterfaceIps_eq]
  apply FirstMatch.view_bulk (sentSpec_stable py true none).toLawful
    (sentSpec_stable py enabled flags).toLawful hsound.bulk rfl rfl (key_sentSpec_eq enabled flags)
  · intro p r
    rw [face_change, face_change]
  · intro id p
    rw [face_make, face_make]

/-- Without flags the setting decides nothing but the times. -/
theorem bulk_undated (hsound : Sound t) (enabled : Bool) (ps : List Payload) :
    (bulkReconcileVmInterfaceIps py enabled none ps t).rows.map IpRecord.undated =
      (bulkReconcileVmInterfaceIps py true none ps t).rows.map IpRecord.undated := by
  rw [bulkReconcileVmInterfaceIps_eq, bulkReconcileVmInterfaceIps_eq]
  apply FirstMatch.view_bulk (sentSpec_stable py true none).toLawful
    (sentSpec_stable py enabled none).toLawful hsound.bulk rfl rfl (key_sentSpec_eq enabled none)
  · intro p r
    rw [undated_change, undated_change]
  · intro id p
    rw [undated_make, undated_make]

/-- Both syncs keep the records of other objects, give every reported address one record of the
interface, and leave the same records where no address has only an unassigned one for it. -/
theorem interface_ips_agree (py : Python) (parse : String → Option Host) (t : IpTable)
    (hsound : Sound t) (iface : Interface) (addresses : List String) (enabled : Bool)
    (flags : Option OverwriteFlags) :
    let ps := payloads py parse iface addresses
    let bulk := bulkReconcileVmInterfaceIps py enabled flags ps t
    let each := reconcileEach py ps t
    Frame iface.owner False t bulk ∧ Frame iface.owner True t each ∧
      (∀ p ∈ ps, Holds iface.owner p.address bulk ∧ Holds iface.owner p.address each) ∧
      (Beside iface.owner ps t →
        bulkReconcileVmInterfaceIps py true none ps t = each ∧
          (bulkReconcileVmInterfaceIps py enabled none ps t).rows.map IpRecord.undated =
            each.rows.map IpRecord.undated ∧
          bulk.rows.map IpRecord.face = each.rows.map IpRecord.face) := by
  dsimp only
  have hbulk := bulk_payloads py parse iface addresses hsound
  refine ⟨?_, foldl_frame (each_sync py) owner_payloads hsound, ?_, ?_⟩
  · rw [hbulk enabled flags]
    exact foldl_frame (bulk_sync py enabled flags) owner_payloads hsound
  · intro p hp
    rw [hbulk enabled flags]
    exact ⟨foldl_holds (bulk_sync py enabled flags) owner_payloads hsound hp,
      foldl_holds (each_sync py) owner_payloads hsound hp⟩
  · intro hbeside
    have hagree := foldl_agree py hsound owner_payloads hbeside
    rw [← hbulk true none] at hagree
    rw [bulk_face hsound enabled flags, bulk_undated hsound enabled, hagree]
    exact ⟨rfl, rfl, rfl⟩

end Paths

section ForeignAddress

/-- An interface whose guest reports an address that another interface has. -/
def Interface.sample : Interface := ⟨5, some "web1", [], true, "2024-05-01T12:00:00"⟩

def foreignTable : IpTable :=
  ⟨[⟨1, "10.0.0.5/24", some (vmInterface, 9), "active", "", [], none⟩], 2⟩

/-- Host addresses in their canonical form, none of them a loopback address. -/
def canonical (s : String) : Option Host := some ⟨false, false, s⟩

theorem foreignTable_sound : Sound foreignTable := ⟨by decide, by decide⟩

theorem interface_ips_agree_foreign : Sound foreignTable ∧
    bulkReconcileVmInterfaceIps Python.ascii true none
        (payloads Python.ascii canonical .sample ["10.0.0.5/24"]) foreignTable =
      reconcileEach Python.ascii (payloads Python.ascii canonical .sample ["10.0.0.5/24"])
        foreignTable := by
  refine ⟨foreignTable_sound, ((interface_ips_agree Python.ascii canonical foreignTable
    foreignTable_sound .sample ["10.0.0.5/24"] false none).2.2.2 ?_).1⟩
  rintro p _ ⟨r, hr, _, hnone⟩
  rw [List.mem_singleton.mp hr] at hnone
  cases hnone

/-- Both paths make a second record of an address that another interface has. -/
theorem foreign_address_duplicated :
    (bulkReconcileVmInterfaceIps Python.ascii false none
        (payloads Python.ascii canonical .sample ["10.0.0.5/24"]) foreignTable).rows.map
          IpRecord.face =
      [(1, "10.0.0.5/24", some (vmInterface, 9)), (2, "10.0.0.5/24", some (vmInterface, 5))] ∧
    (reconcileEach Python.ascii (payloads Python.ascii canonical .sample ["10.0.0.5/24"])
        foreignTable).rows.map IpRecord.face =
      [(1, "10.0.0.5/24", some (vmInterface, 9)), (2, "10.0.0.5/24", some (vmInterface, 5))] := by
  decide +kernel

end ForeignAddress

end ProxboxApi.InterfaceIps
