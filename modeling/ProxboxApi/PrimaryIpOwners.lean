import ProxboxApi.PrimaryIps

/-! Which record becomes the primary address of a VM, and when it is the one of the interface on
which the guest reported the address. -/

namespace ProxboxApi.PrimaryIps

open InterfaceIps

variable {py : Python} {ipam : Addresses} {s : NetBox} {e : FirstIp} {r : IpRecord}

/-- The interface of the VM that a record has, or, if it is unassigned, gets. -/
def place (s : NetBox) (vm : ℕ) (r : IpRecord) : Option ℕ :=
  match r.assigned with
  | some (objectType, objectId) =>
    if objectType = vmInterface ∧ objectId ∈ s.interfaces vm then some objectId else none
  | none => (s.interfaces vm).head?

theorem ensureIpAssignedToVm_of_none {vm : ℕ}
    (hfind : s.ips.rows.find? (fun r' => r'.id = r.id) = some r) (hplace : place s vm r = none) :
    ensureIpAssignedToVm r.id vm s = (false, none, s) := by
  unfold ensureIpAssignedToVm
  rw [hfind]
  dsimp only
  cases hinterfaces : s.interfaces vm with
  | nil => rfl
  | cons first rest =>
    unfold place at hplace
    rw [hinterfaces] at hplace
    cases hassigned : r.assigned with
    | none =>
      rw [hassigned] at hplace
      cases hplace
    | some owner =>
      obtain ⟨objectType, objectId⟩ := owner
      rw [hassigned] at hplace
      simp only [ite_eq_right_iff, reduceCtorEq, imp_false] at hplace
      simpa using hplace

/-- A record of an interface of the VM is left as it is. -/
theorem ensureIpAssignedToVm_of_assigned {vm i : ℕ}
    (hfind : s.ips.rows.find? (fun r' => r'.id = r.id) = some r) (hassigned : r.assigned ≠ none)
    (hplace : place s vm r = some i) :
    r.assigned = some (vmInterface, i) ∧ ensureIpAssignedToVm r.id vm s = (true, none, s) := by
  unfold place at hplace
  cases howner : r.assigned with
  | none => exact absurd howner hassigned
  | some owner =>
    obtain ⟨objectType, objectId⟩ := owner
    rw [howner] at hplace
    dsimp only at hplace
    split at hplace
    · rename_i hmine
      obtain ⟨rfl, hmem⟩ := hmine
      cases hplace
      refine ⟨rfl, ?_⟩
      unfold ensureIpAssignedToVm
      rw [hfind]
      dsimp only
      cases hinterfaces : s.interfaces vm with
      | nil => simp [hinterfaces] at hmem
      | cons first rest =>
        rw [hinterfaces] at hmem
        simp [howner, List.mem_cons.mp hmem]
    · cases hplace

/-- An unassigned record goes to the first interface of the VM. -/
theorem ensureIpAssignedToVm_of_free {vm i : ℕ}
    (hfind : s.ips.rows.find? (fun r' => r'.id = r.id) = some r) (hassigned : r.assigned = none)
    (hplace : place s vm r = some i) :
    ensureIpAssignedToVm r.id vm s = (true, some (r.id, i), s.attach r.id i) := by
  unfold place at hplace
  rw [hassigned] at hplace
  dsimp only at hplace
  unfold ensureIpAssignedToVm
  rw [hfind]
  dsimp only
  cases hinterfaces : s.interfaces vm with
  | nil => simp [hinterfaces] at hplace
  | cons first rest =>
    rw [hinterfaces, List.head?_cons, Option.some.injEq] at hplace
    rw [hassigned, hplace]

/-- The state after a record has been placed on an interface. -/
def placed (s : NetBox) (r : IpRecord) (i : ℕ) : NetBox :=
  if r.assigned = none then s.attach r.id i else s

def attachment (r : IpRecord) (i : ℕ) : Option (ℕ × ℕ) :=
  if r.assigned = none then some (r.id, i) else none

theorem find?_placed (hsound : Sound s.ips) (hr : r ∈ s.ips.rows) (i : ℕ) :
    ∃ r', (placed s r i).ips.rows.find? (fun r' => r'.id = r.id) = some r' ∧
      r'.address = r.address := by
  unfold placed
  split
  · have hmap := hsound.find?_id hr
    refine ⟨{ r with assigned := some (vmInterface, i) }, ?_, rfl⟩
    unfold NetBox.attach
    dsimp only
    rw [List.find?_map]
    have hid : (fun r' : IpRecord => decide (r'.id = r.id)) ∘ (fun r' : IpRecord =>
        if r'.id = r.id then { r' with assigned := some (vmInterface, i) } else r') =
          fun r' => decide (r'.id = r.id) := by
      funext r'
      rw [Function.comp_apply]
      split <;> rfl
    rw [hid, hmap, Option.map_some, if_pos rfl]
  · exact ⟨r, hsound.find?_id hr, rfl⟩

/-- What a step makes of the record that it finds. -/
def madePrimary (ipam : Addresses) (e : FirstIp) (r : IpRecord) : Option (PrimaryField × ℕ) :=
  match ipam.primaryFieldFromIpAddress r.address with
  | none => none
  | some field => if (e.snapshot.get field).isSome then none else some (field, r.id)

/-- A step whose record does not come to the VM does nothing. -/
theorem setPrimary_of_none (hsound : Sound s.ips)
    (hfind : s.ips.rows.find? (fun r => ipam.found e.address r.address) = some r)
    (hplace : place s e.vm r = none) : setPrimary ipam e s = (⟨none, none⟩, s) := by
  have hid := hsound.find?_id (List.mem_of_find?_eq_some hfind)
  have hensure := ensureIpAssignedToVm_of_none hid hplace
  unfold setPrimary
  rw [hfind]
  dsimp only
  unfold setPrimaryIp
  rw [hensure]
  dsimp only
  rw [hensure]
  rfl

theorem setPrimary_of_place (hsound : Sound s.ips) {i : ℕ}
    (hfind : s.ips.rows.find? (fun r => ipam.found e.address r.address) = some r)
    (hplace : place s e.vm r = some i) :
    (setPrimary ipam e s).1 = ⟨attachment r i, madePrimary ipam e r⟩ ∧
      (setPrimary ipam e s).2.ips = (placed s r i).ips := by
  have hr := List.mem_of_find?_eq_some hfind
  have hid := hsound.find?_id hr
  have hensure : ensureIpAssignedToVm r.id e.vm s = (true, attachment r i, placed s r i) := by
    unfold attachment placed
    by_cases hassigned : r.assigned = none
    · rw [if_pos hassigned, if_pos hassigned]
      exact ensureIpAssignedToVm_of_free hid hassigned hplace
    · rw [if_neg hassigned, if_neg hassigned]
      exact (ensureIpAssignedToVm_of_assigned hid hassigned hplace).2
  obtain ⟨r', hfind', haddress⟩ := find?_placed hsound hr i
  unfold setPrimary
  rw [hfind]
  dsimp only
  unfold setPrimaryIp madePrimary
  rw [hensure]
  simp only [if_true, hfind', haddress]
  cases hfield : ipam.primaryFieldFromIpAddress r.address with
  | none => exact ⟨rfl, rfl⟩
  | some field =>
    by_cases hsnapshot : (e.snapshot.get field).isSome = true
    · simp [hsnapshot]
    · simp [hsnapshot, NetBox.makePrimary]

theorem madePrimary_eq_some_iff {field : PrimaryField} {id : ℕ} :
    madePrimary ipam e r = some (field, id) ↔
      ipam.primaryFieldFromIpAddress r.address = some field ∧ e.snapshot.get field = none ∧
        id = r.id := by
  unfold madePrimary
  cases hfield : ipam.primaryFieldFromIpAddress r.address with
  | none => simp
  | some field' =>
    cases hsnapshot : e.snapshot.get field' with
    | none =>
      simp only [hsnapshot, Option.isSome_none, Bool.false_eq_true, if_false, Option.some.injEq,
        Prod.mk.injEq]
      constructor
      · rintro ⟨rfl, rfl⟩
        exact ⟨rfl, hsnapshot, rfl⟩
      · rintro ⟨rfl, _, rfl⟩
        exact ⟨rfl, rfl⟩
    | some id' =>
      simp only [hsnapshot, Option.isSome_some, if_true, reduceCtorEq, Option.some.injEq,
        false_iff]
      rintro ⟨rfl, hnone, _⟩
      rw [hsnapshot] at hnone
      cases hnone

/-- The records of an id after the placement of a record: the one that is placed. -/
theorem assigned_placed (hsound : Sound s.ips) (hr : r ∈ s.ips.rows) {vm i : ℕ}
    (hplace : place s vm r = some i) {r' : IpRecord} (hr' : r' ∈ (placed s r i).ips.rows)
    (hid : r'.id = r.id) : r'.address = r.address ∧ r'.assigned = some (vmInterface, i) := by
  unfold placed at hr'
  split at hr'
  · obtain ⟨r₀, hr₀, rfl⟩ := List.mem_map.mp hr'
    by_cases heq : r₀.id = r.id
    · rw [if_pos heq, hsound.eq_of_id hr₀ hr heq]
      exact ⟨rfl, rfl⟩
    · rw [if_neg heq] at hid
      exact absurd hid heq
  · rename_i hassigned
    rw [hsound.eq_of_id hr' hr hid]
    have hfind := hsound.find?_id hr
    exact ⟨rfl, (ensureIpAssignedToVm_of_assigned hfind hassigned hplace).1⟩

theorem exists_placed (hsound : Sound s.ips) (hr : r ∈ s.ips.rows) (i : ℕ) :
    ∃ r' ∈ (placed s r i).ips.rows, r'.id = r.id := by
  obtain ⟨r', hfind, _⟩ := find?_placed hsound hr i
  exact ⟨r', List.mem_of_find?_eq_some hfind, by simpa using List.find?_some hfind⟩

/-- The record that a step makes primary is that of the interface on which the guest reported the
address. -/
def Own (ipam : Addresses) (e : FirstIp) (s : NetBox) : Prop :=
  ∀ field id, (setPrimary ipam e s).1.made = some (field, id) →
    ∃ r ∈ (setPrimary ipam e s).2.ips.rows, r.id = id ∧ ipam.found e.address r.address = true ∧
      r.assigned = some (vmInterface, e.interfaceId)

/-- A step replaces no primary address. -/
def Kept (ipam : Addresses) (e : FirstIp) (s : NetBox) : Prop :=
  ∀ field id, (setPrimary ipam e s).1.made = some (field, id) →
    (s.primaries e.vm).get field = none ∨ (s.primaries e.vm).get field = some id

/-- A record that a step attaches goes to an interface whose guest reported its address. -/
def Attached (ipam : Addresses) (guests : List Guest) (e : FirstIp) (s : NetBox) : Prop :=
  ∀ id i, (setPrimary ipam e s).1.attached = some (id, i) →
    ∃ r ∈ s.ips.rows, r.id = id ∧ ∃ g ∈ guests, i ∈ s.interfaces g.vm ∧
      ∃ report ∈ g.reports, ∃ address ∈ report.addresses, ipam.found address r.address = true

/-- A record that a step attaches goes to an interface on which its address was reported. -/
def AttachedThere (ipam : Addresses) (guests : List Guest) (e : FirstIp) (s : NetBox) : Prop :=
  ∀ id i, (setPrimary ipam e s).1.attached = some (id, i) →
    ∃ r ∈ s.ips.rows, r.id = id ∧ ∃ g ∈ guests, ∃ report ∈ g.reports, report.iface.id = i ∧
      ∃ address ∈ report.addresses, ipam.found address r.address = true

/-- The first record of the address, if it has or gets an interface of the VM, and the VM had no
primary address of its family before the run, has or gets the one on which the guest reported the
address, and the VM has no other primary address of the family yet. -/
def Meets (ipam : Addresses) (e : FirstIp) (s : NetBox) : Prop :=
  ∀ r i field, s.ips.rows.find? (fun r => ipam.found e.address r.address) = some r →
    place s e.vm r = some i → ipam.primaryFieldFromIpAddress r.address = some field →
      e.snapshot.get field = none →
        i = e.interfaceId ∧ ((s.primaries e.vm).get field = none ∨
          (s.primaries e.vm).get field = some r.id)

/-- The first record of the address, if it is unassigned, finds its address reported on the first
interface of the VM. -/
def ReportedThere (ipam : Addresses) (guests : List Guest) (e : FirstIp) (s : NetBox) : Prop :=
  ∀ r i, s.ips.rows.find? (fun r => ipam.found e.address r.address) = some r →
    r.assigned = none → (s.interfaces e.vm).head? = some i →
      ∃ g ∈ guests, ∃ report ∈ g.reports, report.iface.id = i ∧
        ∃ address ∈ report.addresses, ipam.found address r.address = true

theorem found_of_find? {address : String}
    (h : s.ips.rows.find? (fun r => ipam.found address r.address) = some r) :
    ipam.found address r.address = true := by
  have hfound := List.find?_some h
  exact hfound

theorem own_kept_iff (hsound : Sound s.ips) : Own ipam e s ∧ Kept ipam e s ↔ Meets ipam e s := by
  constructor
  · rintro ⟨hown, hkept⟩ r i field hfind hplace hfield hsnapshot
    obtain ⟨houtcome, hips⟩ := setPrimary_of_place hsound hfind hplace
    have hmade : (setPrimary ipam e s).1.made = some (field, r.id) := by
      rw [houtcome]
      exact madePrimary_eq_some_iff.mpr ⟨hfield, hsnapshot, rfl⟩
    refine ⟨?_, hkept field r.id hmade⟩
    obtain ⟨r', hr', hid, _, hassigned⟩ := hown field r.id hmade
    rw [hips] at hr'
    have hr := List.mem_of_find?_eq_some hfind
    rw [(assigned_placed hsound hr hplace hr' hid).2] at hassigned
    simpa using hassigned
  · intro hmeets
    have hstep : ∀ field id, (setPrimary ipam e s).1.made = some (field, id) →
        ∃ r i, s.ips.rows.find? (fun r => ipam.found e.address r.address) = some r ∧
          place s e.vm r = some i ∧ ipam.primaryFieldFromIpAddress r.address = some field ∧
            e.snapshot.get field = none ∧ id = r.id := by
      intro field id hmade
      cases hfind : s.ips.rows.find? fun r => ipam.found e.address r.address with
      | none =>
        unfold setPrimary at hmade
        rw [hfind] at hmade
        cases hmade
      | some r =>
        cases hplace : place s e.vm r with
        | none =>
          rw [setPrimary_of_none hsound hfind hplace] at hmade
          cases hmade
        | some i =>
          rw [(setPrimary_of_place hsound hfind hplace).1] at hmade
          exact ⟨r, i, rfl, hplace, madePrimary_eq_some_iff.mp hmade⟩
    constructor
    · intro field id hmade
      obtain ⟨r, i, hfind, hplace, hfield, hsnapshot, rfl⟩ := hstep field id hmade
      obtain ⟨rfl, _⟩ := hmeets r i field hfind hplace hfield hsnapshot
      have hr := List.mem_of_find?_eq_some hfind
      obtain ⟨r', hr', hid⟩ := exists_placed hsound hr e.interfaceId
      obtain ⟨haddress, hassigned⟩ := assigned_placed hsound hr hplace hr' hid
      refine ⟨r', ?_, hid, ?_, hassigned⟩
      · rw [(setPrimary_of_place hsound hfind hplace).2]
        exact hr'
      · rw [haddress]
        exact found_of_find? hfind
    · intro field id hmade
      obtain ⟨r, i, hfind, hplace, hfield, hsnapshot, rfl⟩ := hstep field id hmade
      exact (hmeets r i field hfind hplace hfield hsnapshot).2

/-- A step attaches the first record of the address if it is unassigned, to the first interface. -/
theorem attached_eq_some_iff (hsound : Sound s.ips) {id i : ℕ} :
    (setPrimary ipam e s).1.attached = some (id, i) ↔
      ∃ r, s.ips.rows.find? (fun r => ipam.found e.address r.address) = some r ∧
        r.id = id ∧ r.assigned = none ∧ (s.interfaces e.vm).head? = some i := by
  cases hfind : s.ips.rows.find? fun r => ipam.found e.address r.address with
  | none =>
    unfold setPrimary
    rw [hfind]
    simp
  | some r =>
    have hhead : r.assigned = none → place s e.vm r = (s.interfaces e.vm).head? := by
      intro hassigned
      unfold place
      rw [hassigned]
    constructor
    · intro hattached
      cases hplace : place s e.vm r with
      | none =>
        rw [setPrimary_of_none hsound hfind hplace] at hattached
        cases hattached
      | some j =>
        rw [(setPrimary_of_place hsound hfind hplace).1] at hattached
        dsimp only [attachment] at hattached
        split at hattached
        · rename_i hassigned
          rw [Option.some.injEq, Prod.mk.injEq] at hattached
          obtain ⟨rfl, rfl⟩ := hattached
          exact ⟨r, rfl, rfl, hassigned, (hhead hassigned).symm.trans hplace⟩
        · cases hattached
    · rintro ⟨r', heq, rfl, hassigned, hfirst⟩
      obtain rfl := Option.some.inj heq
      have hplace := (hhead hassigned).trans hfirst
      rw [(setPrimary_of_place hsound hfind hplace).1]
      exact if_pos hassigned

theorem attachedThere_iff (hsound : Sound s.ips) (guests : List Guest) :
    AttachedThere ipam guests e s ↔ ReportedThere ipam guests e s := by
  constructor
  · intro hattached r i hfind hfree hfirst
    obtain ⟨r', hr', hid, hreported⟩ := hattached r.id i
      ((attached_eq_some_iff hsound).mpr ⟨r, hfind, rfl, hfree, hfirst⟩)
    rw [hsound.eq_of_id hr' (List.mem_of_find?_eq_some hfind) hid] at hreported
    exact hreported
  · intro hthere id i hattached
    obtain ⟨r, hfind, rfl, hfree, hfirst⟩ := (attached_eq_some_iff hsound).mp hattached
    exact ⟨r, List.mem_of_find?_eq_some hfind, rfl, hthere r i hfind hfree hfirst⟩

/-- An entry is of an address that the guest reported. -/
structure FromGuest (primaries : ℕ → Primaries) (g : Guest) (e : FirstIp) : Prop where
  vm : e.vm = g.vm
  snapshot : e.snapshot = primaries g.vm
  reported : ∃ report ∈ g.reports, report.iface.id = e.interfaceId ∧ e.address ∈ report.addresses

theorem fromGuest_collectAddress {primaries : ℕ → Primaries} {g : Guest} {report : Report}
    {acc : Collected} {address : String} (hreport : report ∈ g.reports)
    (haddress : address ∈ report.addresses) (h : ∀ e ∈ acc.firstIps, FromGuest primaries g e) :
    ∀ e ∈ (collectAddress py ipam (primaries g.vm) g.vm report.iface acc address).firstIps,
      FromGuest primaries g e := by
  unfold collectAddress
  split
  · exact h
  · split
    · exact h
    · dsimp only
      split
      · exact h
      · intro e he
        rcases List.mem_append.mp he with he | he
        · exact h e he
        · rw [List.mem_singleton.mp he]
          exact ⟨rfl, rfl, report, hreport, rfl, haddress⟩

/-- Every entry of a guest is of an address that it reported. -/
theorem fromGuest_syncVmIps (primaries : ℕ → Primaries) (g : Guest) :
    ∀ e ∈ (syncVmIps py ipam primaries g).firstIps, FromGuest primaries g e := by
  unfold syncVmIps
  apply List.foldlRecOn (motive := fun acc : Collected =>
    ∀ e ∈ acc.firstIps, FromGuest primaries g e)
  · simp
  · intro acc hacc report hreport
    unfold collectReport
    apply List.foldlRecOn (motive := fun acc : Collected =>
      ∀ e ∈ acc.firstIps, FromGuest primaries g e)
    · exact hacc
    · intro acc' hacc' address haddress
      exact fromGuest_collectAddress hreport haddress hacc'

theorem fromGuest_of_mem {guests : List Guest} (he : e ∈ vmsWithFirstIps py ipam guests s) :
    ∃ g ∈ guests, FromGuest s.primaries g e := by
  obtain ⟨g, hg, he⟩ := List.mem_flatMap.mp he
  exact ⟨g, hg, fromGuest_syncVmIps s.primaries g e he⟩

theorem attached_of_fromGuest (hsound : Sound s.ips) {primaries : ℕ → Primaries}
    {guests : List Guest} {g : Guest} (hg : g ∈ guests) (hfrom : FromGuest primaries g e) :
    Attached ipam guests e s := by
  intro id i hattached
  obtain ⟨r, hfind, rfl, _, hfirst⟩ := (attached_eq_some_iff hsound).mp hattached
  obtain ⟨report, hreport, _, haddress⟩ := hfrom.reported
  refine ⟨r, List.mem_of_find?_eq_some hfind, rfl, g, hg, ?_, report, hreport, e.address,
    haddress, found_of_find? hfind⟩
  rw [← hfrom.vm]
  exact List.mem_of_mem_head? hfirst

theorem sound_setPrimary (hsound : Sound s.ips) (e : FirstIp) :
    Sound (setPrimary ipam e s).2.ips := by
  cases hfind : s.ips.rows.find? fun r => ipam.found e.address r.address with
  | none =>
    unfold setPrimary
    rw [hfind]
    exact hsound
  | some r =>
    cases hplace : place s e.vm r with
    | none =>
      rw [setPrimary_of_none hsound hfind hplace]
      exact hsound
    | some i =>
      rw [(setPrimary_of_place hsound hfind hplace).2]
      unfold placed
      split
      · have hid : ∀ r' : IpRecord, (if r'.id = r.id then
            { r' with assigned := some (vmInterface, i) } else r').id = r'.id := by
          intro r'
          split <;> rfl
        constructor
        · have hids := hsound.ids
          unfold NetBox.attach
          rw [List.map_map]
          convert hids using 1
          exact List.map_congr_left fun r' _ => hid r'
        · intro r' hr'
          obtain ⟨r'', hr'', rfl⟩ := List.mem_map.mp hr'
          rw [hid r'']
          exact hsound.next r'' hr''
      · exact hsound

theorem mem_trace {x : FirstIp × NetBox} {es : List FirstIp} (hsound : Sound s.ips)
    (hx : x ∈ trace ipam es s) : x.1 ∈ es ∧ Sound x.2.ips := by
  induction es generalizing s with
  | nil => simp [trace] at hx
  | cons e es ih =>
    rw [trace] at hx
    rcases List.mem_cons.mp hx with rfl | hx
    · exact ⟨List.mem_cons_self .., hsound⟩
    · obtain ⟨hmem, hsound'⟩ := ih (sound_setPrimary hsound e) hx
      exact ⟨List.mem_cons_of_mem _ hmem, hsound'⟩

theorem sound_reconcilePhase (hsound : Sound s.ips) (enabled : Bool)
    (flags : Option OverwriteFlags) (ps : List Payload) :
    Sound (reconcilePhase py ipam enabled flags ps s).ips := by
  unfold reconcilePhase
  apply List.foldlRecOn (motive := fun s : NetBox => Sound s.ips)
  · exact sound_bulk hsound py enabled flags ps
  · intro s' hs' interfaceId _
    unfold cleanupStaleIpsForInterface
    dsimp only
    constructor
    · exact (List.filter_sublist.map IpRecord.id).nodup hs'.ids
    · intro r hr
      exact hs'.next r (List.mem_of_mem_filter hr)

/-- The last step leaves what the run leaves. -/
theorem createOnlyVmIpAddresses_eq (py : Python) (ipam : Addresses) (enabled : Bool)
    (flags : Option OverwriteFlags) (guests : List Guest) (s : NetBox) :
    createOnlyVmIpAddresses py ipam enabled flags guests s =
      ((primarySteps py ipam enabled flags guests s).map fun x =>
        (setPrimary ipam x.1 x.2).2).getLastD
          (reconcilePhase py ipam enabled flags (allPayloads py ipam guests s) s) := by
  unfold createOnlyVmIpAddresses primarySteps
  generalize vmsWithFirstIps py ipam guests s = es
  generalize reconcilePhase py ipam enabled flags (allPayloads py ipam guests s) s = s'
  induction es generalizing s' with
  | nil => rfl
  | cons e es ih => rw [List.foldl_cons, ih, trace, List.map_cons, List.getLastD_cons]

/-- The addresses that a run makes primary are those of the interfaces that report them, and replace
none, exactly if the first record of each address allows it; in every run, what is attached was
reported by the guest. -/
theorem primary_ips_own_iff (py : Python) (ipam : Addresses) (enabled : Bool)
    (flags : Option OverwriteFlags) (guests : List Guest) (s : NetBox) (hsound : Sound s.ips) :
    let steps := primarySteps py ipam enabled flags guests s
    ((∀ x ∈ steps, Own ipam x.1 x.2 ∧ Kept ipam x.1 x.2 ∧ Attached ipam guests x.1 x.2) ↔
      ∀ x ∈ steps, Meets ipam x.1 x.2) ∧
    ((∀ x ∈ steps, Own ipam x.1 x.2 ∧ Kept ipam x.1 x.2 ∧ AttachedThere ipam guests x.1 x.2) ↔
      ∀ x ∈ steps, Meets ipam x.1 x.2 ∧ ReportedThere ipam guests x.1 x.2) := by
  dsimp only
  have hmem : ∀ x ∈ primarySteps py ipam enabled flags guests s, Sound x.2.ips ∧
      Attached ipam guests x.1 x.2 := by
    intro x hx
    obtain ⟨hentry, hsound'⟩ := mem_trace (sound_reconcilePhase hsound enabled flags _) hx
    obtain ⟨g, hg, hfrom⟩ := fromGuest_of_mem hentry
    exact ⟨hsound', attached_of_fromGuest hsound' hg hfrom⟩
  constructor
  · refine forall₂_congr fun x hx => ?_
    obtain ⟨hsound', hattached⟩ := hmem x hx
    rw [← and_assoc, own_kept_iff hsound', and_iff_left hattached]
  · refine forall₂_congr fun x hx => ?_
    obtain ⟨hsound', _⟩ := hmem x hx
    rw [← and_assoc, own_kept_iff hsound', attachedThere_iff hsound' guests]

section StrayAddress

/-- Texts of addresses that are what they say. -/
def Addresses.sample : Addresses where
  parse := canonical
  normalized address := address
  primaryFieldFromIpAddress address :=
    some (if isIpv6 address then .primaryIp6 else .primaryIp4)
  found text address := text = address

/-- A guest that reports an address on the second interface of its VM. -/
def Guest.sample : Guest :=
  ⟨7, [⟨⟨52, some "web1", [], true, "2024-05-01T12:00:00"⟩, ["10.0.0.5/24"]⟩]⟩

/-- NetBox has an unassigned record of the address. -/
def strayAddress : NetBox where
  ips := ⟨[⟨1, "10.0.0.5/24", none, "active", "", [], none⟩], 2⟩
  interfaces vm := if vm = 7 then [51, 52] else []
  primaries _ := ⟨none, none⟩

theorem strayAddress_sound : Sound strayAddress.ips := ⟨by decide, by decide⟩

theorem primary_ips_own_iff_stray : Sound strayAddress.ips ∧
    ((∀ x ∈ primarySteps Python.ascii .sample false none [.sample] strayAddress,
      Own .sample x.1 x.2 ∧ Kept .sample x.1 x.2 ∧ Attached .sample [.sample] x.1 x.2) ↔
        ∀ x ∈ primarySteps Python.ascii .sample false none [.sample] strayAddress,
          Meets .sample x.1 x.2) :=
  ⟨strayAddress_sound, (primary_ips_own_iff Python.ascii .sample false none [.sample] strayAddress
    strayAddress_sound).1⟩

def strayStep : FirstIp × NetBox :=
  (⟨7, ⟨none, none⟩, "10.0.0.5/24", 52⟩,
    reconcilePhase Python.ascii .sample false none
      (allPayloads Python.ascii .sample [.sample] strayAddress) strayAddress)

/-- The unassigned record goes to the first interface and becomes the primary address, although the
second interface, which reported the address, has got a record of its own. -/
theorem stray_address_made_primary :
    strayStep ∈ primarySteps Python.ascii .sample false none [.sample] strayAddress ∧
      (setPrimary .sample strayStep.1 strayStep.2).1.attached = some (1, 51) ∧
      (setPrimary .sample strayStep.1 strayStep.2).1.made = some (.primaryIp4, 1) ∧
      ¬Own .sample strayStep.1 strayStep.2 := by
  have hentries : vmsWithFirstIps Python.ascii .sample [.sample] strayAddress =
      [strayStep.1] := by
    rfl
  refine ⟨?_, by decide +kernel, by decide +kernel, ?_⟩
  · unfold primarySteps
    rw [hentries]
    exact List.mem_cons_self ..
  · intro hown
    have hrow := hown .primaryIp4 1 (by decide +kernel)
    revert hrow
    decide +kernel

end StrayAddress

end ProxboxApi.PrimaryIps
