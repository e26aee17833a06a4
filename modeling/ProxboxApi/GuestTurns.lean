import Mathlib.Data.List.Perm.Subperm
import ProxboxApi.GuestServer
import ProxboxApi.ServerRuns

/-! One turn of `reconcile_guest_vm_interfaces` on NetBox: what it does with the row of an interface,
and with the links of its addresses. -/

namespace ProxboxApi.GuestRows

open Requests (Prog)
open InterfaceIps (Host)
open VmQueue (field Record relationId digitsId)

variable {py : Python} {nb : NetBox py} {a : Args} {g : Guest} {r : InterfaceRow}

theorem relationId_nested (nb : NetBox py) (kind : String) (id : ℤ) :
    relationId py (nb.nested kind id) = some (some id) := by
  simp [NetBox.nested, relationId, field, Dict.get, VmQueue.relationCandidate]

theorem idOrNull_option (nb : NetBox py) (kind : String) (id : Option ℤ) :
    idOrNull py (id.elim .null (nb.nested kind)) = some (id.elim .null .int) := by
  cases id with
  | none => rfl
  | some id => rw [idOrNull, Option.elim_some, relationId_nested]; rfl

theorem idOrNull_int (py : Python) (id : Option ℤ) :
    idOrNull py (id.elim .null .int) = some (id.elim .null .int) := by
  cases id with
  | none => rfl
  | some id => rfl

/-- The current payload of a row. -/
def InterfaceRow.current (nb : NetBox py) (r : InterfaceRow) : Json.Fields :=
  [("virtual_machine", .int r.virtualMachine), ("vm_interface", r.vmInterface.elim .null .int),
    ("name", .str r.name),
    ("mac_address", .str (normalizedMac py (r.macAddress.elim .null fun mac => .str (nb.macText mac)))),
    ("enabled", .bool r.enabled), ("mtu", r.mtu.elim .null .int),
    ("tags", .arr (r.tags.map (nb.nested "tags"))), ("custom_fields", .obj r.customFields)]

theorem currentGuestInterface_record :
    currentGuestInterface py (r.record nb) = some (r.current nb) := by
  have hvm : idOrNull py (nb.nested "virtual-machines" r.virtualMachine) =
      some (.int r.virtualMachine) := idOrNull_option nb "virtual-machines" (some r.virtualMachine)
  have hiface := idOrNull_option nb "interfaces" r.vmInterface
  have hfields : currentGuestInterface py (r.record nb) =
      (idOrNull py (nb.nested "virtual-machines" r.virtualMachine)).bind fun virtualMachine =>
        (idOrNull py (r.vmInterface.elim .null (nb.nested "interfaces"))).bind fun vmInterface =>
          some (("virtual_machine", virtualMachine) :: ("vm_interface", vmInterface) ::
            (r.current nb).drop 2) := rfl
  rw [hfields, hvm, hiface]
  rfl

/-- The normalized payload of an interface. -/
def Args.normalized (py : Python) (a : Args) (g : Guest) : Json.Fields :=
  Dict.set "mac_address" (.str (normalizedMac py (.str g.mac))) (a.payload py g)

theorem currentGuestInterface_payload :
    currentGuestInterface py (a.payload py g) = some (a.normalized py g) := by
  have hiface := idOrNull_int py (a.coreInterfaceId py g)
  have hvm : idOrNull py (.int a.vmId) = some (.int a.vmId) := idOrNull_int py (some a.vmId)
  have hfields : currentGuestInterface py (a.payload py g) =
      (idOrNull py (.int a.vmId)).bind fun virtualMachine =>
        (idOrNull py ((a.coreInterfaceId py g).elim .null .int)).bind fun vmInterface =>
          some (("virtual_machine", virtualMachine) :: ("vm_interface", vmInterface) ::
            (a.normalized py g).drop 2) := rfl
  rw [hfields, hvm, hiface]
  rfl

/-- The name of an interface is a text in which `int` reads the digits, if there are only digits. -/
def Guest.Readable (py : Python) (g : Guest) : Prop := (digitsId py g.name).isSome = true

instance : Decidable (g.Readable py) := inferInstanceAs (Decidable (_ = _))

theorem keyMatches_of_ids {current : Json.Fields} {key : String} {expected : Json}
    (id : Option ℤ) (hkey : key.endsWith "_id" = false)
    (hcurrent : relationId py (field key current) = some id)
    (hexpected : relationId py expected = some id)
    (heq : (field key current).pyEq expected = true) :
    keyMatches py current key expected = some true := by
  unfold keyMatches
  rw [hkey]
  show (do
    let currentId ← relationId py (field key current)
    let expectedId ← relationId py expected
    if currentId.isSome || expectedId.isSome then some (decide (currentId = expectedId))
    else some ((field key current).pyEq expected)) = some true
  rw [hcurrent, hexpected, heq]
  show (if id.isSome || id.isSome then some (decide (id = id)) else some true) = some true
  rw [decide_eq_true rfl, ite_self]

theorem endsWith_virtual_machine : "virtual_machine".endsWith "_id" = false := by decide +kernel

theorem endsWith_name : "name".endsWith "_id" = false := by decide +kernel

theorem lookupMatches_current (hvm : r.virtualMachine = a.vmId) (hname : r.name = g.name) :
    lookupMatches py (r.current nb) (a.lookup g) = if g.Readable py then some true else none := by
  have hfirst : keyMatches py (r.current nb) "virtual_machine" (.int a.vmId) = some true := by
    refine keyMatches_of_ids (some a.vmId) endsWith_virtual_machine ?_ rfl ?_
    · rw [← hvm]
      rfl
    · rw [← hvm]
      simp [InterfaceRow.current, field, Dict.get, Json.pyEq, Json.number]
  have hloop : lookupMatches py (r.current nb) (a.lookup g) =
      (keyMatches py (r.current nb) "virtual_machine" (.int a.vmId)).bind fun first =>
        if first then (keyMatches py (r.current nb) "name" (.str g.name)).bind fun second =>
          if second then some true else some false
        else some false := rfl
  rw [hloop, hfirst]
  show ((keyMatches py (r.current nb) "name" (.str g.name)).bind fun second =>
    if second then some true else some false) = _
  have hcurrent : relationId py (field "name" (r.current nb)) = digitsId py g.name := by
    rw [← hname]
    rfl
  cases hid : digitsId py g.name with
  | none =>
    -- `isdigit` accepts the name and `int` raises
    have hraises : keyMatches py (r.current nb) "name" (.str g.name) = none := by
      unfold keyMatches
      rw [endsWith_name]
      show (do
        let currentId ← relationId py (field "name" (r.current nb))
        let expectedId ← relationId py (.str g.name)
        if currentId.isSome || expectedId.isSome then some (decide (currentId = expectedId))
        else some ((field "name" (r.current nb)).pyEq (.str g.name))) = none
      rw [hcurrent, hid]
      rfl
    rw [hraises, if_neg (by rw [Guest.Readable, hid]; exact Bool.false_ne_true)]
    rfl
  | some id =>
    have hmatches : keyMatches py (r.current nb) "name" (.str g.name) = some true := by
      refine keyMatches_of_ids id endsWith_name (hcurrent.trans hid) hid ?_
      rw [← hname]
      simp [InterfaceRow.current, field, Dict.get, Json.pyEq]
    rw [hmatches, if_pos (by rw [Guest.Readable, hid]; rfl)]
    rfl


/-- The value of a key does not agree with that of the row. -/
def Args.differs (nb : NetBox py) (a : Args) (g : Guest) (r : InterfaceRow) (key : String) : Bool :=
  !(field key (a.normalized py g)).pyEq (field key (r.current nb))

/-- The patch of a row. -/
def Args.patch (nb : NetBox py) (a : Args) (g : Guest) (r : InterfaceRow) : Json.Fields :=
  (a.payload py g).filter fun kv => a.differs nb g r kv.1

theorem keys_payload : Dict.keys (a.payload py g) = ["virtual_machine", "vm_interface", "name",
    "mac_address", "enabled", "mtu", "tags", "custom_fields"] := rfl

theorem get_patch (key : String) : Dict.get key (a.patch nb g r) =
    if a.differs nb g r key then Dict.get key (a.payload py g) else none := by
  unfold Args.patch
  have hnodup : (Dict.keys (a.payload py g)).Nodup := by
    rw [keys_payload]
    decide
  rw [Dict.get_filter_of_nodup hnodup]
  cases Dict.get key (a.payload py g) with
  | none => simp
  | some v => simp [Option.filter]

theorem pyEq_null_left (x : Json) : Json.null.pyEq x = x.isNull := by
  cases x <;> rfl

/-- A field that is to become null is in the patch already. -/
theorem nullable_step (nb : NetBox py) (r : InterfaceRow) (key : String) {id : Option ℤ}
    (hpayload : Dict.get key (a.payload py g) = some (id.elim .null .int))
    (hnormalized : field key (a.normalized py g) = id.elim .null .int) :
    (if (Dict.get key (a.payload py g)).any Json.isNull && !(field key (r.current nb)).isNull
      then Dict.set key .null (a.patch nb g r) else a.patch nb g r) = a.patch nb g r := by
  split
  · rename_i h
    rw [hpayload, Option.any_some, Bool.and_eq_true] at h
    cases id with
    | some id => exact absurd h.1 Bool.false_ne_true
    | none =>
      apply Dict.set_of_get
      have hdiffers : a.differs nb g r key = true := by
        rw [Args.differs, hnormalized, Option.elim_none, pyEq_null_left]
        exact h.2
      rw [get_patch, if_pos hdiffers, hpayload]
      rfl
  · rfl

theorem buildPatchPayload_eq : buildPatchPayload (r.current nb) (a.payload py g)
    (a.normalized py g) ["vm_interface", "mtu"] = a.patch nb g r := by
  have hiface := nullable_step nb r "vm_interface" (a := a) (g := g) rfl rfl
  have hmtu := nullable_step nb r "mtu" (a := a) (g := g) rfl rfl
  unfold buildPatchPayload
  rw [List.foldl_cons, List.foldl_cons, List.foldl_nil]
  show (if _ then Dict.set "mtu" Json.null (if _ then Dict.set "vm_interface" Json.null
    (a.patch nb g r) else a.patch nb g r) else (if _ then Dict.set "vm_interface" Json.null
    (a.patch nb g r) else a.patch nb g r)) = _
  rw [hiface]
  exact hmtu

/-- What a reconciliation makes of a row of its interface. -/
theorem patch_record (hvm : r.virtualMachine = a.vmId) (hname : r.name = g.name) :
    (interfaceTarget py).patch py (a.lookup g) (a.payload py g) (r.record nb) =
      if g.Readable py then some (a.patch nb g r) else none := by
  have hpatch : (interfaceTarget py).patch py (a.lookup g) (a.payload py g) (r.record nb) =
      (currentGuestInterface py (r.record nb)).bind fun current =>
        (lookupMatches py current (a.lookup g)).bind fun found =>
          if found then (currentGuestInterface py (a.payload py g)).bind fun normalized =>
            some (buildPatchPayload current (a.payload py g) normalized ["vm_interface", "mtu"])
          else none := rfl
  rw [hpatch, currentGuestInterface_record, Option.bind_some, lookupMatches_current hvm hname]
  split
  · rw [Option.bind_some, if_pos rfl, currentGuestInterface_payload, Option.bind_some,
      buildPatchPayload_eq]
  · rfl

theorem pyEq_elim (x y : Option ℤ) :
    (x.elim Json.null Json.int).pyEq (y.elim .null .int) = decide (x = y) := by
  cases x with
  | none =>
    cases y with
    | none => rfl
    | some m => rfl
  | some n =>
    cases y with
    | none => rfl
    | some m =>
      rw [Bool.eq_iff_iff, decide_eq_true_eq, Option.some_inj]
      show (Json.int n).pyEq (.int m) = true ↔ n = m
      simp only [Json.pyEq, Json.number, beq_iff_eq, Option.some.injEq, Rat.intCast_inj]
      exact eq_comm

theorem normalizedMac_str (s : String) : normalizedMac py (.str s) = py.lower (Text.strip s) := by
  unfold normalizedMac GuestAgent.either
  by_cases hs : s = ""
  · rw [hs]
    rfl
  · rw [if_pos (by simpa [Python.truthy] using hs)]
    rfl

/-- The MAC address of a row, as the reconciliation reads it. -/
def InterfaceRow.mac (py : Python) (r : InterfaceRow) : String :=
  normalizedMac py (r.macAddress.elim .null .str)

theorem current_mac (nb : NetBox py) (r : InterfaceRow) :
    normalizedMac py (r.macAddress.elim .null fun mac => .str (nb.macText mac)) =
    r.mac py := by
  unfold InterfaceRow.mac
  cases r.macAddress with
  | none => rfl
  | some mac =>
    show normalizedMac py (.str (nb.macText mac)) = normalizedMac py (.str mac)
    rw [normalizedMac_str, normalizedMac_str, nb.macText_eq]

/-- A row has what an interface says of it, its tags apart. -/
structure Args.Agrees (py : Python) (a : Args) (g : Guest) (r : InterfaceRow) : Prop where
  vmInterface : r.vmInterface = a.coreInterfaceId py g
  mac : r.mac py = normalizedMac py (.str g.mac)
  enabled : r.enabled = true
  mtu : r.mtu = g.mtu

section Differs

theorem differs_virtual_machine (hvm : r.virtualMachine = a.vmId) :
    a.differs nb g r "virtual_machine" = false := by
  show (!(Json.int a.vmId).pyEq (.int r.virtualMachine)) = false
  rw [hvm]
  simp [Json.pyEq, Json.number]

theorem differs_name (hname : r.name = g.name) : a.differs nb g r "name" = false := by
  show (!(Json.str g.name).pyEq (.str r.name)) = false
  rw [hname]
  simp [Json.pyEq]

theorem differs_vm_interface :
    a.differs nb g r "vm_interface" = !decide (a.coreInterfaceId py g = r.vmInterface) := by
  rw [← pyEq_elim]
  rfl

theorem differs_mtu : a.differs nb g r "mtu" = !decide (g.mtu = r.mtu) := by
  rw [← pyEq_elim]
  rfl

theorem differs_mac : a.differs nb g r "mac_address" =
    !decide (normalizedMac py (.str g.mac) = r.mac py) := by
  rw [← current_mac nb]
  show (!(Json.str _).pyEq (.str _)) = _
  rw [Json.pyEq]
  rfl

theorem differs_enabled : a.differs nb g r "enabled" = !r.enabled := by
  show (!(Json.bool true).pyEq (.bool r.enabled)) = _
  cases r.enabled <;> decide

theorem differs_custom_fields :
    a.differs nb g r "custom_fields" = !r.customFields.isEmpty := by
  show (!(Json.obj []).pyEq (.obj r.customFields)) = _
  cases r.customFields with
  | nil => rfl
  | cons kv fields => rfl

/-- The object of a tag has an id, which a reference does not. -/
theorem pyEq_ref (ref : TagRef) (id : ℤ) : ref.json.pyEq (nb.nested "tags" id) = false := by
  rw [Bool.eq_false_iff]
  intro heq
  obtain ⟨hlength, hfields⟩ := Json.pyEq_obj_iff.mp heq
  have hget : ∀ key ∈ ["name", "slug", "color"], ∃ v, Dict.get key (nb.extra "tags" id) = some v := by
    intro key hkey
    have hmem : ∃ v, (key, v) ∈ [("name", Json.str ref.name), ("slug", .str ref.slug),
        ("color", ref.color)] := by
      simp only [List.mem_cons, List.not_mem_nil, or_false] at hkey
      rcases hkey with rfl | rfl | rfl
      · exact ⟨_, List.mem_cons_self⟩
      · exact ⟨_, List.mem_cons_of_mem _ List.mem_cons_self⟩
      · exact ⟨_, List.mem_cons_of_mem _ (List.mem_cons_of_mem _ List.mem_cons_self)⟩
    obtain ⟨v, hv⟩ := hmem
    obtain ⟨y, hy, -⟩ := hfields _ hv
    have hne : "id" ≠ key := by
      rintro rfl
      exact absurd hkey (by decide)
    rw [Dict.get, if_neg hne] at hy
    exact ⟨y, hy⟩
  have hsub : ["name", "slug", "color"] ⊆ Dict.keys (nb.extra "tags" id) := by
    intro key hkey
    exact Dict.mem_keys_iff.mpr (hget key hkey)
  have hle := (List.Nodup.subperm (by decide) hsub).length_le
  have hextra : (Dict.keys (nb.extra "tags" id)).length = 2 := by
    rw [Dict.keys, List.length_map]
    simpa using hlength.symm
  rw [hextra] at hle
  exact absurd hle (by decide)

theorem differs_tags : a.differs nb g r "tags" = !(a.tagRefs.isEmpty && r.tags.isEmpty) := by
  show (!(Json.arr (a.tagRefs.map TagRef.json)).pyEq (.arr (r.tags.map (nb.nested "tags")))) = _
  rw [Json.pyEq]
  cases a.tagRefs with
  | nil => cases r.tags <;> rfl
  | cons ref refs =>
    cases r.tags with
    | nil => rfl
    | cons tag tags =>
      rw [List.map_cons, List.map_cons, Json.pyEqItems, pyEq_ref]
      rfl

theorem differs_of_agrees (h : a.Agrees py g r) (hvm : r.virtualMachine = a.vmId)
    (hname : r.name = g.name) {key : String} (htags : key ≠ "tags")
    (hfields : key ≠ "custom_fields") : a.differs nb g r key = false ∨ key ∉ Dict.keys (a.payload py g) := by
  by_cases hkey : key ∈ Dict.keys (a.payload py g)
  · left
    rw [keys_payload] at hkey
    simp only [List.mem_cons, List.not_mem_nil, or_false] at hkey
    rcases hkey with rfl | rfl | rfl | rfl | rfl | rfl | rfl | rfl
    · exact differs_virtual_machine hvm
    · rw [differs_vm_interface, h.vmInterface, decide_eq_true rfl]
      rfl
    · exact differs_name hname
    · rw [differs_mac, h.mac, decide_eq_true rfl]
      rfl
    · rw [differs_enabled, h.enabled]
      rfl
    · rw [differs_mtu, h.mtu, decide_eq_true rfl]
      rfl
    · exact absurd rfl htags
    · exact absurd rfl hfields
  · exact .inr hkey

/-- There is nothing to patch exactly if the row agrees, nothing is tagged, and no custom field is
defined. -/
theorem patch_eq_nil_iff (hvm : r.virtualMachine = a.vmId) (hname : r.name = g.name) :
    a.patch nb g r = [] ↔
      a.Agrees py g r ∧ a.tagRefs = [] ∧ r.tags = [] ∧ r.customFields = [] := by
  unfold Args.patch
  rw [List.filter_eq_nil_iff]
  constructor
  · intro h
    have hkey : ∀ key ∈ Dict.keys (a.payload py g), a.differs nb g r key = false := by
      intro key hkey
      obtain ⟨kv, hkv, rfl⟩ := List.mem_map.mp hkey
      exact Bool.eq_false_iff.mpr (h kv hkv)
    rw [keys_payload] at hkey
    have hiface := hkey "vm_interface" (by decide)
    have hmac := hkey "mac_address" (by decide)
    have henabled := hkey "enabled" (by decide)
    have hmtu := hkey "mtu" (by decide)
    have htags := hkey "tags" (by decide)
    have hfields := hkey "custom_fields" (by decide)
    rw [differs_vm_interface, Bool.not_eq_false', decide_eq_true_eq] at hiface
    rw [differs_mac, Bool.not_eq_false', decide_eq_true_eq] at hmac
    rw [differs_enabled, Bool.not_eq_false'] at henabled
    rw [differs_mtu, Bool.not_eq_false', decide_eq_true_eq] at hmtu
    rw [differs_tags, Bool.not_eq_false', Bool.and_eq_true, List.isEmpty_iff, List.isEmpty_iff] at htags
    rw [differs_custom_fields, Bool.not_eq_false', List.isEmpty_iff] at hfields
    exact ⟨⟨hiface.symm, hmac.symm, henabled, hmtu.symm⟩, htags.1, htags.2, hfields⟩
  · rintro ⟨hagrees, hrefs, htags, hfields⟩ kv hkv
    rw [Bool.not_eq_true]
    have hkey : kv.1 ∈ Dict.keys (a.payload py g) := List.mem_map_of_mem hkv
    by_cases h1 : kv.1 = "tags"
    · rw [h1, differs_tags, hrefs, htags]
      rfl
    · by_cases h2 : kv.1 = "custom_fields"
      · rw [h2, differs_custom_fields, hfields]
        rfl
      · exact (differs_of_agrees hagrees hvm hname h1 h2).resolve_right (not_not_intro hkey)

end Differs

/-- The row that a patch makes of a row of its interface. -/
structure Args.Made (nb : NetBox py) (a : Args) (g : Guest) (r r' : InterfaceRow) : Prop where
  id : r'.id = r.id
  virtualMachine : r'.virtualMachine = a.vmId
  name : r'.name = g.name
  agrees : a.Agrees py g r'
  tags : (a.tagRefs.map TagRef.json).mapM nb.findTag = some r'.tags ∨ a.tagRefs = [] ∧ r'.tags = []
  customFields : r'.customFields = r.customFields

theorem get_patch_of_not {key : String} (h : a.differs nb g r key = false) :
    Dict.get key (a.patch nb g r) = none := by
  rw [get_patch, h]
  rfl

theorem get_patch_of {key : String} (h : a.differs nb g r key = true) :
    Dict.get key (a.patch nb g r) = Dict.get key (a.payload py g) := by
  rw [get_patch, h]
  rfl

theorem optionIn_patch {key : String} {id old : Option ℤ}
    (hpayload : Dict.get key (a.payload py g) = some (id.elim .null .int))
    (hdiffers : a.differs nb g r key = !decide (id = old)) :
    optionIn key (a.patch nb g r) old = id := by
  unfold optionIn
  by_cases heq : id = old
  · rw [get_patch_of_not (by rw [hdiffers, decide_eq_true heq]; rfl), heq]
  · rw [get_patch_of (by rw [hdiffers, decide_eq_false heq]; rfl), hpayload]
    cases id <;> rfl

theorem made_patch {r' : InterfaceRow} (hvm : r.virtualMachine = a.vmId) (hname : r.name = g.name)
    (h : r.apply nb (a.patch nb g r) = some r') : a.Made nb g r r' := by
  unfold InterfaceRow.apply at h
  obtain ⟨tags, htags, rfl⟩ := Option.map_eq_some_iff.mp h
  refine ⟨rfl, ?_, ?_, ⟨?_, ?_, ?_, ?_⟩, ?_, ?_⟩
  · show idIn "virtual_machine" (a.patch nb g r) r.virtualMachine = a.vmId
    rw [idIn, get_patch_of_not (differs_virtual_machine hvm), hvm]
  · dsimp only
    rw [get_patch_of_not (differs_name hname), hname]
  · exact optionIn_patch rfl differs_vm_interface
  · unfold InterfaceRow.mac
    dsimp only
    cases hdiffers : a.differs nb g r "mac_address" with
    | true =>
      rw [get_patch_of hdiffers]
      rfl
    | false =>
      rw [get_patch_of_not hdiffers]
      rw [differs_mac, Bool.not_eq_false', decide_eq_true_eq] at hdiffers
      exact hdiffers.symm
  · dsimp only
    cases hdiffers : a.differs nb g r "enabled" with
    | true =>
      rw [get_patch_of hdiffers]
      rfl
    | false =>
      rw [get_patch_of_not hdiffers]
      rwa [differs_enabled, Bool.not_eq_false'] at hdiffers
  · exact optionIn_patch rfl differs_mtu
  · show _ ∨ a.tagRefs = [] ∧ tags = []
    unfold NetBox.tagsIn at htags
    cases hdiffers : a.differs nb g r "tags" with
    | true =>
      rw [get_patch_of hdiffers] at htags
      exact .inl htags
    | false =>
      rw [get_patch_of_not hdiffers] at htags
      rw [differs_tags, Bool.not_eq_false', Bool.and_eq_true, List.isEmpty_iff,
        List.isEmpty_iff] at hdiffers
      cases htags
      exact .inr hdiffers
  · show customFieldsIn (a.patch nb g r) r.customFields = r.customFields
    unfold customFieldsIn
    cases hdiffers : a.differs nb g r "custom_fields" with
    | true =>
      rw [get_patch_of hdiffers]
      rfl
    | false => rw [get_patch_of_not hdiffers]

theorem optionIn_of_get {key : String} {payload : Json.Fields} {id old : Option ℤ}
    (h : Dict.get key payload = some (id.elim .null .int)) : optionIn key payload old = id := by
  unfold optionIn
  rw [h]
  cases id <;> rfl

/-- The row of a new interface. -/
theorem made_create {id : ℤ} {r' : InterfaceRow}
    (h : (nb.blank id).apply nb (a.payload py g) = some r') : a.Made nb g (nb.blank id) r' := by
  unfold InterfaceRow.apply at h
  obtain ⟨tags, htags, rfl⟩ := Option.map_eq_some_iff.mp h
  refine ⟨rfl, rfl, rfl, ⟨?_, rfl, rfl, ?_⟩, .inl htags, rfl⟩
  · exact optionIn_of_get rfl
  · exact optionIn_of_get rfl


/-- The row is of an interface of a VM. -/
def InterfaceRow.isOf (vm : ℤ) (name : String) (r : InterfaceRow) : Bool :=
  r.virtualMachine = vm && r.name = name

theorem isOf_iff {vm : ℤ} {name : String} :
    r.isOf vm name = true ↔ r.virtualMachine = vm ∧ r.name = name := by
  rw [InterfaceRow.isOf, Bool.and_eq_true, decide_eq_true_eq, decide_eq_true_eq]

/-- The row that the lookup of an interface finds. -/
def Args.found (a : Args) (g : Guest) (s : Store) : Option InterfaceRow :=
  s.interfaces.find? (InterfaceRow.isOf a.vmId g.name)

variable {s : Store}

theorem mem_of_found (h : a.found g s = some r) :
    r ∈ s.interfaces ∧ r.virtualMachine = a.vmId ∧ r.name = g.name :=
  ⟨List.mem_of_find?_eq_some h, isOf_iff.mp (List.find?_some h)⟩

theorem query_interface : (interfaceTarget py).query (a.lookup g) =
    [("virtual_machine_id", .int a.vmId), ("name", .str g.name), ("limit", .int 2)] := by
  have hlookup : (a.lookup g).filter (fun kv => !kv.2.blank) = a.lookup g := by
    simp [Args.lookup, Json.blank, g.name_ne]
  rw [Target.query, hlookup]
  rfl

theorem find_passes (py : Python) : s.interfaces.find?
    (InterfaceRow.passes ((interfaceTarget py).query (a.lookup g))) = a.found g s := by
  rw [query_interface]
  rfl

/-- What the reconciliation of an interface does on NetBox, and the record that it returns. -/
inductive Turned (nb : NetBox py) (a : Args) (g : Guest) (s : Store) : Store → Option Record → Prop
  | created (r : InterfaceRow) (hfound : a.found g s = none)
      (happly : (nb.blank s.next).apply nb (a.payload py g) = some r) :
      Turned nb a g s (s.addInterface r) (some (r.record nb))
  | unread (r : InterfaceRow) (hfound : a.found g s = some r) (hreadable : ¬ g.Readable py) :
      Turned nb a g s s none
  | same (r : InterfaceRow) (hfound : a.found g s = some r) (hreadable : g.Readable py)
      (hpatch : a.patch nb g r = []) : Turned nb a g s s (some (r.record nb))
  | changed (r r' : InterfaceRow) (hfound : a.found g s = some r) (hreadable : g.Readable py)
      (hpatch : a.patch nb g r ≠ []) (happly : r.apply nb (a.patch nb g r) = some r') :
      Turned nb a g s (s.setInterface r') (some (r'.record nb))

/-- The reconciliation of an interface. -/
abbrev Args.reconcile (py : Python) (a : Args) (g : Guest) : Prog Request Reply (Option Record) :=
  bestEffortReconcile py (interfaceTarget py) (a.lookup g) (a.payload py g)

/-- How the reconciliation goes on from the lookup. -/
def Args.next (nb : NetBox py) (a : Args) (g : Guest) (s : Store) :
    Prog Request Reply (Option Record) :=
  match a.found g s with
  | none => .ask (.create .interfaces (a.payload py g)) written
  | some r =>
    if g.Readable py then
      if a.patch nb g r = [] then .ret (some (r.record nb))
      else .ask (.patch .interfaces r.id (a.patch nb g r)) written
    else .ret none

theorem settle_record : (interfaceTarget py).settle py (r.record nb) (some (a.patch nb g r)) =
    if a.patch nb g r = [] then .ret (some (r.record nb))
    else .ask (.patch .interfaces r.id (a.patch nb g r)) written := by
  have hid : relationId py (.obj (r.record nb)) = some (some r.id) := rfl
  cases hpatch : a.patch nb g r with
  | nil => rfl
  | cons kv rest =>
    rw [if_neg (List.cons_ne_nil kv rest), Target.settle, hid]
    · rfl
    · exact List.cons_ne_nil kv rest

/-- The reconciliation is the lookup, and then what `next` says. -/
theorem reconcile_eq (nb : NetBox py) (a : Args) (g : Guest) (s : Store) :
    ∃ k, a.reconcile py g = .ask (.first .interfaces ((interfaceTarget py).query (a.lookup g))) k ∧
      k (.error ()) = .ret none ∧
      k (.ok ((a.found g s).map (InterfaceRow.record nb))) = a.next nb g s := by
  refine ⟨_, rfl, rfl, ?_⟩
  unfold Args.next
  cases hfound : a.found g s with
  | none => rfl
  | some r =>
    obtain ⟨-, hvm, hname⟩ := mem_of_found hfound
    show (interfaceTarget py).settle py (r.record nb)
      ((interfaceTarget py).patch py (a.lookup g) (a.payload py g) (r.record nb)) = _
    rw [patch_record hvm hname]
    by_cases hreadable : g.Readable py
    · simp only [if_pos hreadable]
      exact settle_record
    · simp only [if_neg hreadable]
      rfl

theorem stored_eq_some {ρ : Type} {path : Path} {payload : Json.Fields} {row : Option ρ} {r : ρ}
    (h : nb.stored path payload row = some r) : row = some r := by
  unfold NetBox.stored at h
  split at h
  · exact h
  · cases h

theorem find_id {rows : List InterfaceRow} (hids : (rows.map InterfaceRow.id).Nodup)
    (hr : r ∈ rows) : rows.find? (fun r' => r'.id = r.id) = some r := by
  cases hfind : rows.find? (fun r' => r'.id = r.id) with
  | none => simpa using List.find?_eq_none.mp hfind r hr
  | some r' =>
    have hid : r'.id = r.id := by simpa using List.find?_some hfind
    rw [List.inj_on_of_nodup_map hids (List.mem_of_find?_eq_some hfind) hr hid]

/-- A run on NetBox, from a request with a number. -/
abbrev NetBox.run {α : Type} (nb : NetBox py) (fault : ℕ → Fault) (p : Prog Request Reply α)
    (s : Store) (n : ℕ) : α × Store × ℕ :=
  p.run (nb.answer fault) (s, n)

/-- Its requests and replies. -/
abbrev NetBox.trace {α : Type} (nb : NetBox py) (fault : ℕ → Fault) (p : Prog Request Reply α)
    (s : Store) (n : ℕ) : List (Prog.Exchange Request Reply) :=
  (p.traceFrom (nb.answer fault) (s, n)).1

/-- No request of a run fails. -/
def Clean (log : List (Prog.Exchange Request Reply)) : Prop := ∀ x ∈ log, ¬ Failed x.1 x.2

/-- No request of a run writes. -/
def Quiet (log : List (Prog.Exchange Request Reply)) : Prop := ∀ x ∈ log, x.1.isWrite = false

theorem settled_cases {ρ : Type} (record : ρ → Record) (put : Store → ρ → Store) (s : Store)
    (row : Option ρ) : settled record put s row = (.error (), s) ∨
      ∃ r, row = some r ∧ settled record put s row = (.ok (record r), put s r) := by
  cases row with
  | none => exact .inl rfl
  | some r => exact .inr ⟨r, rfl, rfl⟩

/-- After one request the store is as it was, or as the request leaves it. -/
theorem run_ask (nb : NetBox py) (fault : ℕ → Fault) {α : Type} {q : Request}
    {k : Reply q → Prog Request Reply α} (hk : ∀ reply, ∃ x, k reply = .ret x) (s : Store) (n : ℕ) :
    (nb.run fault (.ask q k) s n).2.1 = s ∨
      (nb.run fault (.ask q k) s n).2.1 = (nb.serve q s).2 := by
  have hrun : (nb.run fault (.ask q k) s n).2.1 = (nb.answer fault q (s, n)).2.1 := by
    obtain ⟨x, hx⟩ := hk (nb.answer fault q (s, n)).1
    show ((k (nb.answer fault q (s, n)).1).run (nb.answer fault) _).2.1 = _
    rw [hx]
    rfl
  rw [hrun]
  unfold NetBox.answer
  cases fault n with
  | none => exact .inr rfl
  | refused => exact .inl rfl
  | lost => exact .inr rfl

theorem written_ret (reply : Except Unit Record) : ∃ x, written reply = .ret x := by
  cases reply with
  | error e => exact ⟨none, rfl⟩
  | ok record => exact ⟨some record, rfl⟩

/-- A write is rejected, or NetBox does what `Turned` says. -/
def Served (nb : NetBox py) (a : Args) (g : Guest) (s : Store) (served : Except Unit Record × Store) :
    Prop :=
  served = (.error (), s) ∨
    ∃ record s', served = (.ok record, s') ∧ Turned nb a g s s' (some record)

/-- What is left of a reconciliation after the lookup: nothing, or one write. -/
inductive Rest (nb : NetBox py) (a : Args) (g : Guest) (s : Store) :
    Prog Request Reply (Option Record) → Prop
  | done (record : Option Record) (h : Turned nb a g s s record) : Rest nb a g s (.ret record)
  | create (payload : Json.Fields)
      (h : Served nb a g s (nb.serve (.create .interfaces payload) s)) :
      Rest nb a g s (.ask (.create .interfaces payload) written)
  | patch (id : ℤ) (payload : Json.Fields)
      (h : Served nb a g s (nb.serve (.patch .interfaces id payload) s)) :
      Rest nb a g s (.ask (.patch .interfaces id payload) written)

theorem rest_next (hids : (s.interfaces.map InterfaceRow.id).Nodup) :
    Rest nb a g s (a.next nb g s) := by
  unfold Args.next
  cases hfound : a.found g s with
  | none =>
    apply Rest.create
    rcases settled_cases (InterfaceRow.record nb) Store.addInterface s
        (nb.stored .interfaces (a.payload py g) ((nb.blank s.next).apply nb (a.payload py g)))
      with hs | ⟨r, hr, hs⟩
    · exact .inl hs
    · exact .inr ⟨_, _, hs, .created r hfound (stored_eq_some hr)⟩
  | some r =>
    by_cases hreadable : g.Readable py
    · simp only [if_pos hreadable]
      by_cases hpatch : a.patch nb g r = []
      · rw [if_pos hpatch]
        exact .done _ (.same r hfound hreadable hpatch)
      · rw [if_neg hpatch]
        apply Rest.patch
        rcases settled_cases (InterfaceRow.record nb) Store.setInterface s
            (nb.stored .interfaces (a.patch nb g r)
              ((s.interfaces.find? fun r' => r'.id = r.id).bind fun r' =>
                r'.apply nb (a.patch nb g r)))
          with hs | ⟨r', hr', hs⟩
        · exact .inl hs
        · have happly := stored_eq_some hr'
          rw [find_id hids (mem_of_found hfound).1, Option.bind_some] at happly
          exact .inr ⟨_, _, hs, .changed r r' hfound hreadable hpatch happly⟩
    · simp only [if_neg hreadable]
      exact .done _ (.unread r hfound hreadable)

/-- The rest leaves the store as it is, or does what `Turned` says, whatever fails. -/
theorem Rest.run {p : Prog Request Reply (Option Record)} (h : Rest nb a g s p)
    (fault : ℕ → Fault) (n : ℕ) :
    (nb.run fault p s n).2.1 = s ∨ ∃ record, Turned nb a g s (nb.run fault p s n).2.1 record := by
  have hserved : ∀ {served : Except Unit Record × Store} {s' : Store}, Served nb a g s served →
      s' = s ∨ s' = served.2 → s' = s ∨ ∃ record, Turned nb a g s s' record := by
    rintro served s' (hs | ⟨record, s'', hs, hturned⟩) (h | h)
    · exact .inl h
    · exact .inl (h.trans (congrArg Prod.snd hs))
    · exact .inl h
    · exact .inr ⟨some record, h.trans (congrArg Prod.snd hs) ▸ hturned⟩
  cases h with
  | done record h => exact .inl rfl
  | create payload h =>
    exact hserved h (run_ask nb fault (q := .create .interfaces payload) written_ret s n)
  | patch id payload h =>
    exact hserved h (run_ask nb fault (q := .patch .interfaces id payload) written_ret s n)

/-- If no request fails, the rest does what `Turned` says. -/
theorem Rest.clean {p : Prog Request Reply (Option Record)} (h : Rest nb a g s p) {n : ℕ}
    (hclean : Clean (nb.trace never p s n)) :
    Turned nb a g s (nb.run never p s n).2.1 (nb.run never p s n).1 := by
  cases h with
  | done record h => exact h
  | create payload h =>
    rcases h with h | ⟨record, s', h, hturned⟩
    · exact absurd (congrArg Prod.fst h) (hclean _ List.mem_cons_self)
    · show Turned nb a g s (nb.run never (written (nb.serve (.create .interfaces payload) s).1)
        (nb.serve (.create .interfaces payload) s).2 (n + 1)).2.1
        (nb.run never (written (nb.serve (.create .interfaces payload) s).1)
        (nb.serve (.create .interfaces payload) s).2 (n + 1)).1
      rw [h]
      exact hturned
  | patch id payload h =>
    rcases h with h | ⟨record, s', h, hturned⟩
    · exact absurd (congrArg Prod.fst h) (hclean _ List.mem_cons_self)
    · show Turned nb a g s (nb.run never (written (nb.serve (.patch .interfaces id payload) s).1)
        (nb.serve (.patch .interfaces id payload) s).2 (n + 1)).2.1
        (nb.run never (written (nb.serve (.patch .interfaces id payload) s).1)
        (nb.serve (.patch .interfaces id payload) s).2 (n + 1)).1
      rw [h]
      exact hturned

theorem serve_first : nb.serve (.first .interfaces ((interfaceTarget py).query (a.lookup g))) s =
    (.ok ((a.found g s).map (InterfaceRow.record nb)), s) := by
  rw [← find_passes py]
  rfl

theorem answer_eq (nb : NetBox py) (fault : ℕ → Fault) (q : Request) (s : Store) (n : ℕ) :
    nb.answer fault q (s, n) = match fault n with
      | .none => ((nb.serve q s).1, (nb.serve q s).2, n + 1)
      | .refused => (unavailable q, s, n + 1)
      | .lost => (unavailable q, (nb.serve q s).2, n + 1) := rfl

/-- The lookup fails, or the rest follows. -/
theorem run_reconcile_cases (nb : NetBox py) (a : Args) (g : Guest) (s : Store) (fault : ℕ → Fault)
    (n : ℕ) : ∃ first : Prog.Exchange Request Reply, first.1.isWrite = false ∧
      (fault n ≠ .none ∧ nb.trace fault (a.reconcile py g) s n = [first] ∧
        nb.run fault (a.reconcile py g) s n = (none, s, n + 1) ∨
      nb.trace fault (a.reconcile py g) s n = first :: nb.trace fault (a.next nb g s) s (n + 1) ∧
        nb.run fault (a.reconcile py g) s n = nb.run fault (a.next nb g s) s (n + 1)) := by
  obtain ⟨k, hk, herror, hok⟩ := reconcile_eq nb a g s
  rw [hk]
  refine ⟨⟨_, (nb.answer fault (.first .interfaces ((interfaceTarget py).query (a.lookup g))) (s, n)).1⟩,
    rfl, ?_⟩
  show fault n ≠ .none ∧ _ :: (Prog.traceFrom _ (k (nb.answer fault _ (s, n)).1)
      (nb.answer fault _ (s, n)).2).1 = _ ∧
      Prog.run _ (k (nb.answer fault _ (s, n)).1) (nb.answer fault _ (s, n)).2 = _ ∨
    _ :: (Prog.traceFrom _ (k (nb.answer fault _ (s, n)).1) (nb.answer fault _ (s, n)).2).1 = _ ∧
      Prog.run _ (k (nb.answer fault _ (s, n)).1) (nb.answer fault _ (s, n)).2 = _
  rw [answer_eq]
  cases hfault : fault n with
  | none =>
    right
    dsimp only
    rw [serve_first, hok]
    exact ⟨rfl, rfl⟩
  | refused =>
    left
    refine ⟨nofun, ?_, ?_⟩
    · dsimp only [unavailable]
      rw [herror]
      rfl
    · dsimp only [unavailable]
      rw [herror]
      rfl
  | lost =>
    left
    refine ⟨nofun, ?_, ?_⟩
    · dsimp only [unavailable]
      rw [herror]
      rfl
    · dsimp only [unavailable]
      rw [herror, serve_first]
      rfl

/-- A reconciliation leaves the store as it is, or does what `Turned` says, whatever fails. -/
theorem run_reconcile (fault : ℕ → Fault) (hids : (s.interfaces.map InterfaceRow.id).Nodup) (n : ℕ) :
    (nb.run fault (a.reconcile py g) s n).2.1 = s ∨
      ∃ record, Turned nb a g s (nb.run fault (a.reconcile py g) s n).2.1 record := by
  obtain ⟨first, -, ⟨-, -, hrun⟩ | ⟨-, hrun⟩⟩ := run_reconcile_cases nb a g s fault n
  · rw [hrun]
    exact .inl rfl
  · rw [hrun]
    exact (rest_next hids).run fault (n + 1)

theorem clean_reconcile (hids : (s.interfaces.map InterfaceRow.id).Nodup) {n : ℕ}
    (hclean : Clean (nb.trace never (a.reconcile py g) s n)) :
    Turned nb a g s (nb.run never (a.reconcile py g) s n).2.1
      (nb.run never (a.reconcile py g) s n).1 := by
  obtain ⟨first, -, ⟨hfault, -, -⟩ | ⟨htrace, hrun⟩⟩ := run_reconcile_cases nb a g s never n
  · exact absurd rfl hfault
  · rw [htrace] at hclean
    rw [hrun]
    exact (rest_next hids).clean fun x hx => hclean x (List.mem_cons_of_mem _ hx)

/-- A reconciliation writes nothing if it finds a row with nothing to patch, or one that it cannot
read. -/
theorem quiet_reconcile (nb : NetBox py) {r : InterfaceRow} (hfound : a.found g s = some r)
    (hquiet : g.Readable py → a.patch nb g r = []) (fault : ℕ → Fault) (n : ℕ) :
    Quiet (nb.trace fault (a.reconcile py g) s n) ∧ (nb.run fault (a.reconcile py g) s n).2.1 = s ∧
      ((nb.run fault (a.reconcile py g) s n).1 = none ∨ g.Readable py ∧
        (nb.run fault (a.reconcile py g) s n).1 = some (r.record nb)) := by
  have hnext : a.next nb g s = .ret (if g.Readable py then some (r.record nb) else none) := by
    unfold Args.next
    rw [hfound]
    dsimp only
    by_cases hreadable : g.Readable py
    · rw [if_pos hreadable, if_pos hreadable, if_pos (hquiet hreadable)]
    · rw [if_neg hreadable, if_neg hreadable]
  obtain ⟨first, hfirst, ⟨-, htrace, hrun⟩ | ⟨htrace, hrun⟩⟩ := run_reconcile_cases nb a g s fault n
  · rw [htrace, hrun]
    refine ⟨?_, rfl, .inl rfl⟩
    intro x hx
    rw [List.mem_singleton.mp hx]
    exact hfirst
  · rw [htrace, hrun, hnext]
    refine ⟨?_, rfl, ?_⟩
    · intro x hx
      rcases List.mem_cons.mp hx with rfl | hx
      · exact hfirst
      · cases hx
    · by_cases hreadable : g.Readable py
      · exact .inr ⟨hreadable, if_pos hreadable⟩
      · exact .inl (if_neg hreadable)

/-- A reconciliation writes if it finds a row that it can read with something to patch. -/
theorem writes_reconcile {r : InterfaceRow} (hfound : a.found g s = some r)
    (hreadable : g.Readable py) (hpatch : a.patch nb g r ≠ []) (n : ℕ) :
    ¬ Quiet (nb.trace never (a.reconcile py g) s n) := by
  have hnext : a.next nb g s = .ask (.patch .interfaces r.id (a.patch nb g r)) written := by
    unfold Args.next
    rw [hfound]
    dsimp only
    rw [if_pos hreadable, if_neg hpatch]
  obtain ⟨first, -, ⟨hfault, -, -⟩ | ⟨htrace, -⟩⟩ := run_reconcile_cases nb a g s never n
  · exact absurd rfl hfault
  · rw [htrace, hnext]
    intro hquiet
    have hwrite := hquiet _ (List.mem_cons_of_mem _ List.mem_cons_self)
    cases hwrite

section Links

variable {guestId ipId : ℤ} {l : AddressRow}

def AddressRow.isOf (guestId ipId : ℤ) (l : AddressRow) : Bool :=
  l.guestInterface = guestId && l.ipAddress = ipId

/-- An interface is linked to an address. -/
def Store.Linked (s : Store) (guestId ipId : ℤ) : Prop :=
  ∃ l ∈ s.addresses, AddressRow.isOf guestId ipId l = true

abbrev linkAddress (py : Python) (guestId ipId : ℤ) : Prog Request Reply (Option Record) :=
  bestEffortReconcile py (addressTarget py) (linkPayload guestId ipId) (linkPayload guestId ipId)

theorem endsWith_guest_interface : "guest_interface".endsWith "_id" = false := by decide +kernel

theorem endsWith_ip_address : "ip_address".endsWith "_id" = false := by decide +kernel

theorem currentGuestInterfaceAddress_record (l : AddressRow) :
    currentGuestInterfaceAddress py (l.record nb) =
      some (linkPayload l.guestInterface l.ipAddress) := by
  have hguest : idOrNull py (nb.nested "guest-vm-interfaces" l.guestInterface) =
      some (.int l.guestInterface) := idOrNull_option nb "guest-vm-interfaces" (some l.guestInterface)
  have hip : idOrNull py (nb.nested "ip-addresses" l.ipAddress) = some (.int l.ipAddress) :=
    idOrNull_option nb "ip-addresses" (some l.ipAddress)
  have hfields : currentGuestInterfaceAddress py (l.record nb) =
      (idOrNull py (nb.nested "guest-vm-interfaces" l.guestInterface)).bind fun guestInterface =>
        (idOrNull py (nb.nested "ip-addresses" l.ipAddress)).bind fun ipAddress =>
          some [("guest_interface", guestInterface), ("ip_address", ipAddress)] := rfl
  rw [hfields, hguest, hip]
  rfl

theorem pyEq_int_self (n : ℤ) : (Json.int n).pyEq (.int n) = true := by
  simp [Json.pyEq, Json.number]

/-- There is nothing to patch in a link that is there. -/
theorem patch_link : (addressTarget py).patch py (linkPayload guestId ipId)
    (linkPayload guestId ipId) ((AddressRow.mk l.id guestId ipId).record nb) = some [] := by
  have hguest : keyMatches py (linkPayload guestId ipId) "guest_interface" (.int guestId) = some true :=
    keyMatches_of_ids (some guestId) endsWith_guest_interface rfl rfl (pyEq_int_self guestId)
  have hip : keyMatches py (linkPayload guestId ipId) "ip_address" (.int ipId) = some true :=
    keyMatches_of_ids (some ipId) endsWith_ip_address rfl rfl (pyEq_int_self ipId)
  have hmatches : lookupMatches py (linkPayload guestId ipId) (linkPayload guestId ipId) = some true := by
    show (keyMatches py (linkPayload guestId ipId) "guest_interface" (.int guestId)).bind (fun first =>
        if first then (keyMatches py (linkPayload guestId ipId) "ip_address" (.int ipId)).bind fun second =>
          if second then some true else some false
        else some false) = some true
    rw [hguest, Option.bind_some, if_pos rfl, hip]
    rfl
  have hpatch : (addressTarget py).patch py (linkPayload guestId ipId) (linkPayload guestId ipId)
      ((AddressRow.mk l.id guestId ipId).record nb) =
      (currentGuestInterfaceAddress py ((AddressRow.mk l.id guestId ipId).record nb)).bind fun current =>
        (lookupMatches py current (linkPayload guestId ipId)).bind fun found =>
          if found then some (buildPatchPayload current (linkPayload guestId ipId)
            (linkPayload guestId ipId) []) else none := rfl
  rw [hpatch, currentGuestInterfaceAddress_record, Option.bind_some, hmatches, Option.bind_some,
    if_pos rfl]
  show some ((linkPayload guestId ipId).filter fun kv =>
    !(field kv.1 (linkPayload guestId ipId)).pyEq (field kv.1 (linkPayload guestId ipId))) = some []
  rw [Option.some_inj, List.filter_eq_nil_iff]
  intro kv hkv
  rcases List.mem_pair.mp hkv with rfl | rfl
  · show ¬ (!(Json.int guestId).pyEq (.int guestId)) = true
    rw [pyEq_int_self]
    exact Bool.false_ne_true
  · show ¬ (!(Json.int ipId).pyEq (.int ipId)) = true
    rw [pyEq_int_self]
    exact Bool.false_ne_true

theorem isOf_link {l : AddressRow} (h : l.isOf guestId ipId = true) :
    l = ⟨l.id, guestId, ipId⟩ := by
  rw [AddressRow.isOf, Bool.and_eq_true, decide_eq_true_eq, decide_eq_true_eq] at h
  cases l with
  | mk id guestInterface ipAddress =>
    rw [← h.1, ← h.2]

/-- The link is looked up, and created unless it is there. -/
theorem linkAddress_eq (nb : NetBox py) (s : Store) (guestId ipId : ℤ) :
    ∃ k, linkAddress py guestId ipId =
        .ask (.first .addresses ((addressTarget py).query (linkPayload guestId ipId))) k ∧
      k (.error ()) = .ret none ∧
      k (nb.serve (.first .addresses ((addressTarget py).query (linkPayload guestId ipId))) s).1 =
        match s.addresses.find? (AddressRow.isOf guestId ipId) with
        | none => .ask (.create .addresses (linkPayload guestId ipId)) written
        | some l => .ret (some (l.record nb)) := by
  refine ⟨_, rfl, rfl, ?_⟩
  have hfind : s.addresses.find?
      (AddressRow.passes ((addressTarget py).query (linkPayload guestId ipId))) =
        s.addresses.find? (AddressRow.isOf guestId ipId) := rfl
  have hserve : (nb.serve (.first .addresses ((addressTarget py).query (linkPayload guestId ipId))) s).1 =
      Except.ok ((s.addresses.find? (AddressRow.isOf guestId ipId)).map (AddressRow.record nb)) := by
    rw [← hfind]
    rfl
  rw [hserve]
  cases hl : s.addresses.find? (AddressRow.isOf guestId ipId) with
  | none => rfl
  | some l =>
    rw [isOf_link (List.find?_some hl)]
    show (addressTarget py).settle py _ ((addressTarget py).patch py (linkPayload guestId ipId)
      (linkPayload guestId ipId) ((AddressRow.mk l.id guestId ipId).record nb)) = _
    rw [patch_link (l := l)]
    rfl

/-- What a link leaves: the interfaces as they are, and all links. -/
structure Grown (s s' : Store) : Prop where
  interfaces : s'.interfaces = s.interfaces
  next : s.next ≤ s'.next
  addresses : s.addresses ⊆ s'.addresses

theorem Grown.refl (s : Store) : Grown s s := ⟨rfl, le_rfl, List.Subset.refl _⟩

theorem Grown.trans {s s' s'' : Store} (h : Grown s s') (h' : Grown s' s'') : Grown s s'' :=
  ⟨h'.interfaces.trans h.interfaces, h.next.trans h'.next,
    List.Subset.trans h.addresses h'.addresses⟩

theorem Grown.linked {s s' : Store} (h : Grown s s') (hl : s.Linked guestId ipId) :
    s'.Linked guestId ipId := by
  obtain ⟨l, hl, hof⟩ := hl
  exact ⟨l, h.addresses hl, hof⟩

theorem grown_addAddress (s : Store) (l : AddressRow) : Grown s (s.addAddress l) :=
  ⟨rfl, Int.le_add_one le_rfl, List.subset_append_left _ _⟩

/-- The lookup of a link fails, or the creation follows if it is not there. -/
theorem run_linkAddress_cases (nb : NetBox py) (s : Store) (guestId ipId : ℤ) (fault : ℕ → Fault)
    (n : ℕ) : ∃ first : Prog.Exchange Request Reply, first.1.isWrite = false ∧
      ((fault n ≠ .none ∨ s.Linked guestId ipId) ∧
        nb.trace fault (linkAddress py guestId ipId) s n = [first] ∧
        (nb.run fault (linkAddress py guestId ipId) s n).2 = (s, n + 1) ∨
      ¬ s.Linked guestId ipId ∧
        nb.trace fault (linkAddress py guestId ipId) s n = first :: nb.trace fault
          (.ask (.create .addresses (linkPayload guestId ipId)) written) s (n + 1) ∧
        nb.run fault (linkAddress py guestId ipId) s n = nb.run fault
          (.ask (.create .addresses (linkPayload guestId ipId)) written) s (n + 1)) := by
  obtain ⟨k, hk, herror, hok⟩ := linkAddress_eq nb s guestId ipId
  rw [hk]
  refine ⟨⟨_, (nb.answer fault
    (.first .addresses ((addressTarget py).query (linkPayload guestId ipId))) (s, n)).1⟩, rfl, ?_⟩
  show _ ∧ _ :: (Prog.traceFrom _ (k (nb.answer fault _ (s, n)).1)
      (nb.answer fault _ (s, n)).2).1 = _ ∧
      (Prog.run _ (k (nb.answer fault _ (s, n)).1) (nb.answer fault _ (s, n)).2).2 = _ ∨
    _ ∧ _ :: (Prog.traceFrom _ (k (nb.answer fault _ (s, n)).1) (nb.answer fault _ (s, n)).2).1 = _ ∧
      Prog.run _ (k (nb.answer fault _ (s, n)).1) (nb.answer fault _ (s, n)).2 = _
  rw [answer_eq]
  cases hfault : fault n with
  | none =>
    dsimp only
    rw [hok]
    cases hl : s.addresses.find? (AddressRow.isOf guestId ipId) with
    | none =>
      refine .inr ⟨?_, rfl, rfl⟩
      rintro ⟨l, hmem, hof⟩
      exact List.find?_eq_none.mp hl l hmem hof
    | some l =>
      exact .inl ⟨.inr ⟨l, List.mem_of_find?_eq_some hl, List.find?_some hl⟩, rfl, rfl⟩
  | refused =>
    left
    refine ⟨.inl nofun, ?_, ?_⟩
    · dsimp only [unavailable]
      rw [herror]
      rfl
    · dsimp only [unavailable]
      rw [herror]
      rfl
  | lost =>
    left
    refine ⟨.inl nofun, ?_, ?_⟩
    · dsimp only [unavailable]
      rw [herror]
      rfl
    · dsimp only [unavailable]
      rw [herror]
      rfl

theorem serve_create_address (nb : NetBox py) (s : Store) (guestId ipId : ℤ) :
    nb.serve (.create .addresses (linkPayload guestId ipId)) s = (.error (), s) ∨
      nb.serve (.create .addresses (linkPayload guestId ipId)) s =
        (.ok ((AddressRow.mk s.next guestId ipId).record nb),
          s.addAddress ⟨s.next, guestId, ipId⟩) := by
  rcases settled_cases (AddressRow.record nb) Store.addAddress s
      (nb.stored .addresses (linkPayload guestId ipId)
        (some ((AddressRow.mk s.next 0 0).apply (linkPayload guestId ipId)))) with hs | ⟨l, hl, hs⟩
  · exact .inl hs
  · obtain rfl := Option.some.inj (stored_eq_some hl)
    exact .inr hs

/-- A link leaves the interfaces as they are, whatever fails. -/
theorem grown_linkAddress (fault : ℕ → Fault) (n : ℕ) :
    Grown s (nb.run fault (linkAddress py guestId ipId) s n).2.1 := by
  obtain ⟨first, -, ⟨-, -, hrun⟩ | ⟨-, -, hrun⟩⟩ := run_linkAddress_cases nb s guestId ipId fault n
  · rw [hrun]
    exact .refl s
  · rw [hrun]
    rcases run_ask nb fault (q := .create .addresses (linkPayload guestId ipId)) written_ret s (n + 1)
      with h | h
    · rw [h]
      exact .refl s
    · rw [h]
      rcases serve_create_address nb s guestId ipId with hs | hs
      · rw [hs]
        exact .refl s
      · rw [hs]
        exact grown_addAddress s _

theorem clean_linkAddress {n : ℕ} (hclean : Clean (nb.trace never (linkAddress py guestId ipId) s n)) :
    (nb.run never (linkAddress py guestId ipId) s n).2.1.Linked guestId ipId := by
  obtain ⟨first, -, ⟨hlinked, -, hrun⟩ | ⟨-, htrace, hrun⟩⟩ :=
    run_linkAddress_cases nb s guestId ipId never n
  · rw [hrun]
    exact hlinked.resolve_left (absurd rfl)
  · rw [htrace] at hclean
    rw [hrun]
    rcases serve_create_address nb s guestId ipId with hs | hs
    · exact absurd (congrArg Prod.fst hs) (hclean _ (List.mem_cons_of_mem _ List.mem_cons_self))
    · show (nb.run never (written (nb.serve (.create .addresses (linkPayload guestId ipId)) s).1)
        (nb.serve (.create .addresses (linkPayload guestId ipId)) s).2 _).2.1.Linked guestId ipId
      rw [hs]
      refine ⟨⟨s.next, guestId, ipId⟩, List.mem_append_right _ List.mem_cons_self, ?_⟩
      simp [AddressRow.isOf]

theorem quiet_linkAddress (nb : NetBox py) (hlinked : s.Linked guestId ipId) (fault : ℕ → Fault) (n : ℕ) :
    Quiet (nb.trace fault (linkAddress py guestId ipId) s n) ∧
      (nb.run fault (linkAddress py guestId ipId) s n).2.1 = s := by
  obtain ⟨first, hfirst, ⟨-, htrace, hrun⟩ | ⟨hnot, -, -⟩⟩ :=
    run_linkAddress_cases nb s guestId ipId fault n
  · rw [htrace, hrun]
    refine ⟨?_, rfl⟩
    intro x hx
    rw [List.mem_singleton.mp hx]
    exact hfirst
  · exact absurd hlinked hnot

end Links

end ProxboxApi.GuestRows
