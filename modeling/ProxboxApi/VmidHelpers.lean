import ProxboxApi.VmIdentity

/-! The Proxmox identity of a VM as the sync services read it off NetBox records, sidecar rows and
sessions. -/

namespace ProxboxApi.Vmid

open ProxboxApi.VmQueue (Record field customFields normalizePositiveInt extractProxmoxEndpointId)

variable (py : Python)

/-- `str(value).strip() or None` of a value that is not `None`: `normalize_vmid` and
`_text_or_none`. -/
def textOrNone (value : Json) : Option String :=
  if value.isNull then none
  else
    let text := Text.strip (py.str value)
    if text = "" then none else some text

def normalizeVmid (value : Json) : Option String := textOrNone py value

/-- The first key, at the top of a record and then among its custom fields, whose value is
accepted. -/
def firstField {α : Type} (read : Json → Option α) (top custom : List String)
    (record : Record) : Option α :=
  (top.findSome? fun key => read (field key record)).or
    (match customFields record with
    | some fields => custom.findSome? fun key => read (field key fields)
    | none => none)

/-- `extract_proxmox_vmid`. -/
def extractProxmoxVmid (record : Record) : Option String :=
  firstField (normalizeVmid py)
    ["cf_proxmox_vm_id", "proxmox_vm_id", "cf_proxmox_vmid", "proxmox_vmid"]
    ["proxmox_vm_id", "cf_proxmox_vm_id", "proxmox_vmid", "cf_proxmox_vmid"] record

/-- `str(value).strip().lower()`, if it names a kind of guest. -/
def guestType (value : Json) : Option String :=
  if Python.truthy value then
    let text := py.lower (Text.strip (py.str value))
    if text = "qemu" ∨ text = "lxc" then some text else none
  else none

/-- `extract_proxmox_vm_type`. -/
def extractProxmoxVmType (record : Record) : Option String :=
  firstField (guestType py) ["cf_proxmox_vm_type", "proxmox_vm_type"]
    ["proxmox_vm_type", "cf_proxmox_vm_type"] record

/-- What the services read of a Proxmox session. -/
structure SessionFields where
  dbEndpointId : Json
  endpointId : Json
  proxmoxEndpointId : Json
  name : Json
  clusterName : Json

/-- `extract_proxmox_session_endpoint_id`. -/
def extractProxmoxSessionEndpointId (session : SessionFields) : Option ℤ :=
  [session.dbEndpointId, session.endpointId, session.proxmoxEndpointId].findSome?
    (normalizePositiveInt py)

/-- `relation_name`. -/
def relationName (value : Json) : Option String :=
  match value with
  | .obj fields => ((["name", "display", "label", "value"].map (field · fields)).find?
      Python.truthy).map py.str
  | .str s => if Text.strip s = "" then none else some (Text.strip s)
  | _ => none

/-- The text of an integer has nothing to strip. -/
theorem strip_toString (n : ℤ) : Text.strip (toString n) = toString n := by
  have hnat : ∀ m : ℕ, ∀ c ∈ (toString m).toList, Text.isSpace c = false := by
    intro m c hc
    exact Text.isSpace_of_isDigit (Text.isDigit_of_mem_toString hc)
  have hchars : ∀ c ∈ (toString n).toList, Text.isSpace c = false := by
    cases n with
    | ofNat m => exact hnat m
    | negSucc m =>
      intro c hc
      have htext : toString (Int.negSucc m) = "-" ++ toString (m + 1) := rfl
      rw [htext, String.toList_append] at hc
      rcases List.mem_append.mp hc with hminus | hdigit
      · obtain rfl : c = '-' := by simpa using hminus
        decide
      · exact hnat _ c hdigit
  unfold Text.strip
  rw [Text.stripChars_of_forall hchars, String.ofList_toList]

/-- `int` of ASCII text reads the text of an integer back. -/
theorem parseAscii_toString (n : ℤ) : Python.parseAscii (toString n) = some n := by
  have hstrip : Text.stripChars Text.isSpace (toString n).toList = (toString n).toList := by
    simpa [Text.strip] using congrArg String.toList (strip_toString n)
  unfold Python.parseAscii
  rw [hstrip]
  cases n with
  | ofNat m =>
    obtain ⟨hdigits, hvalue⟩ := Python.digits_toString m
    have htext : toString (Int.ofNat m) = toString m := rfl
    rw [htext]
    split
    · rename_i digits heq
      have hmem : '-' ∈ (toString m).toList := heq ▸ List.mem_cons_self
      exact absurd (Text.isDigit_of_mem_toString hmem) (by decide)
    · rename_i digits heq
      have hmem : '+' ∈ (toString m).toList := heq ▸ List.mem_cons_self
      exact absurd (Text.isDigit_of_mem_toString hmem) (by decide)
    · rw [if_pos hdigits, hvalue]
      rfl
  | negSucc m =>
    obtain ⟨hdigits, hvalue⟩ := Python.digits_toString (m + 1)
    have htext : toString (Int.negSucc m) = "-" ++ toString (m + 1) := rfl
    rw [htext, String.toList_append]
    have hminus : "-".toList ++ (toString (m + 1)).toList = '-' :: (toString (m + 1)).toList := rfl
    rw [hminus]
    split
    · rename_i digits heq
      obtain rfl := (List.cons.inj heq).2
      rw [if_pos hdigits, hvalue]
      rfl
    · rename_i digits heq
      exact absurd (List.cons.inj heq).1 (by decide)
    · rename_i hother _
      exact absurd rfl (hother _)

variable {py}

/-- `int` reads the text of an integer back. -/
theorem stripInt_int (hint : ∀ n : ℤ, py.parseInt (toString n) = some n) (n : ℤ) :
    VmQueue.stripInt py (.int n) = some n := by
  simp only [VmQueue.stripInt, Python.str, strip_toString, hint]

theorem normalizePositiveInt_int (hint : ∀ n : ℤ, py.parseInt (toString n) = some n) {n : ℤ}
    (hn : 0 < n) : normalizePositiveInt py (.int n) = some n := by
  have hne : toString n ≠ "" := by
    have hnonneg : 0 ≤ n := by omega
    obtain ⟨m, rfl⟩ := Int.eq_ofNat_of_zero_le hnonneg
    intro hempty
    have hempty : toString m = "" := hempty
    have hdigits : Nat.toDigits 10 m = [] := by simpa using congrArg String.toList hempty
    have hvalue := Nat.ofDigitChars_ten_toDigits (n := m)
    rw [hdigits] at hvalue
    have hzero : m = 0 := by simpa using hvalue.symm
    omega
  have hstrip : Text.strip (py.str (.int n)) ≠ "" := by
    rw [Python.str, strip_toString]
    exact hne
  unfold normalizePositiveInt
  rw [stripInt_int hint, if_neg (by simp [Json.isNull, hstrip])]
  simp [hn]

end ProxboxApi.Vmid
