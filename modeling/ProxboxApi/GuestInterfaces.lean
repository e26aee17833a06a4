import ProxboxApi.Outcomes
import ProxboxApi.VmIdentity

/-! The interfaces that a guest agent reports, with the entries of aliases merged into those of
their parents. -/

namespace ProxboxApi.GuestAgent

open ProxboxApi.VmQueue (field)

structure Address where
  ipAddress : String
  prefixLen : Json
  ipAddressType : Json

structure Interface where
  name : String
  macAddress : Json
  ipAddresses : List Address

/-- `a or b`. -/
def either (a b : Json) : Json := if Python.truthy a then a else b

/-- What a `for` goes through; `none` is a `TypeError`. -/
def iterate : Json → Option (List Json)
  | .arr items => some items
  | .obj fields => some (fields.map fun kv => .str kv.1)
  | .str s => some (s.toList.map fun c => .str (String.singleton c))
  | _ => none

variable (py : Python)

/-- `_alias_base_name`: the greedy `.+` takes all up to the last colon, `$` also matches before a
final newline, and `.` matches no newline. -/
def aliasBaseName (name : String) : Option String :=
  let chars := name.toList.reverse
  let chars := if chars.head? = some '\n' then chars.tail else chars
  let digits := chars.takeWhile (· ≠ ':')
  match chars.dropWhile (· ≠ ':') with
  | _ :: base =>
    if digits ≠ [] && digits.all py.isDecimal && base ≠ [] && '\n' ∉ base then
      some (String.ofList base.reverse)
    else none
  | [] => none

/-- An address of an alias is added unless its pair is there. -/
def addAddress (addresses : List Address) (addr : Address) : List Address :=
  if addresses.any fun seen =>
    seen.ipAddress = addr.ipAddress && Json.pyEq seen.prefixLen addr.prefixLen
  then addresses else addresses ++ [addr]

/-- `_merge_interface_addresses`; a prefix that is no scalar cannot be hashed. -/
def mergeInterfaceAddresses (canonical source : Interface) : Option Interface :=
  if (canonical.ipAddresses ++ source.ipAddresses).all (·.prefixLen.hashable) then
    some { canonical with
      ipAddresses := source.ipAddresses.foldl addAddress canonical.ipAddresses }
  else none

/-- The first interface of each name that is not an alias. -/
def parentByName (interfaces : List Interface) : List (String × ℕ) :=
  interfaces.zipIdx.foldl (fun parents entry =>
    if aliasBaseName py entry.1.name = none then Dict.setDefault entry.1.name entry.2 parents
    else parents) []

/-- The entries as they stand, the canonical index of each name without a parent, and the indexes
to drop. -/
structure Pass where
  interfaces : List Interface
  aliasCanonicalByBase : List (String × ℕ)
  drop : List ℕ

/-- One round of the second loop. -/
def aggregateStep (parents : List (String × ℕ)) (pass : Pass) (entry : Interface × ℕ) :
    Option Pass :=
  match aliasBaseName py entry.1.name with
  | none => some pass
  | some base =>
    let pass := { pass with
      aliasCanonicalByBase := if (Dict.get base parents).isSome then pass.aliasCanonicalByBase
        else Dict.setDefault base entry.2 pass.aliasCanonicalByBase }
    let canonical := ((Dict.get base parents).or
      (Dict.get base pass.aliasCanonicalByBase)).getD entry.2
    if canonical = entry.2 then some pass
    else do
      let target ← pass.interfaces[canonical]?
      let source ← pass.interfaces[entry.2]?
      let merged ← mergeInterfaceAddresses target source
      some { pass with
        interfaces := pass.interfaces.set canonical merged
        drop := entry.2 :: pass.drop }

def Pass.kept (pass : Pass) : List Interface :=
  if pass.drop = [] then pass.interfaces
  else (pass.interfaces.zipIdx.filter fun entry => entry.2 ∉ pass.drop).map Prod.fst

/-- `_aggregate_guest_agent_interfaces`. -/
def aggregate (interfaces : List Interface) : Option (List Interface) :=
  (interfaces.zipIdx.foldlM (aggregateStep py (parentByName py interfaces))
    ⟨interfaces, [], []⟩).map Pass.kept

def rawInterfaces : Json → Option (List Json)
  | .obj fields =>
    iterate (either (field "result" fields) (either (field "interfaces" fields) (.arr [])))
  | .arr items => some items
  | _ => some []

/-- The address lists of an item. -/
def rawAddresses (item : Json.Fields) : Option (List Json) :=
  iterate (either (field "ip-addresses" item) (either (field "ip_addresses" item) (.arr [])))

/-- What is kept of an address, if anything. -/
def normalizeAddress : Json → Option Address
  | .obj addr =>
    let ipAddress := either (field "ip-address" addr) (field "ip_address" addr)
    if Python.truthy ipAddress then
      some ⟨py.str ipAddress, field "prefix" addr,
        either (field "ip-address-type" addr) (field "ip_address_type" addr)⟩
    else none
  | _ => none

/-- What is kept of an item, if anything; the outer `none` is an exception. -/
def normalizeInterface : Json → Option (Option Interface)
  | .obj item =>
    if Python.truthy (field "name" item) then
      (rawAddresses item).map fun addresses => some
        ⟨py.str (field "name" item),
          either (field "hardware-address" item) (field "hardware_address" item),
          addresses.filterMap (normalizeAddress py)⟩
    else some none
  | _ => some none

/-- The entries before aliases are merged. -/
def normalized (payload : Json) : Option (List Interface) :=
  (rawInterfaces payload).bind fun raw =>
    (raw.mapM (normalizeInterface py)).map List.reduceOption

/-- `_normalize_guest_agent_interfaces`, `none` where it raises. -/
def normalizeGuestAgentInterfaces (payload : Json) : Option (List Interface) :=
  (normalized py payload).bind (aggregate py)


example : aliasBaseName Python.ascii "ens20:1" = some "ens20" ∧
    aliasBaseName Python.ascii "eth0:1:2" = some "eth0:1" ∧
    aliasBaseName Python.ascii "ens20" = none := by decide +kernel

/-- The name of the interface that an entry belongs to. -/
def baseOf (interface : Interface) : String :=
  (aliasBaseName py interface.name).getD interface.name

/-- What tells entries apart besides their addresses. -/
def Interface.label (interface : Interface) : String × Json :=
  (interface.name, interface.macAddress)

/-- The same pair of address and prefix, as Python's `in` compares: identical or equal. -/
def SamePair (a b : Address) : Prop :=
  a.ipAddress = b.ipAddress ∧
    (a.prefixLen = b.prefixLen ∨ Json.pyEq a.prefixLen b.prefixLen = true)

/-- The index of the entry that collects the addresses of a base name's aliases: the first entry
of that very name, else the first alias. -/
def canonicalOf (input : List Interface) (base : String) : Option ℕ :=
  (input.findIdx? fun i => aliasBaseName py i.name = none ∧ i.name = base).or
    (input.findIdx? fun i => aliasBaseName py i.name = some base)

variable {py}

theorem SamePair.rfl {a : Address} : SamePair a a := ⟨Eq.refl _, .inl (Eq.refl _)⟩

theorem get_foldl_parents (base : String) (l : List Interface) (n : ℕ) (d : List (String × ℕ)) :
    Dict.get base ((l.zipIdx n).foldl (fun parents entry =>
      if aliasBaseName py entry.1.name = none then Dict.setDefault entry.1.name entry.2 parents
      else parents) d) = (Dict.get base d).or
        ((l.findIdx? fun i => aliasBaseName py i.name = none ∧ i.name = base).map (· + n)) := by
  induction l generalizing n d with
  | nil => simp
  | cons x l ih =>
    have hshift : (fun i => i + (n + 1)) = (· + n) ∘ (· + 1) := by
      funext i
      simp only [Function.comp_apply]
      omega
    rw [List.zipIdx_cons, List.foldl_cons, ih, List.findIdx?_cons]
    by_cases hparent : aliasBaseName py x.name = none
    · rw [if_pos hparent, Dict.get_setDefault]
      by_cases hname : x.name = base
      · subst hname
        simp [hparent]
      · simp [hname, hshift]
    · rw [if_neg hparent]
      simp [hparent, hshift]

theorem get_parentByName (base : String) (input : List Interface) :
    Dict.get base (parentByName py input) =
      input.findIdx? fun i => aliasBaseName py i.name = none ∧ i.name = base := by
  rw [parentByName, get_foldl_parents]
  simp [Dict.get]

/-- The canonical entry belongs to the base name, and no entry of that very name stands behind an
alias. -/
theorem canonicalOf_spec {input : List Interface} {base : String} {c : ℕ}
    (h : canonicalOf py input base = some c) : ∃ x, input[c]? = some x ∧ baseOf py x = base ∧
      ∀ base', aliasBaseName py x.name = some base' → base' = base := by
  rw [canonicalOf, Option.or_eq_some_iff] at h
  obtain hparent | ⟨_, halias⟩ := h
  · obtain ⟨hlt, hx, _⟩ := List.findIdx?_eq_some_iff_getElem.mp hparent
    simp only [decide_eq_true_eq] at hx
    refine ⟨input[c], List.getElem?_eq_getElem hlt, ?_, ?_⟩
    · rw [baseOf, hx.1, Option.getD_none, hx.2]
    · rw [hx.1]
      simp
  · obtain ⟨hlt, hx, _⟩ := List.findIdx?_eq_some_iff_getElem.mp halias
    simp only [decide_eq_true_eq] at hx
    refine ⟨input[c], List.getElem?_eq_getElem hlt, ?_, ?_⟩
    · rw [baseOf, hx, Option.getD_some]
    · rw [hx]
      simp

theorem mem_addAddress {addresses : List Address} {addr a : Address}
    (h : a ∈ addAddress addresses addr) : a ∈ addresses ∨ a = addr := by
  unfold addAddress at h
  split at h
  · exact .inl h
  · rcases List.mem_append.mp h with h | h
    · exact .inl h
    · exact .inr (List.mem_singleton.mp h)

theorem mem_addAddress_of_mem {addresses : List Address} {addr a : Address} (h : a ∈ addresses) :
    a ∈ addAddress addresses addr := by
  unfold addAddress
  split
  · exact h
  · exact List.mem_append_left _ h

theorem exists_same_addAddress (addresses : List Address) (addr : Address) :
    ∃ a ∈ addAddress addresses addr, SamePair a addr := by
  unfold addAddress
  split
  · rename_i hany
    obtain ⟨a, ha, hsame⟩ := List.any_eq_true.mp hany
    simp only [Bool.and_eq_true, decide_eq_true_eq] at hsame
    exact ⟨a, ha, hsame.1, .inr hsame.2⟩
  · exact ⟨addr, by simp, SamePair.rfl⟩

/-- What a merge keeps, where its addresses come from and what it takes from the source. -/
theorem merge_spec {canonical source merged : Interface}
    (h : mergeInterfaceAddresses canonical source = some merged) :
    merged.label = canonical.label ∧ (∀ a ∈ canonical.ipAddresses, a ∈ merged.ipAddresses) ∧
      (∀ a ∈ merged.ipAddresses, a ∈ canonical.ipAddresses ∨ a ∈ source.ipAddresses) ∧
      ∀ a ∈ source.ipAddresses, ∃ a' ∈ merged.ipAddresses, SamePair a' a := by
  rw [mergeInterfaceAddresses, Option.ite_none_right_eq_some] at h
  obtain ⟨_, h⟩ := h
  obtain rfl := Option.some.inj h
  refine ⟨rfl, ?_⟩
  simp only
  generalize canonical.ipAddresses = addresses
  generalize source.ipAddresses = added
  clear h
  induction added generalizing addresses with
  | nil => simp
  | cons addr added ih =>
    rw [List.foldl_cons]
    obtain ⟨hkeeps, hfrom, htakes⟩ := ih (addAddress addresses addr)
    refine ⟨fun a ha => hkeeps a (mem_addAddress_of_mem ha), fun a ha => ?_, ?_⟩
    · rcases hfrom a ha with hold | hnew
      · rcases mem_addAddress hold with hold | rfl
        · exact .inl hold
        · exact .inr (.head _)
      · exact .inr (.tail _ hnew)
    · rw [List.forall_mem_cons]
      obtain ⟨a, ha, hsame⟩ := exists_same_addAddress addresses addr
      exact ⟨⟨a, hkeeps a ha, hsame⟩, htakes⟩

theorem merge_isSome {canonical source : Interface}
    (hcanonical : ∀ a ∈ canonical.ipAddresses, a.prefixLen.hashable = true)
    (hsource : ∀ a ∈ source.ipAddresses, a.prefixLen.hashable = true) :
    (mergeInterfaceAddresses canonical source).isSome = true := by
  rw [mergeInterfaceAddresses, if_pos]
  · rfl
  · simp only [List.all_append, Bool.and_eq_true, List.all_eq_true]
    exact ⟨hcanonical, hsource⟩

end ProxboxApi.GuestAgent
