import Mathlib.Data.Finset.Image
import ProxboxApi.FreshNames
import ProxboxApi.VmIdentity

/-! The name of one VM within a NetBox cluster: the smallest free suffix, and the renames by
an operator and in Proxmox. -/

namespace ProxboxApi.VmNames

open ProxboxApi.VmQueue

structure NameResolution where
  resolvedName : String
  originalName : String
  suffixIndex : ℕ
  isCollision : Bool
  operatorRenamed : Bool
  deriving DecidableEq, Repr

variable (py : Python)

/-- The `base` group of `_SUFFIX_RE`, read from the end of the name: `$` also stands before a
last line feed, and `.` is no line feed. -/
def suffixBase (name : String) : Option String :=
  let reversed := match name.toList.reverse with
    | '\n' :: rest => rest
    | chars => chars
  match reversed with
  | ')' :: rest =>
    let digits := rest.takeWhile py.isDecimal
    match digits, rest.dropWhile py.isDecimal with
    | _ :: _, '(' :: ' ' :: base =>
      if base ≠ [] ∧ '\n' ∉ base then some (String.ofList base.reverse) else none
    | _, _ => none
  | _ => none

/-- `_is_algorithmic_variant`. -/
def isAlgorithmicVariant (name candidate : String) : Bool :=
  py.casefold name = py.casefold candidate ||
    match suffixBase py name with
    | some base => py.casefold base = py.casefold candidate
    | none => false

/-- The candidate with a suffix. -/
def suffixed (candidate : String) (n : ℕ) : String := candidate ++ (" (" ++ (toString n ++ ")"))

/-- `_pick_suffix`; one suffix more than there are names is enough for its loop. -/
def pickSuffix (candidate : String) (used : Finset String) : String × ℕ :=
  let usedCf := used.image py.casefold
  if py.casefold candidate ∉ usedCf then (candidate, 1)
  else
    let n := FreshNames.search (fun n => py.casefold (suffixed candidate n)) usedCf
      (usedCf.card + 1) 2
    (suffixed candidate n, n)

/-- `str(existing.get("name", ""))`. -/
def existingName (existing : Record) : String :=
  py.str ((Dict.get "name" existing).getD (.str ""))

/-- The stored name is the one that Proxmox last reported, or a variant of it. -/
def renamedInProxmox (existingName : String) : Option String → Bool
  | none => false
  | some lastSynced =>
    lastSynced ≠ "" &&
      (existingName = lastSynced || isAlgorithmicVariant py existingName lastSynced)

/-- Who has renamed a VM whose stored name is neither its candidate nor a variant of it. -/
inductive Rename where
  | none
  | operator (existingName : String)
  | proxmox (existingName : String)
  deriving DecidableEq, Repr

/-- The case that `resolve_unique_vm_name` distinguishes. -/
def rename (netboxClusterId : Option ℤ) (candidate : String) (existing : Option Record)
    (lastSyncedProxmoxName : Option String) : Rename :=
  match existing, netboxClusterId with
  | some existing, some _ =>
    let name := existingName py existing
    if name ≠ "" ∧ !isAlgorithmicVariant py name candidate then
      if renamedInProxmox py name lastSyncedProxmoxName then .proxmox name else .operator name
    else .none
  | _, _ => .none

/-- `resolve_unique_vm_name`, with the used names after it. -/
def resolveUniqueVmName (netboxClusterId : Option ℤ) (candidate : String)
    (usedNamesInCluster : Finset String) (existing : Option Record)
    (lastSyncedProxmoxName : Option String) : NameResolution × Finset String :=
  let pick := fun used : Finset String =>
    let (resolved, idx) := pickSuffix py candidate used
    ((⟨resolved, candidate, idx, 1 < idx, false⟩ : NameResolution), insert resolved used)
  match rename py netboxClusterId candidate existing lastSyncedProxmoxName with
  | .operator name =>
    (⟨name, candidate, 1, false, true⟩, insert name usedNamesInCluster)
  | .proxmox name => pick (usedNamesInCluster.erase name)
  | .none => pick usedNamesInCluster

/-- The candidate and its suffixed forms, in the order `_pick_suffix` tries them. -/
def variant (candidate : String) : ℕ → String
  | 0 => candidate
  | n + 1 => suffixed candidate (n + 2)

def foldedVariants (candidate : String) (n : ℕ) : String := py.casefold (variant candidate n)

theorem casefold_append (s t : String) : py.casefold (s ++ t) = py.casefold s ++ py.casefold t := by
  unfold Python.casefold
  rw [String.toList_append, List.flatMap_append, String.ofList_append]

theorem toLower_of_lt {c : Char} (h : c.toNat < 65) : c.toLower = c := by
  unfold Char.toLower
  rw [dif_neg]
  rintro ⟨hupper, -⟩
  have hupper' : 65 ≤ c.toNat := hupper
  omega

/-- Blanks, digits and parentheses have no case. -/
theorem casefold_of_lt {s : String} (h : ∀ c ∈ s.toList, c.toNat < 65) : py.casefold s = s := by
  have hfold : ∀ c ∈ s.toList, py.fold c = [c] := by
    intro c hc
    have hlt := h c hc
    rw [py.fold_ascii c (by omega), toLower_of_lt hlt]
  unfold Python.casefold
  rw [List.flatMap_congr hfold, List.flatMap_singleton', String.ofList_toList]

theorem toString_lt (n : ℕ) : ∀ c ∈ (toString n).toList, c.toNat < 65 := by
  intro c hc
  have hdigit := Text.isDigit_of_mem_toString hc
  simp only [Char.isDigit, Bool.and_eq_true, decide_eq_true_eq] at hdigit
  have hhigh : c.toNat ≤ 57 := hdigit.2
  omega

theorem casefold_suffixed (candidate : String) (n : ℕ) :
    py.casefold (suffixed candidate n) =
      py.casefold candidate ++ (" (" ++ (toString n ++ ")")) := by
  unfold suffixed
  rw [casefold_append, casefold_append, casefold_append,
    casefold_of_lt py (s := toString n) (toString_lt n),
    casefold_of_lt py (s := " (") (by simp), casefold_of_lt py (s := ")") (by simp)]

theorem casefold_suffixed_injective (candidate : String) :
    Function.Injective fun n => py.casefold (suffixed candidate n) := by
  intro m n h
  simp only [casefold_suffixed] at h
  have hchars := congrArg String.toList h
  simp only [String.toList_append] at hchars
  have hnum := List.append_cancel_right (List.append_cancel_left (List.append_cancel_left hchars))
  exact Python.toString_injective (String.toList_injective hnum)

/-- `_pick_suffix` returns the first variant that is not used up to case. -/
theorem pickSuffix_isFirstFree (candidate : String) (used : Finset String) :
    FreshNames.IsFirstFree (foldedVariants py candidate) (used.image py.casefold)
      (py.casefold (pickSuffix py candidate used).1) := by
  unfold pickSuffix
  by_cases hfree : py.casefold candidate ∉ used.image py.casefold
  · rw [if_pos hfree]
    exact ⟨0, rfl, hfree, by simp⟩
  · rw [if_neg hfree]
    set chain := fun n => py.casefold (suffixed candidate n) with hchain
    set taken := used.image py.casefold
    have hle : 2 ≤ FreshNames.search chain taken (taken.card + 1) 2 := FreshNames.le_search
    have hnot : chain (FreshNames.search chain taken (taken.card + 1) 2) ∉ taken :=
      FreshNames.search_not_mem (casefold_suffixed_injective py candidate) (Nat.lt_succ_self _)
    obtain ⟨n, hn⟩ := Nat.exists_eq_add_of_le' hle
    refine ⟨n + 1, ?_, hnot, ?_⟩
    · show chain (n + 2) = _
      rw [hn]
    · intro m hm
      cases m with
      | zero => exact not_not.mp hfree
      | succ m =>
        have hlower : m + 2 < FreshNames.search chain taken (taken.card + 1) 2 := by omega
        have htaken : chain (m + 2) ∈ taken := FreshNames.search_lower (Nat.le_add_left 2 m) hlower
        exact htaken

section Variants

variable {py}

theorem foldedVariants_injective (candidate : String) :
    Function.Injective (foldedVariants py candidate) := by
  have hne : ∀ n, py.casefold candidate ≠ py.casefold (suffixed candidate n) := by
    intro n heq
    rw [casefold_suffixed] at heq
    have hlength := congrArg (fun s => s.toList.length) heq
    simp [String.toList_append] at hlength
  intro m n h
  cases m with
  | zero =>
    cases n with
    | zero => rfl
    | succ n => exact absurd h (hne _)
  | succ m =>
    cases n with
    | zero => exact absurd h.symm (hne _)
    | succ n =>
      have hsuffix := casefold_suffixed_injective py candidate h
      omega

/-- The name that `_pick_suffix` returns is a variant of the candidate. -/
theorem pickSuffix_variant (py : Python) (candidate : String) (used : Finset String) :
    ∃ n, (pickSuffix py candidate used).1 = variant candidate n := by
  unfold pickSuffix
  by_cases hfree : py.casefold candidate ∉ used.image py.casefold
  · rw [if_pos hfree]
    exact ⟨0, rfl⟩
  · rw [if_neg hfree]
    have hle : 2 ≤ FreshNames.search (fun n => py.casefold (suffixed candidate n))
        (used.image py.casefold) ((used.image py.casefold).card + 1) 2 := FreshNames.le_search
    obtain ⟨n, hn⟩ := Nat.exists_eq_add_of_le' hle
    refine ⟨n + 1, ?_⟩
    dsimp only
    rw [hn]
    rfl

/-- `_pick_suffix` returns the variant that is the first free one. -/
theorem pickSuffix_eq {candidate : String} {used : Finset String} {n : ℕ}
    (h : FreshNames.IsFirstFree (foldedVariants py candidate) (used.image py.casefold)
      (foldedVariants py candidate n)) :
    (pickSuffix py candidate used).1 = variant candidate n := by
  obtain ⟨k, hk⟩ := pickSuffix_variant py candidate used
  have hfirst := pickSuffix_isFirstFree py candidate used
  rw [hk] at hfirst
  have hsame : foldedVariants py candidate k = foldedVariants py candidate n := hfirst.eq h
  rw [hk, foldedVariants_injective candidate hsame]

end Variants

end ProxboxApi.VmNames
