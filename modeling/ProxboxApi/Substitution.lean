import Mathlib.Data.List.Infix
import Mathlib.Tactic.Common

/-! Replacing every occurrence of a word in a text, from left to right. -/

namespace Substitution

variable {α : Type} [DecidableEq α]

/-- The count is of the characters of the last occurrence still to pass. -/
def replaceFrom (old new : List α) : ℕ → List α → List α
  | _, [] => []
  | n + 1, _ :: text => replaceFrom old new n text
  | 0, c :: text =>
    if old <+: c :: text then new ++ replaceFrom old new (old.length - 1) text
    else c :: replaceFrom old new 0 text

/-- `str.replace` of a word that is not empty. -/
def replaceAll (old new text : List α) : List α := replaceFrom old new 0 text

variable {old new text : List α} {c : α}

@[simp] theorem replaceAll_nil : replaceAll old new [] = [] := rfl

theorem replaceAll_plain (h : ¬ old <+: c :: text) :
    replaceAll old new (c :: text) = c :: replaceAll old new text := by
  unfold replaceAll
  rw [replaceFrom, if_neg h]

theorem replaceFrom_pass {u : List α} :
    replaceFrom old new u.length (u ++ text) = replaceFrom old new 0 text := by
  induction u with
  | nil => rfl
  | cons d u ih => exact ih

theorem replaceAll_found (h : old ≠ []) :
    replaceAll old new (old ++ text) = new ++ replaceAll old new text := by
  obtain ⟨d, old', rfl⟩ := List.exists_cons_of_ne_nil h
  unfold replaceAll
  rw [List.cons_append, replaceFrom, ← List.cons_append, if_pos (List.prefix_append _ _)]
  exact congrArg (new ++ ·) replaceFrom_pass

/-- A text is empty, starts with the word or starts with another character. -/
theorem replaceAll_induction (old : List α) (hold : old ≠ []) {motive : List α → Prop}
    (nil : motive []) (found : ∀ text, motive text → motive (old ++ text))
    (plain : ∀ c text, ¬ old <+: c :: text → motive text → motive (c :: text)) (text : List α) :
    motive text := by
  induction hn : text.length using Nat.strong_induction_on generalizing text with
  | _ n ih =>
    cases text with
    | nil => exact nil
    | cons c rest =>
      by_cases h : old <+: c :: rest
      · obtain ⟨tail, htail⟩ := h
        rw [← htail]
        have hlt : tail.length < n := by
          have hlen := congrArg List.length htail
          have hpos := List.length_pos_iff.mpr hold
          rw [List.length_append] at hlen
          omega
        exact found tail (ih _ hlt tail rfl)
      · apply plain c rest h
        exact ih rest.length (by simp only [← hn, List.length_cons]; omega) rest rfl

theorem replaceAll_of_not_infix (h : ¬ old <:+: text) : replaceAll old new text = text := by
  induction text with
  | nil => rfl
  | cons c text ih =>
    rw [replaceAll_plain fun hp => h hp.isInfix]
    rw [ih fun hi => h (hi.trans (List.suffix_cons c text).isInfix)]

omit [DecidableEq α] in
/-- A word has no occurrence across a character that it does not contain. -/
theorem prefix_append_cons {xs ys : List α} (hc : c ∉ old) :
    old <+: xs ++ c :: ys ↔ old <+: xs := by
  constructor
  · intro h
    by_cases hlen : old.length ≤ xs.length
    · exact List.prefix_of_prefix_length_le h (List.prefix_append _ _) hlen
    · exfalso
      obtain ⟨tail, htail⟩ := h
      apply hc
      have hget : (old ++ tail)[xs.length]? = some c := by
        rw [htail, List.getElem?_append_right (Nat.le_refl _)]
        simp
      rw [List.getElem?_append_left (by omega)] at hget
      exact List.mem_of_getElem? hget
  · intro h
    exact h.trans (List.prefix_append _ _)

theorem replaceAll_append_cons {xs ys : List α} (hold : old ≠ []) (hc : c ∉ old) :
    replaceAll old new (xs ++ c :: ys) = replaceAll old new xs ++ c :: replaceAll old new ys := by
  induction xs using replaceAll_induction old hold with
  | nil =>
    rw [List.nil_append, replaceAll_plain]
    · rfl
    · intro h
      obtain ⟨d, old', rfl⟩ := List.exists_cons_of_ne_nil hold
      obtain ⟨rfl, -⟩ := List.cons_prefix_cons.mp h
      exact hc List.mem_cons_self
  | found xs ih =>
    rw [List.append_assoc, replaceAll_found hold, replaceAll_found hold, ih, List.append_assoc]
  | plain d xs h ih =>
    have h' : ¬ old <+: d :: (xs ++ c :: ys) := by
      rw [← List.cons_append, prefix_append_cons hc]
      exact h
    rw [List.cons_append, replaceAll_plain h', replaceAll_plain h, ih, List.cons_append]

/-- A text without the first character of the word has no occurrence that starts in it. -/
theorem replaceAll_append_of_not_mem {d : α} {old' u : List α} (hu : d ∉ u) :
    replaceAll (d :: old') new (u ++ text) = u ++ replaceAll (d :: old') new text := by
  induction u with
  | nil => rfl
  | cons x u ih =>
    rw [List.mem_cons, not_or] at hu
    rw [List.cons_append, replaceAll_plain, ih hu.2, List.cons_append]
    intro h
    exact hu.1 (List.cons_prefix_cons.mp h).1

/-- What stands before the first replacement, if it is recognised by its first character, stands
in the text. -/
theorem replaceAll_eq_append {d : α} {old' new' e z : List α}
    (h : replaceAll (d :: old') (d :: new') text = e ++ z) (he : d ∉ e) :
    ∃ rest, text = e ++ rest ∧ replaceAll (d :: old') (d :: new') rest = z := by
  induction e generalizing text with
  | nil => exact ⟨text, rfl, h⟩
  | cons x e ih =>
    rw [List.mem_cons, not_or] at he
    cases text with
    | nil => cases h
    | cons c text =>
      by_cases hp : d :: old' <+: c :: text
      · obtain ⟨tail, htail⟩ := hp
        rw [← htail, replaceAll_found (by simp)] at h
        exact absurd (List.cons.inj h).1 he.1
      · rw [replaceAll_plain hp] at h
        obtain ⟨rfl, htail⟩ := List.cons.inj h
        obtain ⟨rest, rfl, hz⟩ := ih htail he.2
        exact ⟨rest, rfl, hz⟩

end Substitution
