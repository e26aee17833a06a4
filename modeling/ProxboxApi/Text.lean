import Mathlib.Data.List.Basic
import Mathlib.Data.List.DropRight

/-! Character-level counterparts of the Python string methods the services use. -/

namespace Text

/-- `str.isspace` of one character. -/
def isSpace (c : Char) : Bool :=
  let n := c.toNat
  (9 ≤ n && n ≤ 13) || (28 ≤ n && n ≤ 32) || n = 0x85 || n = 0xa0 || n = 0x1680 ||
    (0x2000 ≤ n && n ≤ 0x200a) || n = 0x2028 || n = 0x2029 || n = 0x202f || n = 0x205f ||
    n = 0x3000

/-- `str.strip` with a set of characters. -/
def stripChars (p : Char → Bool) (s : List Char) : List Char :=
  ((s.dropWhile p).reverse.dropWhile p).reverse

/-- `str.strip` without an argument. -/
def strip (s : String) : String := String.ofList (stripChars isSpace s.toList)

/-- `str.isdigit`, on the ASCII digits. -/
def isDigits (s : List Char) : Bool := !s.isEmpty && s.all Char.isDigit

theorem dropWhile_of_head {p : Char → Bool} {c : Char} {s : List Char} (hc : p c = false) :
    (c :: s).dropWhile p = c :: s := by
  simp [hc]

/-- Text between two characters that are not stripped is left alone. -/
theorem stripChars_of_ends {p : Char → Bool} {s : List Char} {a b : Char}
    (hfirst : s.head? = some a) (hlast : s.getLast? = some b) (ha : p a = false)
    (hb : p b = false) : stripChars p s = s := by
  obtain ⟨t, rfl⟩ : ∃ t, s = a :: t := by
    cases s with
    | nil => simp at hfirst
    | cons c t => exact ⟨t, by simpa using hfirst⟩
  have hrev : ∃ u, (a :: t).reverse = b :: u := by
    rw [List.getLast?_eq_head?_reverse] at hlast
    cases h : (a :: t).reverse with
    | nil => simp at h
    | cons c u =>
      rw [h] at hlast
      exact ⟨u, by simpa using hlast⟩
  obtain ⟨u, hu⟩ := hrev
  unfold stripChars
  rw [dropWhile_of_head ha, hu, dropWhile_of_head hb, ← hu, List.reverse_reverse]

/-- Text without a character that is stripped is left alone. -/
theorem stripChars_of_forall {p : Char → Bool} {s : List Char} (h : ∀ c ∈ s, p c = false) :
    stripChars p s = s := by
  have hdrop : ∀ l : List Char, (∀ c ∈ l, p c = false) → l.dropWhile p = l := by
    intro l hl
    cases l with
    | nil => rfl
    | cons c l => exact dropWhile_of_head (hl c List.mem_cons_self)
  unfold stripChars
  rw [hdrop s h, hdrop s.reverse fun c hc => h c (List.mem_reverse.mp hc), List.reverse_reverse]

/-- Stripped text has nothing left to strip. -/
theorem stripChars_stripChars (p : Char → Bool) (s : List Char) :
    stripChars p (stripChars p s) = stripChars p s := by
  have hright : ∀ l : List Char, stripChars p l = (l.dropWhile p).rdropWhile p := fun _ => rfl
  have hleft : ((s.dropWhile p).rdropWhile p).dropWhile p = (s.dropWhile p).rdropWhile p := by
    cases hs : (s.dropWhile p).rdropWhile p with
    | nil => rfl
    | cons c t =>
      have hpre : c :: t <+: s.dropWhile p := hs ▸ List.rdropWhile_prefix p _
      obtain ⟨u, hu⟩ := hpre
      have hc : p c = false := by
        have := List.dropWhile_get_zero_not p s (by simp [← hu])
        simpa [← hu] using this
      exact dropWhile_of_head hc
  rw [hright, hright, hleft, List.rdropWhile_idempotent]

theorem dropWhile_append_of_forall {p : Char → Bool} {pad s : List Char}
    (h : ∀ c ∈ pad, p c = true) : (pad ++ s).dropWhile p = s.dropWhile p := by
  induction pad with
  | nil => rfl
  | cons c pad ih =>
    obtain ⟨hc, hpad⟩ := List.forall_mem_cons.mp h
    rw [List.cons_append, List.dropWhile_cons_of_pos hc, ih hpad]

theorem rdropWhile_append_of_forall {p : Char → Bool} {s pad : List Char}
    (h : ∀ c ∈ pad, p c = true) : (s ++ pad).rdropWhile p = s.rdropWhile p := by
  unfold List.rdropWhile
  rw [List.reverse_append, dropWhile_append_of_forall fun c hc => h c (List.mem_reverse.mp hc)]

/-- What stands before the last character that is kept stays. -/
theorem rdropWhile_append_cons {p : Char → Bool} {s t : List Char} {c : Char} (hc : p c = false) :
    (s ++ c :: t).rdropWhile p = s ++ c :: t.rdropWhile p := by
  induction t using List.reverseRecOn with
  | nil =>
    rw [List.rdropWhile_concat_neg p s c (by simp [hc])]
    rfl
  | append_singleton t d ih =>
    rw [← List.cons_append, ← List.append_assoc]
    by_cases hd : p d = true
    · rw [List.rdropWhile_concat_pos p _ d hd, List.rdropWhile_concat_pos p t d hd, ih]
    · rw [List.rdropWhile_concat_neg p _ d hd, List.rdropWhile_concat_neg p t d hd]
      simp

/-- Padding is stripped. -/
theorem stripChars_pad {p : Char → Bool} {left s right : List Char}
    (hleft : ∀ c ∈ left, p c = true) (hright : ∀ c ∈ right, p c = true) :
    stripChars p (left ++ (s ++ right)) = stripChars p s := by
  have hdef : ∀ l : List Char, stripChars p l = (l.dropWhile p).rdropWhile p := fun _ => rfl
  rw [hdef, hdef, dropWhile_append_of_forall hleft]
  by_cases hs : ∀ c ∈ s, p c = true
  · rw [dropWhile_append_of_forall hs, List.dropWhile_eq_nil_iff.mpr hright,
      List.dropWhile_eq_nil_iff.mpr hs]
  · have hkeep : (s ++ right).dropWhile p = s.dropWhile p ++ right := by
      rw [List.dropWhile_append, if_neg]
      rw [List.isEmpty_iff, List.dropWhile_eq_nil_iff]
      exact hs
    rw [hkeep, rdropWhile_append_of_forall hright]

/-- A text is what is left of it when it is stripped, between padding. -/
theorem exists_pad (p : Char → Bool) (s : List Char) :
    ∃ left right, s = left ++ (stripChars p s ++ right) ∧ (∀ c ∈ left, p c = true) ∧
      ∀ c ∈ right, p c = true := by
  refine ⟨s.takeWhile p, (s.dropWhile p).rtakeWhile p, ?_,
    fun c hc => List.mem_takeWhile_imp hc, fun c hc => List.mem_rtakeWhile_imp hc⟩
  rw [show stripChars p s = (s.dropWhile p).rdropWhile p from rfl,
    List.rdropWhile_append_rtakeWhile, List.takeWhile_append_dropWhile]

/-- What a smaller set of characters strips may be stripped first. -/
theorem stripChars_of_le {p q : Char → Bool} (h : ∀ c, p c = true → q c = true) (s : List Char) :
    stripChars q (stripChars p s) = stripChars q s := by
  obtain ⟨left, right, hs, hleft, hright⟩ := exists_pad p s
  conv_rhs => rw [hs]
  exact (stripChars_pad (fun c hc => h c (hleft c hc)) fun c hc => h c (hright c hc)).symm

theorem stripChars_rdropWhile (p : Char → Bool) (s : List Char) :
    stripChars p (s.rdropWhile p) = stripChars p s := by
  have hpad : ∀ c ∈ s.rtakeWhile p, p c = true := fun c hc => List.mem_rtakeWhile_imp hc
  have hnil : ∀ c ∈ ([] : List Char), p c = true := by simp
  have h := stripChars_pad hnil (s := s.rdropWhile p) hpad
  rw [List.nil_append, List.rdropWhile_append_rtakeWhile] at h
  exact h.symm

theorem strip_strip (s : String) : strip (strip s) = strip s := by
  unfold strip
  rw [String.toList_ofList, stripChars_stripChars]

theorem mem_of_mem_stripChars {p : Char → Bool} {s : List Char} {c : Char}
    (h : c ∈ stripChars p s) : c ∈ s := by
  have hsuffix := (List.dropWhile_suffix p (l := (s.dropWhile p).reverse)).subset
    (List.mem_reverse.mp h)
  exact (List.dropWhile_suffix p).subset (List.mem_reverse.mp hsuffix)

/-- The pieces of a text cut at separators are of its other characters. -/
theorem of_mem_splitOnP {α : Type*} {p : α → Bool} {l piece : List α}
    (h : piece ∈ l.splitOnP p) : ∀ a ∈ piece, a ∈ l ∧ p a = false := by
  induction l generalizing piece with
  | nil =>
    obtain rfl : piece = [] := by simpa using h
    simp
  | cons b l ih =>
    rw [List.splitOnP_cons_eq_if_modifyHead] at h
    split at h
    · rcases List.mem_cons.mp h with rfl | h
      · simp
      · exact fun a ha => ⟨List.mem_cons_of_mem b (ih h a ha).1, (ih h a ha).2⟩
    · rename_i hb
      obtain ⟨first, rest, hl⟩ := List.exists_cons_of_ne_nil (List.splitOnP_ne_nil p l)
      rw [hl] at h ih
      rcases List.mem_cons.mp h with rfl | h
      · intro a ha
        rcases List.mem_cons.mp ha with rfl | ha
        · exact ⟨List.mem_cons_self, by simpa using hb⟩
        · have hrest := ih List.mem_cons_self a ha
          exact ⟨List.mem_cons_of_mem b hrest.1, hrest.2⟩
      · intro a ha
        have hrest := ih (List.mem_cons_of_mem first h) a ha
        exact ⟨List.mem_cons_of_mem b hrest.1, hrest.2⟩

/-- The same for one separator. -/
theorem of_mem_splitOn {α : Type*} [BEq α] [LawfulBEq α] {a : α} {l piece : List α}
    (h : piece ∈ l.splitOn a) : a ∉ piece ∧ ∀ c ∈ piece, c ∈ l := by
  have hall := of_mem_splitOnP (p := (· == a)) h
  constructor
  · intro ha
    simpa using (hall a ha).2
  · intro c hc
    exact (hall c hc).1

theorem toLower_cases (c : Char) : (c.toLower = c ∧ ¬ (65 ≤ c.toNat ∧ c.toNat ≤ 90)) ∨
    ((65 ≤ c.toNat ∧ c.toNat ≤ 90) ∧ 97 ≤ c.toLower.toNat ∧ c.toLower.toNat ≤ 122) := by
  unfold Char.toLower
  split
  · rename_i h
    have hlow : 65 ≤ c.toNat := h.1
    have hhigh : c.toNat ≤ 90 := h.2
    have hval : (c.val + ('a'.val - 'A'.val)).toNat = c.toNat + 32 := by
      rw [UInt32.toNat_add]
      exact Nat.mod_eq_of_lt (show c.toNat + 32 < 2 ^ 32 by omega)
    right
    refine ⟨⟨hlow, hhigh⟩, ?_, ?_⟩
    · exact (show 97 ≤ c.toNat + 32 by omega).trans_eq hval.symm
    · exact hval.trans_le (show c.toNat + 32 ≤ 122 by omega)
  · rename_i h
    exact Or.inl ⟨rfl, h⟩

theorem toLower_toLower (c : Char) : c.toLower.toLower = c.toLower := by
  rcases toLower_cases c with ⟨h, -⟩ | ⟨-, h⟩
  · rw [h, h]
  · rcases toLower_cases c.toLower with ⟨h', -⟩ | ⟨h', -⟩
    · exact h'
    · omega

theorem isSpace_toLower (c : Char) : isSpace c.toLower = isSpace c := by
  rcases toLower_cases c with ⟨hsame, -⟩ | ⟨⟨hlow, hhigh⟩, hlow', hhigh'⟩
  · rw [hsame]
  · have hletter : ∀ d : Char, 65 ≤ d.toNat → d.toNat ≤ 122 → isSpace d = false := by
      intro d hlow hhigh
      unfold isSpace
      simp only [Bool.or_eq_false_iff, Bool.and_eq_false_iff, decide_eq_false_iff_not]
      omega
    rw [hletter c hlow (by omega), hletter _ (by omega) hhigh']

theorem stripChars_map_toLower (s : List Char) :
    stripChars isSpace (s.map Char.toLower) =
      (stripChars isSpace s).map Char.toLower := by
  have hcomp : isSpace ∘ Char.toLower = isSpace := by
    funext c
    exact isSpace_toLower c
  unfold stripChars
  rw [List.dropWhile_map, ← List.map_reverse, List.dropWhile_map, ← List.map_reverse, hcomp]

theorem isSpace_of_isDigit {c : Char} (h : c.isDigit = true) : isSpace c = false := by
  simp only [Char.isDigit, Bool.and_eq_true, decide_eq_true_eq] at h
  have hlow : 48 ≤ c.toNat := h.1
  have hhigh : c.toNat ≤ 57 := h.2
  simp only [isSpace, Bool.or_eq_false_iff, Bool.and_eq_false_imp, decide_eq_true_eq,
    decide_eq_false_iff_not]
  omega

theorem isDigit_of_mem_toString {m : ℕ} {c : Char} (h : c ∈ (toString m).toList) :
    c.isDigit = true := by
  have hmem : c ∈ Nat.toDigits 10 m := by simpa using h
  exact Nat.isDigit_of_mem_toDigits (by decide) (by decide) hmem

end Text
