import Mathlib.Data.Finset.Card

/-! The first name of a chain that is not taken, and lists of names that avoid one another and
the names taken before them. -/

namespace FreshNames

variable {κ : Type*}

/-- A name is the first of the chain that is not taken. -/
def IsFirstFree (chain : ℕ → κ) (taken : Finset κ) (name : κ) : Prop :=
  ∃ n, chain n = name ∧ name ∉ taken ∧ ∀ m < n, chain m ∈ taken

variable {chain : ℕ → κ} {taken : Finset κ}

theorem IsFirstFree.eq {name name' : κ} (h : IsFirstFree chain taken name)
    (h' : IsFirstFree chain taken name') : name = name' := by
  obtain ⟨n, rfl, hfree, hlower⟩ := h
  obtain ⟨n', rfl, hfree', hlower'⟩ := h'
  rcases lt_trichotomy n n' with hlt | rfl | hlt
  · exact absurd (hlower' n hlt) hfree
  · rfl
  · exact absurd (hlower n' hlt) hfree'

/-- A taken name on the chain, before its first free one. -/
def Reached (chain : ℕ → κ) (taken : Finset κ) (name : κ) : Prop :=
  ∃ n, chain n = name ∧ ∀ m ≤ n, chain m ∈ taken

/-- The names avoid one another and those taken. -/
def Fresh (taken : Set κ) (names : List κ) : Prop := names.Nodup ∧ ∀ name ∈ names, name ∉ taken

theorem fresh_nil {taken : Set κ} : Fresh taken [] := ⟨List.nodup_nil, by simp⟩

theorem fresh_cons {taken : Set κ} {names : List κ} {name : κ} :
    Fresh taken (name :: names) ↔ name ∉ taken ∧ Fresh (insert name taken) names := by
  unfold Fresh
  rw [List.nodup_cons, List.forall_mem_cons]
  constructor
  · rintro ⟨⟨hname, hnodup⟩, htaken, hrest⟩
    refine ⟨htaken, hnodup, ?_⟩
    intro other hother hmem
    rcases hmem with rfl | hmem
    · exact hname hother
    · exact hrest other hother hmem
  · rintro ⟨htaken, hnodup, hrest⟩
    refine ⟨⟨?_, hnodup⟩, htaken, ?_⟩
    · intro hname
      exact hrest name hname (Set.mem_insert name taken)
    · intro other hother hmem
      exact hrest other hother (Set.mem_insert_of_mem name hmem)

theorem fresh_concat {taken : Set κ} {names : List κ} {name : κ} :
    Fresh taken (names ++ [name]) ↔ Fresh taken names ∧ name ∉ taken ∧ name ∉ names := by
  unfold Fresh
  rw [List.nodup_append_comm, List.singleton_append, List.nodup_cons, List.forall_mem_append,
    List.forall_mem_singleton]
  tauto

variable [DecidableEq κ]

/-- A name that the chain reaches is the first free one when it is no longer taken. -/
theorem Reached.isFirstFree {name : κ} (hchain : Function.Injective chain)
    (h : Reached chain taken name) : IsFirstFree chain (taken.erase name) name := by
  obtain ⟨n, rfl, htaken⟩ := h
  refine ⟨n, rfl, Finset.notMem_erase _ _, ?_⟩
  intro m hm
  have hne : chain m ≠ chain n := fun heq => hm.ne (hchain heq)
  exact Finset.mem_erase.mpr ⟨hne, htaken m hm.le⟩

/-- A name that the chain does not reach may go. -/
theorem IsFirstFree.erase {name other : κ} (h : IsFirstFree chain taken name)
    (hother : ¬ Reached chain taken other) : IsFirstFree chain (taken.erase other) name := by
  obtain ⟨n, rfl, hfree, hlower⟩ := h
  refine ⟨n, rfl, fun hmem => hfree (Finset.mem_of_mem_erase hmem), ?_⟩
  intro m hm
  have hne : chain m ≠ other := by
    rintro rfl
    exact hother ⟨m, rfl, fun k hk => hlower k (hk.trans_lt hm)⟩
  exact Finset.mem_erase.mpr ⟨hne, hlower m hm⟩

/-- The search along a chain from an index on, with a bound on the names it looks at. -/
def search (chain : ℕ → κ) (taken : Finset κ) : ℕ → ℕ → ℕ
  | 0, n => n
  | fuel + 1, n => if chain n ∈ taken then search chain taken fuel (n + 1) else n

theorem search_lower {fuel n m : ℕ} (hn : n ≤ m) (hm : m < search chain taken fuel n) :
    chain m ∈ taken := by
  induction fuel generalizing n with
  | zero =>
    simp only [search] at hm
    omega
  | succ fuel ih =>
    unfold search at hm
    by_cases htaken : chain n ∈ taken
    · rw [if_pos htaken] at hm
      rcases hn.eq_or_lt with rfl | hlt
      · exact htaken
      · exact ih hlt hm
    · rw [if_neg htaken] at hm
      omega

theorem le_search {fuel n : ℕ} : n ≤ search chain taken fuel n := by
  induction fuel generalizing n with
  | zero => exact le_rfl
  | succ fuel ih =>
    unfold search
    split
    · exact (Nat.le_succ n).trans ih
    · exact le_rfl

/-- The search stops at a free name, or else every name it looked at is taken. -/
theorem search_free_or (chain : ℕ → κ) (taken : Finset κ) (fuel n : ℕ) :
    chain (search chain taken fuel n) ∉ taken ∨ ∀ m, n ≤ m → m < n + fuel → chain m ∈ taken := by
  induction fuel generalizing n with
  | zero =>
    right
    intro m hn hm
    omega
  | succ fuel ih =>
    unfold search
    by_cases htaken : chain n ∈ taken
    · rw [if_pos htaken]
      rcases ih (n + 1) with hfree | hall
      · exact Or.inl hfree
      · right
        intro m hn hm
        rcases hn.eq_or_lt with rfl | hlt
        · exact htaken
        · exact hall m hlt (by omega)
    · rw [if_neg htaken]
      exact Or.inl htaken

/-- One name more than are taken is enough for the search along a chain without repetition. -/
theorem search_not_mem (hchain : Function.Injective chain) {fuel n : ℕ}
    (hfuel : taken.card < fuel) : chain (search chain taken fuel n) ∉ taken := by
  rcases search_free_or chain taken fuel n with hfree | hall
  · exact hfree
  · have hsub : (Finset.range fuel).image (fun i => chain (n + i)) ⊆ taken := by
      intro name hname
      obtain ⟨i, hi, rfl⟩ := Finset.mem_image.mp hname
      exact hall (n + i) (by omega) (by simpa using hi)
    have hinj : Function.Injective fun i => chain (n + i) := by
      intro i j hij
      exact Nat.add_left_cancel (hchain hij)
    have hcard := Finset.card_le_card hsub
    rw [Finset.card_image_of_injective _ hinj, Finset.card_range] at hcard
    omega

end FreshNames
