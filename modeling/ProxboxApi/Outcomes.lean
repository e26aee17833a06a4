import Mathlib.Data.List.Basic
import Mathlib.Data.List.Forall2
import Mathlib.Data.List.Nodup
import Mathlib.Data.List.Perm.Basic

/-! Computations that may raise, inverted at their success, and lists that are traversed or counted
in step with another list. -/

namespace Outcomes

variable {ε α β : Type}

theorem bind_eq_ok_iff {x : Except ε α} {f : α → Except ε β} {b : β} :
    (x >>= f) = .ok b ↔ ∃ a, x = .ok a ∧ f a = .ok b := by
  cases x with
  | error e => simp [bind, Except.bind]
  | ok a => simp [bind, Except.bind]

/-- A traversal that does not raise yields one result for each element. -/
theorem mapM_eq_ok_iff {f : α → Except ε β} {l : List α} {bs : List β} :
    l.mapM f = .ok bs ↔ List.Forall₂ (fun a b => f a = .ok b) l bs := by
  induction l generalizing bs with
  | nil =>
    rw [List.mapM_nil, List.forall₂_nil_left_iff]
    constructor
    · intro h
      cases h
      rfl
    · rintro rfl
      rfl
  | cons a l ih =>
    simp only [List.mapM_cons, bind_eq_ok_iff, ih, List.forall₂_cons_left_iff]
    constructor
    · rintro ⟨b, hb, bs', hbs', heq⟩
      cases heq
      exact ⟨b, bs', hb, hbs', rfl⟩
    · rintro ⟨b, bs', hb, hbs', rfl⟩
      exact ⟨b, hb, bs', hbs', rfl⟩

theorem exists_of_forall₂ {R : α → β → Prop} {l : List α} {bs : List β} (h : List.Forall₂ R l bs)
    {b : β} (hb : b ∈ bs) : ∃ a ∈ l, R a b := by
  induction h with
  | nil => simp at hb
  | cons hhead _ ih =>
    rcases List.mem_cons.mp hb with rfl | hb
    · exact ⟨_, List.mem_cons_self .., hhead⟩
    · obtain ⟨a, ha, hab⟩ := ih hb
      exact ⟨a, List.mem_cons_of_mem _ ha, hab⟩

theorem mem_of_mapM {f : α → Except ε β} {l : List α} {bs : List β} (h : l.mapM f = .ok bs)
    {b : β} (hb : b ∈ bs) : ∃ a ∈ l, f a = .ok b :=
  exists_of_forall₂ (mapM_eq_ok_iff.mp h) hb

/-- A traversal none of whose steps raises. -/
theorem exists_mapM {f : α → Except ε β} {R : α → β → Prop} {l : List α}
    (h : ∀ a ∈ l, ∃ b, f a = .ok b ∧ R a b) : ∃ bs, l.mapM f = .ok bs ∧ List.Forall₂ R l bs := by
  induction l with
  | nil => exact ⟨[], rfl, .nil⟩
  | cons a l ih =>
    obtain ⟨⟨b, hb, hab⟩, hl⟩ := List.forall_mem_cons.mp h
    obtain ⟨bs, hbs, hall⟩ := ih hl
    refine ⟨b :: bs, ?_, .cons hab hall⟩
    rw [List.mapM_cons, hb, hbs]
    rfl

/-- A traversal by a partial function that is defined on the whole list. -/
theorem mapM_isSome {f : α → Option β} {l : List α} (h : ∀ a ∈ l, (f a).isSome = true) :
    (l.mapM f).isSome = true := by
  induction l with
  | nil => rfl
  | cons a l ih =>
    rw [List.forall_mem_cons] at h
    obtain ⟨b, hb⟩ := Option.isSome_iff_exists.mp h.1
    obtain ⟨bs, hbs⟩ := Option.isSome_iff_exists.mp (ih h.2)
    rw [List.mapM_cons, hb, hbs]
    rfl

theorem mapM_eq_some_iff {f : α → Option β} {l : List α} {bs : List β} :
    l.mapM f = some bs ↔ List.Forall₂ (fun a b => f a = some b) l bs := by
  induction l generalizing bs with
  | nil =>
    rw [List.mapM_nil, List.forall₂_nil_left_iff]
    exact ⟨fun h => (Option.some.inj h).symm, fun h => congrArg some h.symm⟩
  | cons a l ih =>
    rw [List.mapM_cons, List.forall₂_cons_left_iff]
    constructor
    · intro h
      obtain ⟨b, hb, h⟩ := Option.bind_eq_some_iff.mp h
      obtain ⟨bs', hbs', h⟩ := Option.bind_eq_some_iff.mp h
      cases h
      exact ⟨b, bs', hb, ih.mp hbs', rfl⟩
    · rintro ⟨b, bs', hb, hbs', rfl⟩
      rw [hb, ih.mpr hbs']
      rfl

/-- The values of a traversal are those of the elements. -/
theorem mem_mapM_iff {f : α → Option β} {l : List α} {bs : List β} (h : l.mapM f = some bs)
    {b : β} : b ∈ bs ↔ ∃ a ∈ l, f a = some b := by
  have hall := mapM_eq_some_iff.mp h
  clear h
  induction hall with
  | nil => simp
  | cons hhead _ ih => simp [ih, hhead, eq_comm]

theorem isSome_of_mapM {f : α → Option β} {l : List α} {bs : List β} (h : l.mapM f = some bs) :
    ∀ a ∈ l, (f a).isSome = true := by
  have hall := mapM_eq_some_iff.mp h
  clear h
  induction hall with
  | nil => simp
  | cons hhead _ ih => exact List.forall_mem_cons.mpr ⟨by rw [hhead]; rfl, ih⟩

/-- A traversal that pairs names with their values, which are all defined. -/
theorem mapM_pairs_eq_some_iff {f : α → Option β} {l : List α} {pairs : List (α × β)} :
    (l.mapM fun a => (f a).map fun b => (a, b)) = some pairs ↔
      pairs.map (·.1) = l ∧ ∀ ab ∈ pairs, f ab.1 = some ab.2 := by
  induction l generalizing pairs with
  | nil =>
    rw [List.mapM_nil, List.map_eq_nil_iff]
    constructor
    · intro h
      cases h
      exact ⟨rfl, by simp⟩
    · rintro ⟨rfl, _⟩
      rfl
  | cons a l ih =>
    rw [List.mapM_cons]
    constructor
    · intro h
      obtain ⟨ab, hab, h⟩ := Option.bind_eq_some_iff.mp h
      obtain ⟨pairs', hpairs', h⟩ := Option.bind_eq_some_iff.mp h
      cases h
      obtain ⟨b, hb, rfl⟩ := Option.map_eq_some_iff.mp hab
      obtain ⟨hnames, hvalues⟩ := ih.mp hpairs'
      rw [List.map_cons, List.forall_mem_cons]
      exact ⟨by rw [hnames], hb, hvalues⟩
    · rintro ⟨hnames, hvalues⟩
      cases pairs with
      | nil => simp at hnames
      | cons ab pairs =>
        rw [List.map_cons, List.cons.injEq] at hnames
        rw [List.forall_mem_cons] at hvalues
        obtain ⟨rfl, hnames⟩ := hnames
        rw [hvalues.1, ih.mpr ⟨hnames, hvalues.2⟩]
        rfl

/-- A loop that does not raise keeps what each of its steps keeps. -/
theorem foldlM_invariant {f : β → α → Except ε β} (Inv : List α → β → Prop)
    (hstep : ∀ done a b b', Inv done b → f b a = .ok b' → Inv (done ++ [a]) b')
    {done l : List α} {b b' : β} (hb : Inv done b) (h : l.foldlM f b = .ok b') :
    Inv (done ++ l) b' := by
  induction l generalizing done b with
  | nil =>
    cases h
    simpa using hb
  | cons a l ih =>
    rw [List.foldlM_cons, bind_eq_ok_iff] at h
    obtain ⟨c, hc, hrest⟩ := h
    have := ih (hstep done a b c hb hc) hrest
    simpa using this

/-- What a partial map makes of a list on which it is defined. -/
theorem forall₂_filterMap {f : α → Option β} {l : List α} (h : ∀ a ∈ l, (f a).isSome = true) :
    List.Forall₂ (fun b a => f a = some b) (l.filterMap f) l := by
  induction l with
  | nil => exact .nil
  | cons a l ih =>
    obtain ⟨b, hb⟩ := Option.isSome_iff_exists.mp (h a (List.mem_cons_self ..))
    rw [List.filterMap_cons_some hb]
    exact .cons hb (ih fun x hx => h x (List.mem_cons_of_mem _ hx))

/-- A list that holds each of some distinct values once, and no other value. -/
theorem perm_of_count [DecidableEq α] {l values : List α} (hnodup : values.Nodup)
    (hmem : ∀ a ∈ l, a ∈ values) (hcount : ∀ a ∈ values, l.count a = 1) : l.Perm values := by
  rw [List.perm_iff_count]
  intro a
  by_cases ha : a ∈ values
  · rw [hcount a ha, List.count_eq_one_of_mem hnodup ha]
  · rw [List.count_eq_zero_of_not_mem ha, List.count_eq_zero_of_not_mem fun h => ha (hmem a h)]

theorem findSome_congr {f g : α → Option β} {l : List α} (h : ∀ a ∈ l, f a = g a) :
    l.findSome? f = l.findSome? g := by
  induction l with
  | nil => rfl
  | cons a l ih =>
    rw [List.forall_mem_cons] at h
    rw [List.findSome?_cons, List.findSome?_cons, h.1, ih h.2]

theorem nodup_eraseDups [DecidableEq α] (l : List α) : l.eraseDups.Nodup := by
  -- Each step keeps its element and goes on with a shorter list.
  induction hn : l.length using Nat.strongRecOn generalizing l with
  | ind n ih =>
    cases l with
    | nil => simp
    | cons a l =>
      rw [List.eraseDups_cons, List.nodup_cons]
      constructor
      · simp [List.mem_eraseDups]
      · have hle : (l.filter fun b => !b == a).length ≤ l.length := List.length_filter_le _ l
        apply ih _ _ _ rfl
        simp only [List.length_cons] at hn
        omega

/-- A list has one distinct value. -/
theorem length_eraseDups_eq_one_iff [DecidableEq α] {l : List α} :
    l.eraseDups.length = 1 ↔ ∃ a ∈ l, ∀ b ∈ l, b = a := by
  rw [List.length_eq_one_iff]
  constructor
  · rintro ⟨a, ha⟩
    have hmem : ∀ b, b ∈ l ↔ b = a := by
      intro b
      rw [← List.mem_eraseDups, ha, List.mem_singleton]
    exact ⟨a, (hmem a).mpr rfl, fun b hb => (hmem b).mp hb⟩
  · rintro ⟨a, ha, hall⟩
    use a
    rw [← List.perm_singleton,
      List.perm_ext_iff_of_nodup (nodup_eraseDups l) (List.nodup_singleton a)]
    intro b
    rw [List.mem_eraseDups, List.mem_singleton]
    exact ⟨hall b, fun h => h ▸ ha⟩

end Outcomes
