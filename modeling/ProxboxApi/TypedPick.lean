import Mathlib.Data.List.Basic

/-! The pick of one among the candidates of a key: the first of a type, or the only one, if it has
no type; and what becomes of it when one element of the list takes on another key and type. -/

namespace TypedPick

variable {α τ ι : Type*} (typeOf : α → Option τ)

/-- The only candidate, if it has no type. -/
def lone : List α → Option α
  | [x] => if typeOf x = none then some x else none
  | _ => none

variable {typeOf} in
theorem lone_eq_some_iff {cands : List α} {x : α} :
    lone typeOf cands = some x ↔ cands = [x] ∧ typeOf x = none := by
  match cands with
  | [] => simp [lone]
  | [y] =>
    simp only [lone]
    split_ifs with hy
    · constructor
      · rintro ⟨⟩
        exact ⟨rfl, hy⟩
      · rintro ⟨hone, -⟩
        rw [List.singleton_inj.mp hone]
    · constructor
      · rintro ⟨⟩
      · rintro ⟨hone, hnone⟩
        exact absurd (List.singleton_inj.mp hone ▸ hnone) hy
  | _ :: _ :: _ => simp [lone]

variable [DecidableEq τ]

/-- The first of the type, or else the lone candidate. -/
def pick (t : τ) (candidates : List α) : Option α :=
  (candidates.find? fun x => typeOf x = some t).or (lone typeOf candidates)

variable {typeOf} {t : τ} {cands : List α} {x : α}

theorem pick_of_find (h : cands.find? (fun x => typeOf x = some t) = some x) :
    pick typeOf t cands = some x := by
  rw [pick, h, Option.some_or]

theorem pick_of_not_find (h : cands.find? (fun x => typeOf x = some t) = none) :
    pick typeOf t cands = lone typeOf cands := by
  rw [pick, h, Option.none_or]

theorem pick_cases (h : pick typeOf t cands = some x) :
    cands.find? (fun x => typeOf x = some t) = some x ∨ (cands = [x] ∧ typeOf x = none) := by
  cases hfind : cands.find? (fun x => typeOf x = some t) with
  | none => exact Or.inr (lone_eq_some_iff.mp ((pick_of_not_find hfind).symm.trans h))
  | some y => exact Or.inl ((pick_of_find hfind).symm.trans h)

theorem pick_mem (h : pick typeOf t cands = some x) : x ∈ cands := by
  rcases pick_cases h with hfind | ⟨hone, -⟩
  · exact List.mem_of_find?_eq_some hfind
  · simp [hone]

variable {a b : List α} {r r' : α} {kept carried : Prop} [Decidable kept] [Decidable carried]

/-- An element among the candidates of a key, if it carries the key. -/
def among (a b : List α) (r : α) (carried : Prop) [Decidable carried] : List α :=
  a ++ (if carried then [r] else []) ++ b

theorem mem_among : x ∈ among a b r carried ↔ x ∈ a ∨ (carried ∧ x = r) ∨ x ∈ b := by
  by_cases hcarried : carried <;> simp [among, hcarried]

theorem among_of_not (h : ¬ carried) : among a b r carried = a ++ b := by
  simp [among, h]

/-- With the type, the element is picked unless one of the type stands before it. -/
theorem find_among (hcarried : carried) (htype : typeOf r = some t) :
    (among a b r carried).find? (fun x => typeOf x = some t) =
      (a.find? fun x => typeOf x = some t).or (some r) := by
  simp only [among, if_pos hcarried, List.append_assoc, List.find?_append]
  cases a.find? (fun x => typeOf x = some t) with
  | none => simp [htype]
  | some y => rfl

/-- Without the key or the type, the element is not the first of the type. -/
theorem find_among_of_not (h : ¬ (carried ∧ typeOf r = some t)) :
    (among a b r carried).find? (fun x => typeOf x = some t) =
      (a.find? fun x => typeOf x = some t).or (b.find? fun x => typeOf x = some t) := by
  unfold among
  by_cases hcarried : carried
  · have htype : typeOf r ≠ some t := fun htype => h ⟨hcarried, htype⟩
    simp [if_pos hcarried, List.find?_append, htype]
  · simp [if_neg hcarried, List.find?_append]

variable {ident : α → ι} {q : τ}

/-- The pick stays, by identity, when an element changes its key and takes on a type: if the element
is the pick, it comes to carry the key with the type; if another one is, the element does not come to
carry the key, or the pick has the type and the element has another or stands behind it; and if there
is none, the element does not come to be the one. -/
def Stays (typeOf : α → Option τ) (t q : τ) (a b : List α) (r : α) (kept carried : Prop)
    [Decidable kept] [Decidable carried] (ident : α → ι) : Prop :=
  match pick typeOf t (among a b r kept) with
  | some x => (ident x = ident r → carried ∧ q = t) ∧
      (ident x ≠ ident r → carried → typeOf x = some t ∧ (q = t → x ∈ a))
  | none => (carried → q ≠ t) ∧ (¬ carried → ∀ x, a ++ b = [x] → typeOf x ≠ none)

/-- The first of the type that stands before the element is the pick. -/
theorem pick_of_before (hfirst : a.find? (fun x => typeOf x = some t) = some x) :
    pick typeOf t (among a b r carried) = some x := by
  apply pick_of_find
  simp [among, List.find?_append, hfirst]

/-- With the type, the element is the pick if none of the type stands before it. -/
theorem pick_of_carried (hfirst : a.find? (fun x => typeOf x = some t) = none)
    (hcarried : carried) (htype : typeOf r = some t) :
    pick typeOf t (among a b r carried) = some r := by
  apply pick_of_find
  rw [find_among hcarried htype, hfirst, Option.none_or]

theorem find_behind (hfirst : a.find? (fun x => typeOf x = some t) = none)
    (h : ¬ (carried ∧ typeOf r = some t)) :
    (among a b r carried).find? (fun x => typeOf x = some t) =
      b.find? fun x => typeOf x = some t := by
  rw [find_among_of_not h, hfirst, Option.none_or]

/-- The pick is the element exactly if it carries the key with the type. -/
theorem pick_self_iff (ha : ∀ x ∈ a, ident x ≠ ident r) (hb : ∀ x ∈ b, ident x ≠ ident r)
    (hident : ident r' = ident r) (htype : typeOf r' = some q)
    (hfirst : a.find? (fun x => typeOf x = some t) = none) :
    (pick typeOf t (among a b r' carried)).map ident = some (ident r) ↔ carried ∧ q = t := by
  constructor
  · intro heq
    obtain ⟨z, hz, hid⟩ := Option.map_eq_some_iff.mp heq
    rcases mem_among.mp (pick_mem hz) with hmem | ⟨hcarried, rfl⟩ | hmem
    · exact absurd hid (ha z hmem)
    · rcases pick_cases hz with hfind | ⟨-, hlone⟩
      · have hz' : typeOf z = some t := by simpa using List.find?_some hfind
        exact ⟨hcarried, Option.some.inj (htype.symm.trans hz')⟩
      · rw [htype] at hlone
        contradiction
    · exact absurd hid (hb z hmem)
  · rintro ⟨hcarried, rfl⟩
    rw [pick_of_carried hfirst hcarried htype, Option.map_some, hident]

/-- An element of the type that stands behind is the pick, unless the other one takes on the key
with the type. -/
theorem stays_of_behind (hb : ∀ x ∈ b, ident x ≠ ident r) (hident : ident r' = ident r)
    (htype : typeOf r' = some q) (hfirst : a.find? (fun x => typeOf x = some t) = none)
    (hown : ¬ (kept ∧ typeOf r = some t))
    (hlater : b.find? (fun x => typeOf x = some t) = some x) :
    (pick typeOf t (among a b r' carried)).map ident =
        (pick typeOf t (among a b r kept)).map ident ↔
      Stays typeOf t q a b r kept carried ident := by
  have hmem := List.mem_of_find?_eq_some hlater
  have hx : typeOf x = some t := by simpa using List.find?_some hlater
  have hnone : ∀ x ∈ a, typeOf x ≠ some t := by simpa using List.find?_eq_none.mp hfirst
  have hxa : x ∉ a := fun h => hnone x h hx
  unfold Stays
  rw [pick_of_find ((find_behind hfirst hown).trans hlater)]
  by_cases h : carried ∧ q = t
  · rw [pick_of_carried hfirst h.1 (h.2 ▸ htype)]
    simp [hident, (hb x hmem).symm, hb x hmem, h.1, h.2, hxa]
  · have hnot : ¬ (carried ∧ typeOf r' = some t) := by
      rw [htype]
      exact fun h' => h ⟨h'.1, Option.some.inj h'.2⟩
    rw [pick_of_find ((find_behind hfirst hnot).trans hlater)]
    simp only [true_iff]
    refine ⟨fun heq => absurd heq (hb x hmem), fun _ hcarried => ⟨hx, fun hq => ?_⟩⟩
    exact absurd ⟨hcarried, hq⟩ h

/-- Another lone element is the pick as long as the element does not join it. -/
theorem lone_stays_iff (hident : ident r' = ident r) (htype : typeOf r' = some q)
    (hfirst : a.find? (fun x => typeOf x = some t) = none)
    (hlater : b.find? (fun x => typeOf x = some t) = none) (hone : a ++ b = [x])
    (hx : typeOf x = none) (hid : ident x ≠ ident r) :
    (pick typeOf t (among a b r' carried)).map ident = some (ident x) ↔ ¬ carried := by
  constructor
  · intro heq hcarried
    obtain ⟨z, hz, hzid⟩ := Option.map_eq_some_iff.mp heq
    by_cases hq : q = t
    · rw [pick_of_carried hfirst hcarried (hq ▸ htype)] at hz
      obtain rfl := Option.some.inj hz
      exact hid (hzid.symm.trans hident)
    · have hnot : ¬ (carried ∧ typeOf r' = some t) := by
        rw [htype]
        exact fun h => hq (Option.some.inj h.2)
      rw [pick_of_not_find ((find_behind hfirst hnot).trans hlater)] at hz
      have hlength := congrArg List.length (lone_eq_some_iff.mp hz).1
      have htwo := congrArg List.length hone
      simp only [among, if_pos hcarried, List.length_append, List.length_singleton] at hlength htwo
      omega
  · intro hcarried
    have hnot : ¬ (carried ∧ typeOf r' = some t) := fun h => hcarried h.1
    rw [pick_of_not_find ((find_behind hfirst hnot).trans hlater), among_of_not hcarried,
      lone_eq_some_iff.mpr ⟨hone, hx⟩, Option.map_some]

/-- A lone element without a type is the pick. -/
theorem stays_of_lone (ha : ∀ x ∈ a, ident x ≠ ident r) (hb : ∀ x ∈ b, ident x ≠ ident r)
    (hident : ident r' = ident r) (htype : typeOf r' = some q)
    (hfirst : a.find? (fun x => typeOf x = some t) = none)
    (hown : ¬ (kept ∧ typeOf r = some t))
    (hlater : b.find? (fun x => typeOf x = some t) = none)
    (hlone : lone typeOf (among a b r kept) = some x) :
    (pick typeOf t (among a b r' carried)).map ident =
        (pick typeOf t (among a b r kept)).map ident ↔
      Stays typeOf t q a b r kept carried ident := by
  obtain ⟨hone, hx⟩ := lone_eq_some_iff.mp hlone
  unfold Stays
  rw [pick_of_not_find ((find_behind hfirst hown).trans hlater), hlone, Option.map_some]
  by_cases hid : ident x = ident r
  · rw [hid, pick_self_iff ha hb hident htype hfirst]
    simp [hid]
  · have hkept : ¬ kept := by
      intro hkept
      have hr : r ∈ among a b r kept := mem_among.mpr (Or.inr (Or.inl ⟨hkept, rfl⟩))
      rw [hone] at hr
      exact hid (congrArg ident (List.mem_singleton.mp hr).symm)
    rw [among_of_not hkept] at hone
    rw [lone_stays_iff hident htype hfirst hlater hone hx hid]
    simp [hid, hx]

/-- Where there is no pick, the element does not come to be the one. -/
theorem stays_of_none (htype : typeOf r' = some q)
    (hfirst : a.find? (fun x => typeOf x = some t) = none)
    (hown : ¬ (kept ∧ typeOf r = some t))
    (hlater : b.find? (fun x => typeOf x = some t) = none)
    (hlone : lone typeOf (among a b r kept) = none) :
    (pick typeOf t (among a b r' carried)).map ident =
        (pick typeOf t (among a b r kept)).map ident ↔
      Stays typeOf t q a b r kept carried ident := by
  unfold Stays
  rw [pick_of_not_find ((find_behind hfirst hown).trans hlater), hlone, Option.map_none,
    Option.map_eq_none_iff]
  by_cases hcarried : carried
  · by_cases hq : q = t
    · rw [pick_of_carried hfirst hcarried (hq ▸ htype)]
      simp [hcarried, hq]
    · have hnot : ¬ (carried ∧ typeOf r' = some t) := by
        rw [htype]
        exact fun h => hq (Option.some.inj h.2)
      rw [pick_of_not_find ((find_behind hfirst hnot).trans hlater)]
      have hnolone : lone typeOf (among a b r' carried) = none := by
        by_contra hsome
        obtain ⟨z, hz⟩ := Option.ne_none_iff_exists'.mp hsome
        obtain ⟨hone, hz⟩ := lone_eq_some_iff.mp hz
        have hr' : r' ∈ among a b r' carried := mem_among.mpr (Or.inr (Or.inl ⟨hcarried, rfl⟩))
        rw [hone] at hr'
        rw [← List.mem_singleton.mp hr', htype] at hz
        contradiction
      rw [hnolone]
      simp [hcarried, hq]
  · have hnot : ¬ (carried ∧ typeOf r' = some t) := fun h => hcarried h.1
    rw [pick_of_not_find ((find_behind hfirst hnot).trans hlater), among_of_not hcarried]
    simp only [hcarried, false_implies, true_and, not_false_eq_true, true_implies]
    rw [Option.eq_none_iff_forall_ne_some]
    exact ⟨fun h x hone hx => h x (lone_eq_some_iff.mpr ⟨hone, hx⟩),
      fun h x hlone => h x (lone_eq_some_iff.mp hlone).1 (lone_eq_some_iff.mp hlone).2⟩

theorem stays_iff (ha : ∀ x ∈ a, ident x ≠ ident r) (hb : ∀ x ∈ b, ident x ≠ ident r)
    (hident : ident r' = ident r) (htype : typeOf r' = some q) :
    (pick typeOf t (among a b r' carried)).map ident =
        (pick typeOf t (among a b r kept)).map ident ↔
      Stays typeOf t q a b r kept carried ident := by
  cases hfirst : a.find? (fun x => typeOf x = some t) with
  | some x =>
    have hmem := List.mem_of_find?_eq_some hfirst
    have hx : typeOf x = some t := by simpa using List.find?_some hfirst
    unfold Stays
    rw [pick_of_before hfirst, pick_of_before hfirst]
    simp only [true_iff]
    exact ⟨fun heq => absurd heq (ha x hmem), fun _ _ => ⟨hx, fun _ => hmem⟩⟩
  | none =>
    by_cases hown : kept ∧ typeOf r = some t
    · unfold Stays
      rw [pick_of_carried hfirst hown.1 hown.2, Option.map_some,
        pick_self_iff ha hb hident htype hfirst]
      simp
    · cases hlater : b.find? (fun x => typeOf x = some t) with
      | some x => exact stays_of_behind hb hident htype hfirst hown hlater
      | none =>
        cases hlone : lone typeOf (among a b r kept) with
        | some x => exact stays_of_lone ha hb hident htype hfirst hown hlater hlone
        | none => exact stays_of_none htype hfirst hown hlater hlone

end TypedPick
