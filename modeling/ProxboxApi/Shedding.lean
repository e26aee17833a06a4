import Mathlib.Data.List.MinMax
import Mathlib.Data.List.Sort

/-! Lists that are shed from the front until what is left is small enough, and lists sorted by a
key whose least element is taken again and again. -/

namespace Shedding

variable {α β γ : Type*}

section Shed

variable (P : List α → Prop) [DecidablePred P]

/-- What is left once elements have gone from the front until `P` holds. -/
def shed : List α → List α
  | [] => []
  | a :: l => if P (a :: l) then a :: l else shed l

variable {P} {l : List α}

theorem shed_of_pos (h : P l) : shed P l = l := by
  cases l with
  | nil => rfl
  | cons a l => rw [shed, if_pos h]

/-- The fewest elements go that make `P` hold. -/
theorem shed_spec (hnil : P []) (l : List α) :
    ∃ n, shed P l = l.drop n ∧ P (l.drop n) ∧ ∀ m < n, ¬ P (l.drop m) := by
  induction l with
  | nil => exact ⟨0, rfl, hnil, by simp⟩
  | cons a l ih =>
    by_cases h : P (a :: l)
    · exact ⟨0, shed_of_pos h, h, by simp⟩
    · obtain ⟨n, hshed, hleft, hfew⟩ := ih
      refine ⟨n + 1, by rw [shed, if_neg h, hshed, List.drop_succ_cons], hleft, ?_⟩
      intro m hm
      cases m with
      | zero => exact h
      | succ m => exact hfew m (by omega)

theorem shed_eq_of_fewest {n : ℕ} (hleft : P (l.drop n)) (hfew : ∀ m < n, ¬ P (l.drop m)) :
    shed P l = l.drop n := by
  induction l generalizing n with
  | nil => simp [shed]
  | cons a l ih =>
    cases n with
    | zero => exact shed_of_pos hleft
    | succ n =>
      have h : ¬ P (a :: l) := hfew 0 (by omega)
      rw [shed, if_neg h, List.drop_succ_cons]
      exact ih hleft fun m hm => hfew (m + 1) (by omega)

variable (hmono : ∀ s t : List α, s.Sublist t → P t → P s)

include hmono in
/-- Shedding and leaving elements out commute, exactly if no element is shed that need not go once
the others are left out. -/
theorem shed_filter_iff {keep : α → Bool} (hnodup : l.Nodup) :
    shed P (l.filter keep) = (shed P l).filter keep ↔
      ∀ m a rest, l.drop m = a :: rest → keep a = true → P ((a :: rest).filter keep) →
        P (a :: rest) := by
  induction l with
  | nil => simp [shed]
  | cons a l ih =>
    obtain ⟨ha, hl⟩ := List.nodup_cons.mp hnodup
    have htail : (∀ m b rest, (a :: l).drop m = b :: rest → keep b = true →
          P ((b :: rest).filter keep) → P (b :: rest)) ↔
        (keep a = true → P ((a :: l).filter keep) → P (a :: l)) ∧
          ∀ m b rest, l.drop m = b :: rest → keep b = true →
            P ((b :: rest).filter keep) → P (b :: rest) := by
      constructor
      · exact fun h => ⟨h 0 a l rfl, fun m b rest hm => h (m + 1) b rest hm⟩
      · rintro ⟨hhead, hrest⟩ m b rest hm
        cases m with
        | zero =>
          obtain ⟨rfl, rfl⟩ := List.cons.inj hm
          exact hhead
        | succ m => exact hrest m b rest hm
    have hsub : (l.filter keep).Sublist l := List.filter_sublist
    rw [htail]
    by_cases hpos : P (a :: l)
    · -- nothing is shed, with or without the others
      have hfilter : P ((a :: l).filter keep) := hmono _ _ List.filter_sublist hpos
      rw [shed_of_pos hpos, shed_of_pos hfilter]
      refine iff_of_true rfl ⟨fun _ _ => hpos, fun m b rest hm _ _ => ?_⟩
      exact hmono _ _ (hm ▸ (List.drop_sublist m l).trans (List.sublist_cons_self a l)) hpos
    · have hshed : shed P (a :: l) = shed P l := by rw [shed, if_neg hpos]
      cases hkeep : keep a with
      | false =>
        rw [hshed, List.filter_cons_of_neg (by simp [hkeep]), ih hl]
        simp
      | true =>
        rw [hshed, List.filter_cons_of_pos hkeep]
        by_cases hfilter : P (a :: l.filter keep)
        · rw [shed_of_pos hfilter]
          refine iff_of_false (fun heq => ?_) fun h => hpos (h.1 rfl hfilter)
          have hmem : a ∈ (shed P l).filter keep := heq ▸ List.mem_cons_self
          have hall : ∀ t : List α, ∀ b ∈ shed P t, b ∈ t := by
            intro t
            induction t with
            | nil => simp [shed]
            | cons c t iht =>
              intro b hb
              rw [shed] at hb
              split at hb
              · exact hb
              · exact List.mem_cons_of_mem _ (iht b hb)
          exact ha (hall l a (List.mem_of_mem_filter hmem))
        · rw [shed, if_neg hfilter, ih hl]
          exact ⟨fun h => ⟨fun _ h' => absurd h' hfilter, h⟩, And.right⟩

end Shed

section Oldest

variable [LinearOrder β] (f : α → β)

/-- Sorted by a key, the first of equal keys first. -/
def byKey (l : List α) : List α := l.insertionSort fun a b => f a ≤ f b

variable {f} {l : List α}

theorem byKey_perm (l : List α) : (byKey f l).Perm l := List.perm_insertionSort _ _

theorem pairwise_byKey (l : List α) : (byKey f l).Pairwise fun a b => f a ≤ f b := by
  have htotal : Std.Total fun a b : α => f a ≤ f b := ⟨fun a b => le_total (f a) (f b)⟩
  have htrans : IsTrans α fun a b => f a ≤ f b := ⟨fun _ _ _ => le_trans⟩
  exact List.pairwise_insertionSort _ l

theorem orderedInsert_of_forall {a : α} (h : ∀ b ∈ l, f a ≤ f b) :
    l.orderedInsert (fun a b => f a ≤ f b) a = a :: l := by
  cases l with
  | nil => rfl
  | cons b l => exact List.orderedInsert_cons_of_le _ l (h b List.mem_cons_self)

theorem filter_orderedInsert (p : α → Bool) {a : α} (h : l.Pairwise fun a b => f a ≤ f b) :
    (l.orderedInsert (fun a b => f a ≤ f b) a).filter p =
      if p a then (l.filter p).orderedInsert (fun a b => f a ≤ f b) a else l.filter p := by
  induction l with
  | nil => simp [List.filter_cons]
  | cons b l ih =>
    obtain ⟨hb, hl⟩ := List.pairwise_cons.mp h
    by_cases hab : f a ≤ f b
    · rw [List.orderedInsert_cons_of_le _ l hab, List.filter_cons]
      refine if_congr Iff.rfl (orderedInsert_of_forall ?_).symm rfl
      intro c hc
      rcases List.mem_cons.mp (List.mem_of_mem_filter hc) with rfl | hc
      · exact hab
      · exact hab.trans (hb c hc)
    · rw [List.orderedInsert_of_not_le _ l hab]
      cases hpb : p b with
      | true =>
        rw [List.filter_cons_of_pos hpb, List.filter_cons_of_pos hpb, ih hl]
        split
        · exact (List.orderedInsert_of_not_le (fun a b => f a ≤ f b) _ hab).symm
        · rfl
      | false =>
        rw [List.filter_cons_of_neg (by simp [hpb]), List.filter_cons_of_neg (by simp [hpb]),
          ih hl]

/-- Leaving elements out and sorting commute. -/
theorem byKey_filter (p : α → Bool) (l : List α) : byKey f (l.filter p) = (byKey f l).filter p := by
  induction l with
  | nil => rfl
  | cons a l ih =>
    have hcons : byKey f (a :: l) = (byKey f l).orderedInsert (fun a b => f a ≤ f b) a := rfl
    rw [hcons, filter_orderedInsert p (pairwise_byKey l), ← ih, List.filter_cons]
    split
    · rfl
    · rfl

/-- The first of the least elements comes first. -/
theorem byKey_of_argmin {g : α → γ} [DecidableEq γ] (hnodup : (l.map g).Nodup) {a : α}
    (h : l.argmin f = some a) : byKey f l = a :: byKey f (l.filter fun b => g b ≠ g a) := by
  induction l generalizing a with
  | nil => simp at h
  | cons b l ih =>
    obtain ⟨hb, hl⟩ := List.nodup_cons.mp hnodup
    have hcons : byKey f (b :: l) = (byKey f l).orderedInsert (fun a b => f a ≤ f b) b := rfl
    have hrest : l.filter (fun c => g c ≠ g b) = l := by
      refine List.filter_eq_self.mpr fun c hc => ?_
      simp only [ne_eq, decide_not, Bool.not_eq_true', decide_eq_false_iff_not]
      exact fun heq => hb (heq ▸ List.mem_map_of_mem hc)
    rw [List.argmin_cons] at h
    cases hmin : l.argmin f with
    | none =>
      obtain rfl := List.argmin_eq_none.mp hmin
      rw [hmin] at h
      obtain rfl := Option.some.inj h
      simp [byKey]
    | some c =>
      rw [hmin] at h
      dsimp only at h
      rw [hcons]
      split at h
      · rename_i hlt
        obtain rfl := Option.some.inj h
        have hne : g b ≠ g c := fun heq => hb (heq ▸ List.mem_map_of_mem (List.argmin_mem hmin))
        rw [ih hl hmin, List.filter_cons_of_pos (by simpa using hne)]
        exact List.orderedInsert_of_not_le (fun a b => f a ≤ f b) _ (not_le_of_gt hlt)
      · rename_i hle
        obtain rfl := Option.some.inj h
        rw [List.filter_cons_of_neg (by simp), hrest]
        refine orderedInsert_of_forall fun d hd => ?_
        exact (le_of_not_gt hle).trans (List.le_of_mem_argmin ((byKey_perm l).mem_iff.mp hd) hmin)

end Oldest

end Shedding
