import Mathlib.Algebra.Order.Group.Defs
import Mathlib.Algebra.Order.Monoid.Defs
import Mathlib.Data.List.DropRight

/-! How many events of a log fall in a window of time: events that count, and events that reset
the count. -/

namespace EventWindows

structure Event (τ : Type*) where
  time : τ
  resets : Bool
  deriving DecidableEq, Repr

variable {τ : Type*} {log : List (Event τ)} {e : Event τ} {times : List τ} {bound n : ℕ}

/-- The times of the events after the last reset. -/
def since (log : List (Event τ)) : List τ :=
  log.foldl (fun times e => if e.resets then [] else times ++ [e.time]) []

theorem since_concat : since (log ++ [e]) = if e.resets then [] else since log ++ [e.time] := by
  simp [since]

theorem rtake_ne_nil (hn : 0 < n) (htimes : times ≠ []) : times.rtake n ≠ [] := by
  have hlength := List.length_pos_of_ne_nil htimes
  unfold List.rtake
  intro h
  have hdrop := congrArg List.length h
  rw [List.length_drop, List.length_nil] at hdrop
  omega

variable [AddCommGroup τ] [LinearOrder τ] {width start t : τ}

/-- The window of `width` from `start`, without its end. -/
def InWindow (width start t : τ) : Prop := start ≤ t ∧ t < start + width

instance : Decidable (InWindow width start t) := inferInstanceAs (Decidable (_ ∧ _))

/-- The counted events of a window. -/
def counted (width start : τ) (log : List (Event τ)) : List (Event τ) :=
  log.filter fun e => !e.resets && decide (InWindow width start e.time)

theorem counted_concat : counted width start (log ++ [e]) = counted width start log ++
    if e.resets = false ∧ InWindow width start e.time then [e] else [] := by
  unfold counted
  rw [List.filter_append]
  by_cases h : e.resets = false ∧ InWindow width start e.time <;> simp_all

/-- A window without a reset counts at most `bound` events. -/
def Bounded (width : τ) (bound : ℕ) (log : List (Event τ)) : Prop :=
  ∀ start, (∀ e ∈ log, e.resets = true → ¬ InWindow width start e.time) →
    (counted width start log).length ≤ bound

theorem bounded_nil : Bounded width bound ([] : List (Event τ)) := by
  intro start _
  simp [counted]

/-- No event of the log is later than `t`. -/
def Before (t : τ) (log : List (Event τ)) : Prop := ∀ e ∈ log, e.time ≤ t

omit [AddCommGroup τ] in
theorem before_since (h : Before t log) : ∀ x ∈ since log, x ≤ t := by
  induction log using List.reverseRecOn with
  | nil => simp [since]
  | append_singleton log e ih =>
    have hrest := ih fun e' he' => h e' (by simp [he'])
    rw [since_concat]
    cases e.resets with
    | true => simp
    | false =>
      intro x hx
      rcases List.mem_append.mp hx with hx | hx
      · exact hrest x hx
      · rw [List.mem_singleton.mp hx]
        exact h e (by simp)

/-- The log is in the order of time. -/
def Clocked (log : List (Event τ)) : Prop := log.Pairwise (·.time ≤ ·.time)

omit [AddCommGroup τ] in
theorem clocked_concat (h : Clocked log) (hbefore : Before e.time log) : Clocked (log ++ [e]) := by
  unfold Clocked
  rw [List.pairwise_append]
  refine ⟨h, List.pairwise_singleton _ _, ?_⟩
  intro e' he' e'' he''
  rw [List.mem_singleton.mp he'']
  exact hbefore e' he'

/-- In a window that goes on to the end of the log and has no reset, the counted events are those
after the last reset. -/
theorem counted_eq_since (hclocked : Clocked log) (hbefore : Before t log)
    (ht : InWindow width start t)
    (hreset : ∀ e ∈ log, e.resets = true → ¬ InWindow width start e.time) :
    (counted width start log).map (·.time) =
      (since log).filter fun u => decide (InWindow width start u) := by
  induction log using List.reverseRecOn with
  | nil => rfl
  | append_singleton log e ih =>
    have hpairs := List.pairwise_append.mp hclocked
    have hle : e.time ≤ t := hbefore e (by simp)
    have hearlier : ∀ e' ∈ log, e'.time ≤ e.time := by
      intro e' he'
      exact hpairs.2.2 e' he' e (List.mem_singleton_self e)
    rw [counted_concat, since_concat]
    cases hresets : e.resets with
    | true =>
      -- The window starts after the reset, and so after all that is before it.
      have hout := hreset e (by simp) hresets
      have hlt : e.time < start := by
        by_contra hge
        exact hout ⟨not_lt.mp hge, hle.trans_lt ht.2⟩
      have hnone : counted width start log = [] := by
        unfold counted
        rw [List.filter_eq_nil_iff]
        intro e' he'
        have hbelow := (hearlier e' he').trans_lt hlt
        simp [InWindow, not_le.mpr hbelow]
      simp [hnone]
    | false =>
      have hrest := ih hpairs.1 (fun e' he' => hbefore e' (by simp [he']))
        (fun e' he' => hreset e' (by simp [he']))
      by_cases hin : InWindow width start e.time
      · simp [hin, hrest]
      · simp [hin, hrest]

/-- All but the last `n` times are a width or more before each of the last `n`. -/
def Apart (width : τ) (n : ℕ) (times : List τ) : Prop :=
  ∀ x ∈ times.rdrop n, ∀ y ∈ times.rtake n, x + width ≤ y

theorem apart_zero : Apart width 0 times := by
  intro x _ y hy
  simp [List.rtake] at hy

theorem apart_nil : Apart width n ([] : List τ) := by
  intro x hx
  simp [List.rdrop] at hx

/-- Where a new event comes a width after all events that the last `n` do not include, the count
of the last `n` goes on with it. -/
theorem apart_concat (h : Apart width n times) (hlast : ∀ x ∈ times.rdrop n, x + width ≤ t) :
    Apart width (n + 1) (times ++ [t]) := by
  intro x hx y hy
  rw [List.rdrop_concat_succ] at hx
  rw [List.rtake_concat_succ] at hy
  rcases List.mem_append.mp hy with hy | hy
  · exact h x hx y hy
  · rw [List.mem_singleton.mp hy]
    exact hlast x hx

theorem bounded_concat_reset (h : Bounded width bound log) (hresets : e.resets = true) :
    Bounded width bound (log ++ [e]) := by
  intro start hreset
  rw [counted_concat]
  have hcount := h start fun e' he' => hreset e' (by simp [he'])
  simpa [hresets] using hcount

variable [IsOrderedAddMonoid τ]

/-- An event that counts keeps the bound where fewer than `bound` events count with it. -/
theorem bounded_concat (h : Bounded width bound log) (hclocked : Clocked log)
    (hbefore : Before e.time log) (hlast : ∀ x ∈ (since log).rdrop n, x + width ≤ e.time)
    (hn : n < bound) : Bounded width bound (log ++ [e]) := by
  intro start hreset
  have hlog : ∀ e' ∈ log, e'.resets = true → ¬ InWindow width start e'.time := by
    intro e' he'
    exact hreset e' (by simp [he'])
  rw [counted_concat]
  by_cases hin : e.resets = false ∧ InWindow width start e.time
  · rw [if_pos hin]
    have heq := congrArg List.length (counted_eq_since hclocked hbefore hin.2 hlog)
    rw [List.length_map] at heq
    have hold : ((since log).rdrop n).filter (fun u => decide (InWindow width start u)) = [] := by
      rw [List.filter_eq_nil_iff]
      intro x hx
      have hxt := hlast x hx
      have hlt : x < start := lt_of_add_lt_add_right (hxt.trans_lt hin.2.2)
      simp [InWindow, not_le.mpr hlt]
    have hsplit : (since log).rdrop n ++ (since log).rtake n = since log :=
      List.take_append_drop _ _
    have hfew : ((since log).filter fun u => decide (InWindow width start u)).length ≤ n := by
      rw [← hsplit, List.filter_append, hold, List.nil_append]
      refine (List.length_filter_le _ _).trans ?_
      unfold List.rtake
      rw [List.length_drop]
      omega
    rw [List.length_append, heq, List.length_singleton]
    omega
  · rw [if_neg hin, List.append_nil]
    exact h start hlog

end EventWindows
