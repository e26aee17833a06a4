import Mathlib.Algebra.Order.Group.Basic
import Mathlib.Data.List.Induction
import ProxboxApi.Dict

/-! A limiter with a sliding window: each client has a limit on the requests that are let through
in a width of time, and the table keeps the times that still count. -/

namespace SlidingWindow

/-- A request of a client at a time, and whether it was let through. -/
structure Entry (κ τ : Type*) where
  client : κ
  time : τ
  passed : Bool
  deriving DecidableEq, Repr

abbrev Table (κ τ : Type*) := List (κ × List τ)

variable {κ τ : Type*} [DecidableEq κ]

/-- The times of a client; a client without an entry has none. -/
def times (k : κ) (table : Table κ τ) : List τ := (Dict.get k table).getD []

variable [AddCommGroup τ] [LinearOrder τ]

/-- Drops what is a width old, and the entry with its last time. -/
def clean (width : τ) (k : κ) (now : τ) (table : Table κ τ) : Table κ τ :=
  match (times k table).filter (now - width < ·) with
  | [] => Dict.erase k table
  | kept => Dict.set k kept table

/-- Lets a request through where fewer than `limit` times are left. -/
def accept (limit : ℕ) (width : τ) (table : Table κ τ) (k : κ) (now : τ) : Table κ τ × Bool :=
  let table := clean width k now table
  if limit ≤ (times k table).length then (table, false)
  else (Dict.set k (times k table ++ [now]) table, true)

/-- The table and the log after one more request. -/
def step (limit : ℕ) (width : τ) (s : Table κ τ × List (Entry κ τ)) (r : κ × τ) :
    Table κ τ × List (Entry κ τ) :=
  let accepted := accept limit width s.1 r.1 r.2
  (accepted.1, s.2 ++ [⟨r.1, r.2, accepted.2⟩])

def run (limit : ℕ) (width : τ) (rs : List (κ × τ)) : Table κ τ × List (Entry κ τ) :=
  rs.foldl (step limit width) ([], [])

/-- When requests of a client were let through. -/
def passed (k : κ) (log : List (Entry κ τ)) : List τ :=
  (log.filter fun e => decide (e.client = k) && e.passed).map (·.time)

/-- Those less than a width before `now`. -/
def recent (width : τ) (k : κ) (now : τ) (log : List (Entry κ τ)) : List τ :=
  (passed k log).filter (now - width < ·)

/-- Those in the window of a width from `start`. -/
def window (width : τ) (k : κ) (start : τ) (log : List (Entry κ τ)) : List τ :=
  (passed k log).filter fun t => start ≤ t ∧ t < start + width

/-- A request was let through exactly where fewer than `limit` ones still counted. -/
def Decided (limit : ℕ) (width : τ) (log : List (Entry κ τ)) : Prop :=
  ∀ before e rest, log = before ++ e :: rest →
    (e.passed = true ↔ (recent width e.client e.time before).length < limit)

variable {limit : ℕ} {width now : τ} {k : κ} {table : Table κ τ} {log : List (Entry κ τ)}
  {e : Entry κ τ}

section Table

omit [AddCommGroup τ] [LinearOrder τ]

theorem times_set {k k' : κ} {ts : List τ} :
    times k' (Dict.set k ts table) = if k = k' then ts else times k' table := by
  unfold times
  rw [Dict.get_set]
  split <;> rfl

theorem times_erase {k k' : κ} :
    times k' (Dict.erase k table) = if k = k' then [] else times k' table := by
  unfold times
  rw [Dict.get_erase]
  split <;> rfl

end Table

theorem times_clean {k k' : κ} : times k' (clean width k now table) =
    if k = k' then (times k table).filter (now - width < ·) else times k' table := by
  unfold clean
  split
  · rename_i h
    rw [times_erase, h]
  · rw [times_set]

theorem accept_eq : (accept limit width table k now).2 =
    decide (((times k table).filter (now - width < ·)).length < limit) := by
  unfold accept
  simp only [times_clean, if_true]
  split <;> simp <;> omega

theorem times_accept {k' : κ} : times k' (accept limit width table k now).1 =
    if k = k' then (times k table).filter (now - width < ·) ++
      (if (accept limit width table k now).2 then [now] else []) else times k' table := by
  rw [accept_eq]
  unfold accept
  simp only [times_clean, if_true]
  split
  · rename_i h
    rw [times_clean]
    split
    · simp [not_lt.mpr h]
    · rfl
  · rename_i h
    rw [times_set, times_clean]
    split
    · simp [not_le.mp h]
    · rfl

omit [AddCommGroup τ] [LinearOrder τ] in
theorem passed_concat : passed k (log ++ [e]) =
    passed k log ++ if e.client = k ∧ e.passed = true then [e.time] else [] := by
  unfold passed
  rw [List.filter_append, List.map_append]
  by_cases h : e.client = k ∧ e.passed = true
  · simp [h]
  · rw [if_neg h, List.filter_cons_of_neg (by simpa using h)]
    rfl

theorem decided_concat (h : Decided limit width log)
    (he : e.passed = true ↔ (recent width e.client e.time log).length < limit) :
    Decided limit width (log ++ [e]) := by
  intro before e' rest heq
  rcases List.eq_nil_or_concat rest with rfl | ⟨rest', last, rfl⟩
  · obtain ⟨rfl, hlast⟩ := List.append_inj' heq rfl
    obtain rfl := List.singleton_inj.mp hlast
    exact he
  · have heq' : log ++ [e] = (before ++ e' :: rest') ++ [last] := by
      rw [heq]
      simp
    exact h before e' rest' (List.append_inj' heq' rfl).1

theorem run_concat {rs : List (κ × τ)} {r : κ × τ} :
    run limit width (rs ++ [r]) = step limit width (run limit width rs) r := by
  unfold run
  rw [List.foldl_append]
  rfl

variable [IsOrderedAddMonoid τ]

/-- What the limiter keeps up to a time `clock`: at any later time the table has the times that
still count. -/
structure Kept (limit : ℕ) (width clock : τ) (s : Table κ τ × List (Entry κ τ)) : Prop where
  kept : ∀ k now, clock ≤ now → (times k s.1).filter (now - width < ·) = recent width k now s.2
  decided : Decided limit width s.2
  bounded : ∀ k start, (window width k start s.2).length ≤ limit
  few : ∀ k, (times k s.1).length ≤ limit
  entries : ∀ entry ∈ s.1, entry.2 ≠ []

omit [IsOrderedAddMonoid τ] in
theorem kept_empty (clock : τ) : Kept limit width clock (([] : Table κ τ), []) where
  kept _ _ _ := rfl
  decided before e rest h := by simp at h
  bounded _ _ := Nat.zero_le _
  few _ := Nat.zero_le _
  entries _ h := by simp at h

omit [IsOrderedAddMonoid τ] in
theorem entries_accept (hentries : ∀ entry ∈ table, entry.2 ≠ []) :
    ∀ entry ∈ (accept limit width table k now).1, entry.2 ≠ [] := by
  have hclean : ∀ entry ∈ clean width k now table, entry.2 ≠ [] := by
    intro entry hentry
    unfold clean at hentry
    split at hentry
    · exact hentries entry (List.mem_of_mem_filter hentry)
    · rename_i hkept
      rcases Dict.mem_set hentry with h | rfl
      · exact hentries entry h
      · exact hkept
  intro entry hentry
  unfold accept at hentry
  simp only at hentry
  split at hentry
  · exact hclean entry hentry
  · rcases Dict.mem_set hentry with h | rfl
    · exact hclean entry h
    · simp

/-- What is in a window that has not ended yet still counts. -/
theorem window_le_recent {start : τ} (h : now < start + width) :
    (window width k start log).length ≤ (recent width k now log).length := by
  unfold window recent
  refine (List.monotone_filter_right _ ?_).length_le
  intro t ht
  have hstart : start ≤ t := (of_decide_eq_true ht).1
  have hlt : now - width < start := sub_lt_iff_lt_add.mpr h
  exact decide_eq_true (hlt.trans_le hstart)

/-- A request that does not come before the clock. -/
theorem Kept.step {clock : τ} {s : Table κ τ × List (Entry κ τ)} (h : Kept limit width clock s)
    (hnow : clock ≤ now) : Kept limit width now (step limit width s (k, now)) := by
  have haccept : (accept limit width s.1 k now).2 =
      decide ((recent width k now s.2).length < limit) := by
    rw [accept_eq, h.kept k now hnow]
  have hrecent : (accept limit width s.1 k now).2 = true ↔
      (recent width k now s.2).length < limit := by
    rw [haccept, decide_eq_true_iff]
  constructor
  · intro k' later hlater
    -- cutting off at `now` and then at a later time is cutting off at the later one
    have htwice : ∀ ts : List τ, (ts.filter (now - width < ·)).filter (later - width < ·) =
        ts.filter (later - width < ·) := by
      intro ts
      rw [List.filter_filter]
      apply List.filter_congr
      intro t _
      have hle : now - width ≤ later - width := sub_le_sub_right hlater width
      by_cases ht : later - width < t
      · simp [ht, hle.trans_lt ht]
      · simp [ht]
    unfold SlidingWindow.step recent
    rw [times_accept, passed_concat]
    by_cases hk : k = k'
    · subst hk
      rw [if_pos rfl, List.filter_append, htwice, h.kept k later (hnow.trans hlater),
        List.filter_append]
      by_cases hpass : (accept limit width s.1 k now).2 = true <;> simp [hpass, recent]
    · have hne : ¬ (k = k' ∧ (accept limit width s.1 k now).2 = true) := fun hand => hk hand.1
      rw [if_neg hk, if_neg hne, List.append_nil]
      exact h.kept k' later (hnow.trans hlater)
  · exact decided_concat h.decided hrecent
  · intro k' start
    have hold := h.bounded k' start
    unfold SlidingWindow.step window
    rw [passed_concat, List.filter_append, List.length_append]
    by_cases hin : (k = k' ∧ (accept limit width s.1 k now).2 = true) ∧
        start ≤ now ∧ now < start + width
    · obtain ⟨⟨rfl, hpass⟩, hwindow⟩ := hin
      have hle : (window width k start s.2).length ≤ (recent width k now s.2).length :=
        window_le_recent hwindow.2
      have hlt := hrecent.mp hpass
      simp only [hpass, and_self, if_true, hwindow, List.filter_cons, List.filter_nil,
        decide_true, List.length_singleton]
      unfold window at hle
      omega
    · have hnone : ((if k = k' ∧ (accept limit width s.1 k now).2 = true then [now] else []).filter
          fun t => decide (start ≤ t ∧ t < start + width)) = [] := by
        split
        · rename_i hpass
          exact List.filter_eq_nil_iff.mpr fun t ht => by
            rw [List.mem_singleton.mp ht]
            simpa using fun hstart => not_lt.mp fun hend => hin ⟨hpass, hstart, hend⟩
        · rfl
      simp only [hnone, List.length_nil, Nat.add_zero]
      exact hold
  · intro k'
    unfold SlidingWindow.step
    rw [times_accept]
    split
    · rw [h.kept k now hnow, List.length_append]
      by_cases hpass : (accept limit width s.1 k now).2 = true
      · have hlt := hrecent.mp hpass
        simp only [hpass, if_true, List.length_singleton]
        omega
      · have hle := List.length_filter_le (fun t => decide (now - width < t)) (times k s.1)
        rw [h.kept k now hnow] at hle
        have hfew := h.few k
        simp only [hpass]
        simpa using hle.trans hfew
    · exact h.few k'
  · exact entries_accept h.entries

/-- A run of requests in the order of time. -/
theorem kept_run {rs : List (κ × τ)} (hclock : rs.Pairwise (·.2 ≤ ·.2)) :
    ∀ clock, (∀ r ∈ rs, r.2 ≤ clock) → Kept limit width clock (run limit width rs) := by
  induction rs using List.reverseRecOn with
  | nil => exact fun clock _ => kept_empty clock
  | append_singleton rs r ih =>
    intro clock hbefore
    rw [List.pairwise_append] at hclock
    have hr : ∀ r' ∈ rs, r'.2 ≤ r.2 := by
      intro r' hr'
      exact hclock.2.2 r' hr' r (List.mem_singleton_self r)
    have hrest := (ih hclock.1 r.2 hr).step (k := r.1) le_rfl
    have hend : r.2 ≤ clock := hbefore r (by simp)
    rw [run_concat]
    exact { hrest with kept := fun k now hnow => hrest.kept k now (hend.trans hnow) }

end SlidingWindow
