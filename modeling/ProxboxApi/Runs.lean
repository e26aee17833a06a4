import Mathlib.Data.List.Basic

/-! Finite runs of a labelled machine, conditions on the steps of a run, and the
bookkeeping of machines whose state is a table of parties and a log of events. -/

namespace Runs

variable {σ α β : Type*}

/-- The state after a schedule of labels; `none` as soon as one of them is not enabled. -/
def exec (step : σ → α → Option σ) : σ → List α → Option σ
  | s, [] => some s
  | s, a :: as => match step s a with
    | none => none
    | some t => exec step t as

/-- Every step of the run meets the condition `ok` in the state it is taken from. -/
def Guarded (step : σ → α → Option σ) (ok : σ → α → Prop) : σ → List α → Prop
  | _, [] => True
  | s, a :: as => match step s a with
    | none => True
    | some t => ok s a ∧ Guarded step ok t as

instance decidableGuarded (step : σ → α → Option σ) (ok : σ → α → Prop)
    [∀ s a, Decidable (ok s a)] : ∀ s as, Decidable (Guarded step ok s as)
  | _, [] => isTrue trivial
  | s, a :: as => by
    unfold Guarded
    cases step s a with
    | none => exact isTrue trivial
    | some t => exact @instDecidableAnd _ _ _ (decidableGuarded step ok t as)

variable {step : σ → α → Option σ} {ok : σ → α → Prop}

theorem exec_cons_iff {s t : σ} {a : α} {as : List α} :
    exec step s (a :: as) = some t ↔ ∃ u, step s a = some u ∧ exec step u as = some t := by
  cases h : step s a <;> simp [exec, h]

theorem exec_eq_foldlM {s : σ} {as : List α} : exec step s as = as.foldlM step s := by
  induction as generalizing s with
  | nil => rfl
  | cons a as ih =>
    rw [List.foldlM_cons]
    cases h : step s a with
    | none => simp [exec, h]
    | some t => simpa [exec, h] using ih

theorem guarded_cons {s u : σ} {a : α} {as : List α} (hu : step s a = some u)
    (hg : Guarded step ok s (a :: as)) : ok s a ∧ Guarded step ok u as := by
  simpa only [Guarded, hu] using hg

/-- The induction over a run: a property of states which every allowed step keeps
holds at the end of each run whose steps are all allowed. -/
theorem invariant_of_guarded (Inv : σ → Prop)
    (hstep : ∀ s a t, Inv s → ok s a → step s a = some t → Inv t)
    {s t : σ} {as : List α} (hs : Inv s) (hg : Guarded step ok s as)
    (hrun : exec step s as = some t) : Inv t := by
  induction as generalizing s with
  | nil =>
    cases hrun
    exact hs
  | cons a as ih =>
    obtain ⟨u, hu, hrest⟩ := exec_cons_iff.mp hrun
    obtain ⟨hok, hg'⟩ := guarded_cons hu hg
    exact ih (hstep s a u hs hok hu) hg' hrest

/-- A condition that follows from another one in every state of an invariant. -/
theorem Guarded.mono_of_invariant {ok' : σ → α → Prop} (Inv : σ → Prop)
    (hstep : ∀ s a t, Inv s → step s a = some t → Inv t)
    (hok : ∀ s a, Inv s → ok s a → ok' s a) {s : σ} {as : List α} (hs : Inv s)
    (hg : Guarded step ok s as) : Guarded step ok' s as := by
  induction as generalizing s with
  | nil => trivial
  | cons a as ih =>
    unfold Guarded at hg ⊢
    split
    · trivial
    · rename_i t ht
      rw [ht] at hg
      exact ⟨hok s a hs hg.1, ih (hstep s a t hs ht) hg.2⟩

/-- The same induction when no step is excluded. -/
theorem invariant_of_step (Inv : σ → Prop)
    (hstep : ∀ s a t, Inv s → step s a = some t → Inv t)
    {s t : σ} {as : List α} (hs : Inv s) (hrun : exec step s as = some t) : Inv t := by
  induction as generalizing s with
  | nil =>
    cases hrun
    exact hs
  | cons a as ih =>
    obtain ⟨u, hu, hrest⟩ := exec_cons_iff.mp hrun
    exact ih (hstep s a u hs hu) hrest

/-- Every state that a run reaches has the property. -/
def Throughout (step : σ → α → Option σ) (P : σ → Prop) (s : σ) (as : List α) : Prop :=
  ∀ first, first <+: as → ∀ t, exec step s first = some t → P t

theorem throughout_nil_iff {P : σ → Prop} {s : σ} : Throughout step P s [] ↔ P s := by
  constructor
  · intro h
    exact h [] (List.prefix_refl _) s rfl
  · intro hs first hfirst t hrun
    obtain rfl := List.prefix_nil.mp hfirst
    cases hrun
    exact hs

theorem throughout_cons_iff {P : σ → Prop} {s : σ} {a : α} {as : List α} :
    Throughout step P s (a :: as) ↔
      P s ∧ ∀ u, step s a = some u → Throughout step P u as := by
  constructor
  · intro h
    refine ⟨h [] (List.nil_prefix) s rfl, ?_⟩
    intro u hu first hfirst t hrun
    exact h (a :: first) (List.prefix_cons_inj a |>.mpr hfirst) t (exec_cons_iff.mpr ⟨u, hu, hrun⟩)
  · rintro ⟨hs, hrest⟩ first hfirst t hrun
    cases first with
    | nil =>
      cases hrun
      exact hs
    | cons b first =>
      obtain ⟨rfl, htail⟩ := List.cons_prefix_cons.mp hfirst
      obtain ⟨u, hu, hrun⟩ := exec_cons_iff.mp hrun
      exact hrest u hu first htail t hrun

/-- Where a step from a state with the property leads to one with it exactly if the step is allowed,
a run keeps the property throughout exactly if all its steps are allowed. -/
theorem throughout_iff_guarded (Inv P : σ → Prop)
    (hstep : ∀ s a t, Inv s → step s a = some t → Inv t)
    (hok : ∀ s a t, Inv s → P s → step s a = some t → (P t ↔ ok s a)) {s : σ} {as : List α}
    (hs : Inv s) : Throughout step P s as ↔ P s ∧ Guarded step ok s as := by
  induction as generalizing s with
  | nil => simp [throughout_nil_iff, Guarded]
  | cons a as ih =>
    rw [throughout_cons_iff]
    refine and_congr_right fun hP => ?_
    unfold Guarded
    cases hu : step s a with
    | none => simp
    | some u =>
      simp only [Option.some.injEq, forall_eq']
      rw [ih (hstep s a u hs hu), hok s a u hs hP hu]

/-- Where each step says of the log what it says of the step, the log of a whole run says it of
every step. -/
theorem log_iff_guarded (Inv : σ → Prop) (log : σ → List β) (P : β → Prop)
    (hstep : ∀ s a t, Inv s → step s a = some t → Inv t)
    (hlog : ∀ s a t, Inv s → step s a = some t →
      ((∀ e ∈ log t, P e) ↔ (∀ e ∈ log s, P e) ∧ ok s a))
    {s t : σ} {as : List α} (hs : Inv s) (hrun : exec step s as = some t) :
    (∀ e ∈ log t, P e) ↔ (∀ e ∈ log s, P e) ∧ Guarded step ok s as := by
  induction as generalizing s with
  | nil =>
    cases hrun
    simp [Guarded]
  | cons a as ih =>
    obtain ⟨u, hu, hrest⟩ := exec_cons_iff.mp hrun
    have hhead := hlog s a u hs hu
    have htail := ih (hstep s a u hs hu) hrest
    have hguard : Guarded step ok s (a :: as) ↔ ok s a ∧ Guarded step ok u as := by
      simp only [Guarded, hu]
    rw [htail, hhead, hguard, and_assoc]

/-- A party of an updated table is the new one at the updated index or an old one. -/
theorem party_set {l : List β} {i j : ℕ} {b c : β} (h : (l.set i b)[j]? = some c) :
    (j = i ∧ c = b) ∨ (j ≠ i ∧ l[j]? = some c) := by
  by_cases hij : i = j
  · subst hij
    rw [List.getElem?_set_self'] at h
    cases hl : l[i]? with
    | none => simp [hl] at h
    | some d =>
      left
      simpa [hl, eq_comm] using h
  · right
    rw [List.getElem?_set_ne hij] at h
    exact ⟨fun e => hij e.symm, h⟩

/-- A party of a table with one more entry is the last one or an old one. -/
theorem party_concat {l : List β} {j : ℕ} {b c : β} (h : (l ++ [b])[j]? = some c) :
    (j = l.length ∧ c = b) ∨ (j < l.length ∧ l[j]? = some c) := by
  rcases Nat.lt_or_ge j l.length with hj | hj
  · right
    exact ⟨hj, by rwa [List.getElem?_append_left hj] at h⟩
  · left
    rw [List.getElem?_append_right hj] at h
    have h0 : j - l.length = 0 := by
      by_contra hne
      simp [hne] at h
    rw [h0] at h
    simp only [List.getElem?_cons_zero, Option.some.injEq] at h
    exact ⟨by omega, h.symm⟩

/-- Some `b` stands after some `a` in the log and all the events between them are `between`. -/
def Follows (a b : β) (between : β → Prop) (log : List β) : Prop :=
  ∃ pre mid post, log = pre ++ a :: (mid ++ b :: post) ∧ ∀ e ∈ mid, between e

theorem Follows.mem_left {a b : β} {between : β → Prop} {log : List β}
    (h : Follows a b between log) : a ∈ log := by
  obtain ⟨pre, mid, post, rfl, -⟩ := h
  simp

theorem Follows.mono {a b : β} {p q : β → Prop} {log : List β} (hpq : ∀ e, p e → q e)
    (h : Follows a b p log) : Follows a b q log := by
  obtain ⟨pre, mid, post, hlog, hmid⟩ := h
  exact ⟨pre, mid, post, hlog, fun e he => hpq e (hmid e he)⟩

theorem follows_concat {a b e : β} {between : β → Prop} {log : List β}
    (h : Follows a b between (log ++ [e])) :
    Follows a b between log ∨ (e = b ∧ a ∈ log) := by
  obtain ⟨pre, mid, post, hlog, hmid⟩ := h
  rcases List.eq_nil_or_concat post with rfl | ⟨post', e', rfl⟩
  · right
    have hs : log ++ [e] = (pre ++ a :: mid) ++ [b] := by simpa using hlog
    obtain ⟨hl, he⟩ := List.append_inj' hs rfl
    exact ⟨by simpa using he, by simp [hl]⟩
  · left
    have hs : log ++ [e] = (pre ++ a :: (mid ++ b :: post')) ++ [e'] := by
      simpa [List.concat_eq_append] using hlog
    obtain ⟨hl, -⟩ := List.append_inj' hs rfl
    exact ⟨pre, mid, post', hl, hmid⟩

end Runs
