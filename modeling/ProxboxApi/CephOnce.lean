import ProxboxApi.CephSafety

/-! How often the operations of one plan are applied, over any number of calls of `apply_plan`:
the only guard is the query for a completed run of the plan. -/

namespace ProxboxApi.Ceph

variable (py : Python)

/-- No operation is started after it has returned, in whichever calls. -/
def AppliedOnce (log : List Event) : Prop :=
  ∀ (i j : ℕ) (id : String) (n : ℕ),
    ¬ Runs.Follows (.returned i id n) (.started j id n) (fun _ => True) log

/-- A call on the plan has passed the checks and is still applying operations. -/
def Engine.inFlight (e : Engine) (id : String) : Bool :=
  e.calls.any fun c => c.plan.id = id && c.phase.active

def Event.appliedOf (id : String) : Event → Bool
  | .returned _ id' _ => id' = id
  | .started _ _ _ => false

/-- An operation of the plan has been applied. -/
def Engine.touched (e : Engine) (id : String) : Bool := e.log.any (Event.appliedOf id)

/-- The checks of `apply_plan` let a call on to the operations of the plan only while no other
call is applying them and none has been applied. -/
def Untouched (e : Engine) : Label → Prop
  | .resume i .database => match e.calls[i]? with
    | some ⟨plan, request, .checking⟩ =>
      (completedRunForPlan e.runs plan.id).isSome = true ∨ (refusal plan request).isSome = true ∨
        (e.inFlight plan.id = false ∧ e.touched plan.id = false)
    | _ => True
  | _ => True

instance (e : Engine) (l : Label) : Decidable (Untouched e l) := by
  unfold Untouched
  split
  · split <;> infer_instance
  · infer_instance

/-- The operation that an active call is at, or is to start with. -/
def Phase.upcoming : Phase → Option ℕ
  | .creating => some 0
  | .applying n _ => some n
  | _ => none

theorem Phase.active_of_upcoming {q : Phase} {n : ℕ} (h : q.upcoming = some n) :
    q.active = true := by
  cases q <;> simp_all [Phase.upcoming, Phase.active]

/-- Each plan has one active call at most, and all that has been applied of the plan is
behind it. -/
structure Once (e : Engine) : Prop where
  single : ∀ (i j : ℕ) (c d : Call), e.calls[i]? = some c → e.calls[j]? = some d →
    c.plan.id = d.plan.id → c.phase.active = true → d.phase.active = true → i = j
  behind : ∀ (i : ℕ) (c : Call) (n : ℕ), e.calls[i]? = some c → c.phase.upcoming = some n →
    ∀ j m, .returned j c.plan.id m ∈ e.log → m < n
  once : AppliedOnce e.log

theorem once_initial : Once Engine.initial := by
  refine ⟨?_, ?_, ?_⟩
  · simp [Engine.initial]
  · simp [Engine.initial]
  · rintro i j id n ⟨pre, mid, post, hlog, -⟩
    simp [Engine.initial] at hlog

/-- A log stays in order when an operation that has not returned is started. -/
theorem AppliedOnce.start {log : List Event} (h : AppliedOnce log) {i : ℕ} {id : String} {n : ℕ}
    (hnew : ∀ j, .returned j id n ∉ log) : AppliedOnce (log ++ [.started i id n]) := by
  intro j k id' m hfollows
  rcases Runs.follows_concat hfollows with hold | ⟨heq, hmem⟩
  · exact h j k id' m hold
  · cases heq
    exact hnew j hmem

theorem AppliedOnce.return {log : List Event} (h : AppliedOnce log) (i : ℕ) (id : String) (n : ℕ) :
    AppliedOnce (log ++ [.returned i id n]) := by
  intro j k id' m hfollows
  rcases Runs.follows_concat hfollows with hold | ⟨heq, -⟩
  · exact h j k id' m hold
  · cases heq

theorem Once.call {e e' : Engine} {plan : PlanResponse} {request : ApplyRequest} (he : Once e)
    (hcalls : e'.calls = e.calls ++ [⟨plan, request, .checking⟩]) (hlog : e'.log = e.log) :
    Once e' := by
  have hold : ∀ {i : ℕ} {c : Call}, e'.calls[i]? = some c → c.phase.active = true →
      e.calls[i]? = some c := by
    intro i c hi hactive
    rw [hcalls] at hi
    rcases Runs.party_concat hi with ⟨-, rfl⟩ | ⟨-, hi⟩
    · simp [Phase.active] at hactive
    · exact hi
  refine ⟨?_, ?_, ?_⟩
  · intro i j c d hi hj hid hc hd
    exact he.single i j c d (hold hi hc) (hold hj hd) hid hc hd
  · intro i c n hi hn j m hmem
    rw [hlog] at hmem
    exact he.behind i c n (hold hi (Phase.active_of_upcoming hn)) hn j m hmem
  · rw [hlog]
    exact he.once

/-- Nothing of the plan has been applied, and no call is applying it. -/
theorem fresh_of_untouched {e : Engine} {id : String} (hflight : e.inFlight id = false)
    (htouched : e.touched id = false) :
    (∀ (j : ℕ) (d : Call), e.calls[j]? = some d → d.plan.id = id → d.phase.active = false) ∧
      ∀ j m, .returned j id m ∉ e.log := by
  refine ⟨?_, ?_⟩
  · intro j d hj hid
    simp only [Engine.inFlight, List.any_eq_false] at hflight
    simpa [hid] using hflight d (List.mem_of_getElem? hj)
  · intro j m hmem
    simp only [Engine.touched, List.any_eq_false] at htouched
    simpa [Event.appliedOf] using htouched _ hmem

/-- A call that goes on from an await stays the only active one of its plan, if it was active
before or the plan is fresh. -/
theorem Once.single_set {e : Engine} {i : ℕ} {c : Call} {q' : Phase} (he : Once e)
    (hi : e.calls[i]? = some c)
    (halone : q'.active = true → c.phase.active = true ∨
      ∀ (j : ℕ) (d : Call), e.calls[j]? = some d → d.plan.id = c.plan.id → d.phase.active = false)
    {j k : ℕ} {x y : Call}
    (hj' : (e.calls.set i { c with phase := q' })[j]? = some x)
    (hk' : (e.calls.set i { c with phase := q' })[k]? = some y)
    (hid : x.plan.id = y.plan.id) (hx : x.phase.active = true) (hy : y.phase.active = true) :
    j = k := by
  have hother : ∀ {l : ℕ} {z : Call}, e.calls[l]? = some z → c.plan.id = z.plan.id →
      z.phase.active = true → q'.active = true → i = l := by
    intro l z hl hz hactive hq
    rcases halone hq with hc | hnone
    · exact he.single i l c z hi hl hz hc hactive
    · have := hnone l z hl hz.symm
      rw [hactive] at this
      contradiction
  rcases Runs.party_set hj' with ⟨rfl, rfl⟩ | ⟨-, hj⟩
  · rcases Runs.party_set hk' with ⟨rfl, -⟩ | ⟨-, hk⟩
    · rfl
    · exact hother hk hid hy hx
  · rcases Runs.party_set hk' with ⟨rfl, rfl⟩ | ⟨-, hk⟩
    · exact (hother hj hid.symm hx hy).symm
    · exact he.single j k x y hj hk hid hx hy

theorem Once.resume {e e' : Engine} {i : ℕ} {c : Call} {a : Answer} {q' : Phase}
    {events : List Event} (he : Once e) (hi : e.calls[i]? = some c)
    (hmoves : Moves e i c a c.phase q' events)
    (hcalls : e'.calls = e.calls.set i { c with phase := q' }) (hlog : e'.log = e.log ++ events)
    (hfresh : c.phase.active = false → q'.active = true →
      e.inFlight c.plan.id = false ∧ e.touched c.plan.id = false) : Once e' := by
  have halone : q'.active = true → c.phase.active = true ∨
      ∀ (j : ℕ) (d : Call), e.calls[j]? = some d → d.plan.id = c.plan.id →
        d.phase.active = false := by
    intro hq
    cases hc : c.phase.active with
    | true => exact Or.inl rfl
    | false =>
      obtain ⟨hflight, htouched⟩ := hfresh hc hq
      exact Or.inr (fresh_of_untouched hflight htouched).1
  -- what the call itself applies is behind it, and no other active call has its plan
  have hbehind : (∀ m, q'.upcoming = some m → ∀ j k, .returned j c.plan.id k ∈ e.log ++ events →
        k < m) ∧ AppliedOnce (e.log ++ events) ∧
      (∀ j id m, .returned j id m ∈ events → id = c.plan.id ∧ c.phase.active = true) := by
    generalize hq : c.phase = q at hmoves hfresh
    cases hmoves with
    | idle _ _ _ hidle =>
      refine ⟨?_, ?_, by simp⟩
      · intro m hm
        have := Phase.active_of_upcoming hm
        rw [hidle] at this
        contradiction
      · simpa using he.once
    | enter hrun href =>
      obtain ⟨-, hnone⟩ := fresh_of_untouched (hfresh rfl rfl).1 (hfresh rfl rfl).2
      refine ⟨?_, by simpa using he.once, by simp⟩
      intro m hm j k hmem
      rw [List.append_nil] at hmem
      exact (hnone j k hmem).elim
    | start p =>
      have hold := he.behind i c 0 hi (by rw [hq]; rfl)
      refine ⟨?_, he.once.start fun j hmem => absurd (hold j 0 hmem) (by omega), by simp⟩
      intro m hm j k hmem
      simp only [List.mem_append, List.mem_singleton, reduceCtorEq, or_false] at hmem
      have := hold j k hmem
      omega
    | again _ n p p' =>
      have hold := he.behind i c n hi (by rw [hq]; rfl)
      have hreturned : ∀ j k, .returned j c.plan.id k ∈
          e.log ++ [Event.returned i c.plan.id n] → k < n + 1 := by
        intro j k hmem
        rcases List.mem_append.mp hmem with hmem | hmem
        · have := hold j k hmem
          omega
        · simp only [List.mem_singleton, Event.returned.injEq, true_and] at hmem
          omega
      refine ⟨?_, ?_, ?_⟩
      · intro m hm j k hmem
        cases hm
        refine hreturned j k ?_
        simpa using hmem
      · have hnew : ∀ j, .returned j c.plan.id (n + 1) ∉
            e.log ++ [Event.returned i c.plan.id n] := by
          intro j hmem
          have := hreturned j (n + 1) hmem
          omega
        simpa using (he.once.return i c.plan.id n).start (i := i) hnew
      · intro j id m hmem
        simp only [List.mem_cons, Event.returned.injEq, List.not_mem_nil, or_false,
          reduceCtorEq] at hmem
        exact ⟨hmem.2.1, rfl⟩
    | finish _ n p p' =>
      refine ⟨by simp [Phase.upcoming], he.once.return i c.plan.id n, ?_⟩
      intro j id m hmem
      simp only [List.mem_singleton, Event.returned.injEq] at hmem
      exact ⟨hmem.2.1, rfl⟩
  obtain ⟨hself, honce, hevents⟩ := hbehind
  refine ⟨?_, ?_, ?_⟩
  · intro j k x y hj hk hid hx hy
    rw [hcalls] at hj hk
    exact he.single_set hi halone hj hk hid hx hy
  · intro j x n hj hn k m hmem
    rw [hcalls] at hj
    rw [hlog] at hmem
    rcases Runs.party_set hj with ⟨-, rfl⟩ | ⟨hji, hj⟩
    · exact hself n hn k m hmem
    · rcases List.mem_append.mp hmem with hmem | hmem
      · exact he.behind j x n hj hn k m hmem
      · obtain ⟨hid, hactive⟩ := hevents k _ m hmem
        exact absurd (he.single j i x c hj hi hid (Phase.active_of_upcoming hn) hactive) hji
  · rw [hlog]
    exact honce

theorem once_step {e e' : Engine} {l : Label} (he : Once e) (hok : Untouched e l)
    (h : step py e l = some e') : Once e' := by
  rcases step_cases py h with ⟨plan, request, -, hcalls, hlog⟩ |
    ⟨i, a, c, q', events, hl, hi, hmoves, hcalls, hlog⟩
  · exact he.call hcalls hlog
  · refine he.resume hi hmoves hcalls hlog ?_
    intro hc hq
    obtain ⟨plan, request, phase⟩ := c
    cases hmoves with
    | idle _ _ _ hidle =>
      rw [hidle] at hq
      contradiction
    | enter hrun href =>
      subst hl
      simp only [Untouched, hi] at hok
      rcases hok with hsome | hsome | hfresh
      · rw [hrun] at hsome
        contradiction
      · rw [href] at hsome
        contradiction
      · exact hfresh
    | start p => contradiction
    | again _ n p p' => contradiction
    | finish _ n p p' => contradiction

/-- In every run in which the checks let no call on to a plan that is being applied or has been
applied in part, no operation is applied again, whatever the calls of `adapter.apply` end in. -/
theorem applied_once_of_untouched (labels : List Label) (e : Engine)
    (hrun : Runs.exec (step py) Engine.initial labels = some e)
    (halone : Runs.Guarded (step py) Untouched Engine.initial labels) : AppliedOnce e.log := by
  have hinv : Once e := by
    refine Runs.invariant_of_guarded Once ?_ once_initial halone hrun
    intro s l t hs hok hstep
    exact once_step py hs hok hstep
  exact hinv.once

/-- Both operations of a plan are applied, and a second call is answered with their run. -/
def replayLabels : List Label :=
  [.call (zapPlan ["osd.3", "osd.4"]) zapApply, .resume 0 .database, .resume 0 .database,
    .resume 0 (.applied []), .resume 0 (.applied []), .resume 0 .database,
    .call (zapPlan ["osd.3", "osd.4"]) zapApply, .resume 1 .database]

theorem applied_once_of_untouched_replay : ∃ e,
    Runs.exec (step .ascii) Engine.initial replayLabels = some e ∧ e.log.length = 4 ∧
      AppliedOnce e.log := by
  obtain ⟨e, hrun, hlog⟩ : ∃ e, Runs.exec (step .ascii) Engine.initial replayLabels = some e ∧
      e.log.length = 4 := ⟨_, rfl, rfl⟩
  exact ⟨e, hrun, hlog, applied_once_of_untouched .ascii replayLabels e hrun (by decide)⟩

/-- The second operation of a plan raises, and the plan is applied again. -/
def retryLabels : List Label :=
  [.call (zapPlan ["osd.3", "osd.4"]) zapApply, .resume 0 .database, .resume 0 .database,
    .resume 0 (.applied []), .resume 0 (.failed "in use"), .resume 0 .database,
    .call (zapPlan ["osd.3", "osd.4"]) zapApply, .resume 1 .database, .resume 1 .database]

/-- The run of the first call has failed, so it is no completed one: the first OSD is zapped
once more. -/
theorem applied_twice_after_failure :
    buildPlan .ascii (·.targetRef) "plan-1" none (zapRequest ["osd.3", "osd.4"]) zapAdapter =
        .ok (zapPlan ["osd.3", "osd.4"]) ∧
      ∃ e, Runs.exec (step .ascii) Engine.initial retryLabels = some e ∧
        ¬ AppliedOnce e.log := by
  refine ⟨rfl, _, rfl, ?_⟩
  intro honce
  refine honce 0 1 "plan-1" 0 ⟨[.started 0 "plan-1" 0], [.started 0 "plan-1" 1], [], rfl, ?_⟩
  simp

end ProxboxApi.Ceph
