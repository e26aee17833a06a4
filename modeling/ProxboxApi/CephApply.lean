import ProxboxApi.CephPlan
import ProxboxApi.Runs

/-! How the plans of the Ceph engine are applied: the gates before the first operation and the
loop over the operations, for any number of calls of `apply_plan` at once.  A call runs from
one of its awaits to the next in one step. -/

namespace ProxboxApi.Ceph

structure ApplyRequest where
  actor : Option String
  netboxBranchSchemaId : Option String
  sourceBranchSchemaId : Option String
  confirmDestructive : Bool
  confirmationToken : Option String

/-- The states of an operation run that the engine writes. -/
inductive OperationStatus where
  | running
  | completed
  | failed
  | blocked
  deriving DecidableEq, Repr

/-- A row of the operation runs; its place in the table is its id and its age. -/
structure OperationRun where
  planId : Option String
  status : OperationStatus
  actor : Option String
  sourceBranchSchemaId : Option String
  provider : String
  requestSummary : Json
  providerTaskRefs : List String
  warnings : List String
  errors : List String
  resultSummary : Json

variable (py : Python)

def ApplyRequest.branchSchemaId (request : ApplyRequest) : Option String :=
  (request.netboxBranchSchemaId.filter (· ≠ "")).or request.sourceBranchSchemaId

def confirmationTokens (plan : PlanResponse) : List String :=
  [plan.id, "confirm:" ++ plan.id, "confirm-destructive:" ++ plan.id]

/-- `_confirmation_satisfied`. -/
def confirmationSatisfied (plan : PlanResponse) (request : ApplyRequest) : Bool :=
  request.confirmDestructive ||
    (request.confirmationToken.map (confirmationTokens plan).contains).getD false

/-- `_task_refs_from_result`. -/
def taskRefsFromResult (result : Json.Fields) : List String :=
  let value (key : String) : Json := (Dict.get key result).getD .null
  let ref (key : String) : List String :=
    if Python.truthy (value key) then [py.str (value key)] else []
  ref "provider_task_ref" ++
    (match value "provider_task_refs" with
      | .arr items => (items.filter Python.truthy).map py.str
      | _ => []) ++
    ref "upid"

def optional : Option String → Json
  | some s => .str s
  | none => .null

/-- `model_dump(mode="json")` of an operation. -/
def ProviderOperation.dump (op : ProviderOperation) : Json :=
  .obj [("id", optional op.id), ("provider", .str op.provider), ("kind", .str op.kind),
    ("target_ref", .str op.targetRef), ("action", .str op.action),
    ("is_destructive", .bool op.isDestructive), ("supported", .bool op.supported),
    ("blocked_reason", optional op.blockedReason), ("before_summary", Ceph.dump op.beforeSummary),
    ("after_summary", Ceph.dump op.afterSummary), ("metadata", Ceph.dump op.metadata)]

/-- Why `apply_plan` refuses a plan. -/
structure Refusal where
  statusCode : ℕ
  status : OperationStatus
  reason : String
  errors : List String

/-- The checks of `apply_plan` before it creates the run of the plan. -/
def refusal (plan : PlanResponse) (request : ApplyRequest) : Option Refusal :=
  let validationErrors :=
    (plan.validations.filter (·.severity = .error)).map (·.message)
  let blockers := plan.operations.filter (!·.supported)
  let destructive := plan.operations.filter (·.isDestructive)
  if validationErrors ≠ [] then
    some ⟨422, .failed, "plan_validation_failed", validationErrors⟩
  else if blockers.isEmpty = false then
    some ⟨409, .blocked, "plan_has_blocked_operations",
      blockers.map fun op => orElse op.blockedReason "provider operation is blocked"⟩
  else if destructive.isEmpty = false ∧ confirmationSatisfied plan request = false then
    some ⟨409, .failed, "destructive_confirmation_required",
      ["Destructive Ceph operations require confirm_destructive=true or " ++
        "confirmation_token='confirm-destructive:" ++ plan.id ++ "'."]⟩
  else none

/-- `_create_run`, for a call on a plan. -/
def createRun (plan : PlanResponse) (request : ApplyRequest) (reason : Json.Fields)
    (status : OperationStatus) (errors : List String) (resultSummary : Json) : OperationRun where
  planId := some plan.id
  status := status
  actor := request.actor
  sourceBranchSchemaId := (request.branchSchemaId.filter (· ≠ "")).or plan.sourceBranchSchemaId
  provider := plan.provider
  requestSummary := redactJson py (.obj ([("plan_id", .str plan.id)] ++ reason ++
    [("operations", .arr (plan.operations.map (·.dump)))]))
  providerTaskRefs := []
  warnings := plan.warnings
  errors
  resultSummary

/-- The run that `_raise_with_run` leaves. -/
def refusedRun (plan : PlanResponse) (request : ApplyRequest) (r : Refusal) : OperationRun :=
  createRun py plan request [("reason", .str r.reason)] r.status r.errors
    (.obj [("reason", .str r.reason), ("applied", .int 0),
      ("total", .int plan.operations.length)])

/-- What the loop over the operations has collected. -/
structure Progress where
  run : ℕ
  taskRefs : List String
  results : List Json

/-- `_update_run`, after the loop has ended with these errors. -/
def updateRun (plan : PlanResponse) (p : Progress) (errors : List String)
    (run : OperationRun) : OperationRun :=
  let count (f : ProviderOperation → Bool) : Json := .int (plan.operations.countP f)
  let applied : Json × Json := (.int p.results.length, .int plan.operations.length)
  { run with
    status := if errors = [] then .completed else .failed
    providerTaskRefs := p.taskRefs
    warnings := plan.warnings
    errors
    resultSummary := redactJson py (.obj (
      if errors = [] then
        [("applied", applied.1), ("noop", count (·.action = "noop")), ("total", applied.2),
          ("destructive", count (·.isDestructive)), ("results", .arr p.results)]
      else [("applied", applied.1), ("total", applied.2), ("results", .arr p.results)])) }

/-- The await a call of `apply_plan` is suspended at, or how it has ended. -/
inductive Phase where
  | checking
  | refusing (r : Refusal)
  | creating
  | applying (n : ℕ) (p : Progress)
  | closing (p : Progress) (errors : List String)
  | returned (run : OperationRun)
  | raised (r : Refusal)
  | crashed

structure Call where
  plan : PlanResponse
  request : ApplyRequest
  phase : Phase

/-- `adapter.apply` of an operation is called, or has returned. -/
inductive Event where
  | started (call : ℕ) (planId : String) (operation : ℕ)
  | returned (call : ℕ) (planId : String) (operation : ℕ)
  deriving DecidableEq, Repr

structure Engine where
  runs : List OperationRun
  calls : List Call
  log : List Event

def Engine.initial : Engine := ⟨[], [], []⟩

/-- `completed_run_for_plan`. -/
def completedRunForPlan (runs : List OperationRun) (planId : String) : Option OperationRun :=
  (runs.reverse.find? fun run => run.planId = some planId && run.status = .completed).map
    fun run => { run with
      resultSummary := match run.resultSummary with
        | .obj fields => .obj (Dict.set "idempotent_replay" (.bool true) fields)
        | other => other }

def Engine.setPhase (e : Engine) (i : ℕ) (c : Call) (phase : Phase) : Engine :=
  { e with calls := e.calls.set i { c with phase } }

/-- The loop goes on with the operation `n`. -/
def Engine.next (e : Engine) (i : ℕ) (c : Call) (n : ℕ) (p : Progress) : Engine :=
  if n < c.plan.operations.length then
    { e.setPhase i c (.applying n p) with log := e.log ++ [Event.started i c.plan.id n] }
  else e.setPhase i c (.closing p [])

/-- What the await of a call ends in: the database has answered, `adapter.apply` has returned
or raised, or the call does not go on. -/
inductive Answer where
  | database
  | applied (result : Json.Fields)
  | failed (text : String)
  | crash

inductive Label where
  | call (plan : PlanResponse) (request : ApplyRequest)
  | resume (i : ℕ) (a : Answer)

/-- The errors of `apply_plan`, on an operation that raised. -/
def applyError (plan : PlanResponse) (n : ℕ) (text : String) : String :=
  match plan.operations[n]? with
  | some op => op.action ++ " " ++ op.kind ++ " " ++ op.targetRef ++ ": " ++ text
  | none => text

/-- One call of `apply_plan` between two awaits. -/
def resume (e : Engine) (i : ℕ) (c : Call) : Phase → Answer → Option Engine
  | .checking, .database =>
    match completedRunForPlan e.runs c.plan.id, refusal c.plan c.request with
    | some run, _ => some (e.setPhase i c (.returned run))
    | none, some r => some (e.setPhase i c (.refusing r))
    | none, none => some (e.setPhase i c .creating)
  | .refusing r, .database =>
    some { e.setPhase i c (.raised r) with
      runs := e.runs ++ [refusedRun py c.plan c.request r] }
  | .creating, .database =>
    let e := { e with
      runs := e.runs ++ [createRun py c.plan c.request [] .running [] (.obj [])] }
    some (e.next i c 0 ⟨e.runs.length - 1, [], []⟩)
  | .applying n p, .applied result =>
    let e := { e with log := e.log ++ [Event.returned i c.plan.id n] }
    some (e.next i c (n + 1) { p with
      taskRefs := p.taskRefs ++ taskRefsFromResult py result
      results := p.results ++ [redactJson py (.obj result)] })
  | .applying n p, .failed text =>
    some (e.setPhase i c (.closing p [applyError c.plan n text]))
  | .closing p errors, .database =>
    let runs := e.runs.modify p.run (updateRun py c.plan p errors)
    match runs[p.run]? with
    | some run => some { e.setPhase i c (.returned run) with runs }
    | none => none
  | .returned _, _ | .raised _, _ | .crashed, _ => none
  | _, .crash => some (e.setPhase i c .crashed)
  | _, _ => none

def step (e : Engine) : Label → Option Engine
  | .call plan request => some { e with calls := e.calls ++ [⟨plan, request, .checking⟩] }
  | .resume i a => match e.calls[i]? with
    | some c => resume py e i c c.phase a
    | none => none

/-- The call has passed the checks and may still call `adapter.apply`. -/
def Phase.active : Phase → Bool
  | .creating | .applying _ _ => true
  | _ => false

/-- All that one resumption does to the phase of a call and to the log. -/
inductive Moves (e : Engine) (i : ℕ) (c : Call) :
    Answer → Phase → Phase → List Event → Prop where
  | idle (a : Answer) (q q' : Phase) : q'.active = false → Moves e i c a q q' []
  | enter : completedRunForPlan e.runs c.plan.id = none → refusal c.plan c.request = none →
    Moves e i c .database .checking .creating []
  | start (p : Progress) :
    Moves e i c .database .creating (.applying 0 p) [.started i c.plan.id 0]
  | again (a : Answer) (n : ℕ) (p p' : Progress) :
    Moves e i c a (.applying n p) (.applying (n + 1) p')
      [.returned i c.plan.id n, .started i c.plan.id (n + 1)]
  | finish (a : Answer) (n : ℕ) (p p' : Progress) :
    Moves e i c a (.applying n p) (.closing p' []) [.returned i c.plan.id n]

theorem resume_cases {e e' : Engine} {i : ℕ} {c : Call} {q : Phase} {a : Answer}
    (h : resume py e i c q a = some e') : ∃ (q' : Phase) (events : List Event),
      Moves e i c a q q' events ∧ e'.calls = e.calls.set i { c with phase := q' } ∧
        e'.log = e.log ++ events := by
  unfold resume at h
  split at h
  · split at h <;> cases h
    · exact ⟨_, [], .idle _ _ _ rfl, rfl, by simp [Engine.setPhase]⟩
    · exact ⟨_, [], .idle _ _ _ rfl, rfl, by simp [Engine.setPhase]⟩
    · exact ⟨_, [], .enter ‹_› ‹_›, rfl, by simp [Engine.setPhase]⟩
  · cases h
    exact ⟨_, [], .idle _ _ _ rfl, rfl, by simp [Engine.setPhase]⟩
  · cases h
    unfold Engine.next
    split
    · exact ⟨_, _, .start _, rfl, rfl⟩
    · exact ⟨_, [], .idle _ _ _ rfl, rfl, by simp [Engine.setPhase]⟩
  · cases h
    unfold Engine.next
    split
    · exact ⟨_, _, .again _ _ _ _, rfl, by simp⟩
    · exact ⟨_, _, .finish _ _ _ _, rfl, rfl⟩
  · cases h
    exact ⟨_, [], .idle _ _ _ rfl, rfl, by simp [Engine.setPhase]⟩
  · dsimp only at h
    split at h <;> cases h
    exact ⟨_, [], .idle _ _ _ rfl, rfl, by simp [Engine.setPhase]⟩
  · contradiction
  · contradiction
  · contradiction
  · cases h
    exact ⟨_, [], .idle _ _ _ rfl, rfl, by simp [Engine.setPhase]⟩
  · contradiction

/-- One step is a new call, or a resumption as `Moves` has it. -/
theorem step_cases {e e' : Engine} {l : Label} (h : step py e l = some e') :
    (∃ plan request, l = .call plan request ∧
      e'.calls = e.calls ++ [⟨plan, request, .checking⟩] ∧ e'.log = e.log) ∨
    (∃ i a c q' events, l = .resume i a ∧ e.calls[i]? = some c ∧
      Moves e i c a c.phase q' events ∧ e'.calls = e.calls.set i { c with phase := q' } ∧
        e'.log = e.log ++ events) := by
  cases l with
  | call plan request =>
    cases h
    exact Or.inl ⟨plan, request, rfl, rfl, rfl⟩
  | resume i a =>
    simp only [step] at h
    split at h
    · obtain ⟨q', events, hmoves, hcalls, hlog⟩ := resume_cases py h
      exact Or.inr ⟨i, a, _, q', events, rfl, ‹_›, hmoves, hcalls, hlog⟩
    · contradiction

/-- Every call that is to apply operations, or has applied some, has passed the checks. -/
structure Checked (e : Engine) : Prop where
  active : ∀ (i : ℕ) (c : Call), e.calls[i]? = some c → c.phase.active = true →
    refusal c.plan c.request = none
  started : ∀ (i n : ℕ) (id : String), .started i id n ∈ e.log → ∃ c, e.calls[i]? = some c ∧
    refusal c.plan c.request = none

theorem checked_initial : Checked Engine.initial := by
  constructor <;> simp [Engine.initial]

theorem Moves.checked {e : Engine} {i : ℕ} {c : Call} {a : Answer} {q q' : Phase}
    {events : List Event} (h : Moves e i c a q q' events) (hq : q.active = true → refusal c.plan c.request = none) :
    (q'.active = true → refusal c.plan c.request = none) ∧
      ∀ (j n : ℕ) (id : String), .started j id n ∈ events →
        j = i ∧ refusal c.plan c.request = none := by
  cases h with
  | idle _ _ _ hidle => simp [hidle]
  | enter _ href => simp [href]
  | start p => simp [hq rfl]
  | again _ n p p' => simp [hq rfl]
  | finish _ n p p' => simp [Phase.active]

theorem checked_step {e e' : Engine} {l : Label} (he : Checked e)
    (h : step py e l = some e') : Checked e' := by
  rcases step_cases py h with ⟨plan, request, -, hcalls, hlog⟩ |
    ⟨i, a, c, q', events, -, hi, hmoves, hcalls, hlog⟩
  · refine ⟨?_, ?_⟩
    · intro j d hj hd
      rw [hcalls] at hj
      rcases Runs.party_concat hj with ⟨-, rfl⟩ | ⟨-, hj⟩
      · simp [Phase.active] at hd
      · exact he.active j d hj hd
    · intro j n id hmem
      rw [hlog] at hmem
      obtain ⟨d, hj, hd⟩ := he.started j n id hmem
      have hlt := (List.getElem?_eq_some_iff.mp hj).1
      exact ⟨d, by rw [hcalls, List.getElem?_append_left hlt, hj], hd⟩
  · obtain ⟨hactive, hevents⟩ := hmoves.checked (he.active i c hi)
    have hlt := (List.getElem?_eq_some_iff.mp hi).1
    refine ⟨?_, ?_⟩
    · intro j d hj hd
      rw [hcalls] at hj
      rcases Runs.party_set hj with ⟨-, rfl⟩ | ⟨-, hj⟩
      · exact hactive hd
      · exact he.active j d hj hd
    · intro j n id hmem
      rw [hlog] at hmem
      have hfound : ∃ d, e.calls[j]? = some d ∧ refusal d.plan d.request = none := by
        rcases List.mem_append.mp hmem with hmem | hmem
        · exact he.started j n id hmem
        · obtain ⟨rfl, href⟩ := hevents j n id hmem
          exact ⟨c, hi, href⟩
      obtain ⟨d, hj, hd⟩ := hfound
      by_cases hji : i = j
      · subst hji
        rw [hi] at hj
        cases hj
        exact ⟨{ c with phase := q' }, by simp [hcalls, hlt], hd⟩
      · exact ⟨d, by rw [hcalls, List.getElem?_set_ne hji, hj], hd⟩

end ProxboxApi.Ceph
