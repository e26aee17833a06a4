import ProxboxApi.Generators
import ProxboxApi.SsePayloads

/-! `sse_stream_generator`: the frames that a consumer of a sync stream receives, for every way
the sync task, its cleanup, the events on the bridge and the result extractor can end. -/

namespace ProxboxApi.SseStream

open Requests Generator

/-- What the generator can be raised: a cancellation, or an `Exception` with its text. -/
inductive Raised where
  | cancelledError
  | exception (text : String)
  deriving DecidableEq, Repr

/-- How a task ends. -/
inductive Outcome where
  | value (result : Payload)
  | raised (text : String)
  | cancelled
  deriving Repr

/-- The sync task: how it ends by itself, how it ends when it is cancelled before, and where it
stands. -/
structure SyncTask where
  outcome : Outcome
  cleanup : Outcome
  cancelled : Bool := false
  done : Bool := false
  deriving Repr

def SyncTask.result (t : SyncTask) : Outcome := if t.cancelled then t.cleanup else t.outcome

/-- What the generator meets at the queue before the `None` of `close`: a timeout, an event, the
cancellation of the request, or that the sync task has ended in the meantime. -/
inductive Moment where
  | timeout
  | item (event : String) (data : Payload)
  | interrupted
  | taskEnds
  deriving Repr

/-- The arguments of the generator. -/
structure Stage where
  stepName : String
  startedMessage : Option String := none
  completedMessage : Option String := none
  failedMessage : Option String := none
  resultExtractor : Option (Payload → Except String Payload) := none

/-- `x or y` for a text. -/
def orElse : Option String → String → String
  | some s, t => if s = "" then t else s
  | none, t => t

def Payload.isDict : Payload → Bool
  | .dict _ => true
  | _ => false

def defaultExtract : Payload → Payload
  | .list items warnings =>
    let payloads := warnings.filter Payload.isDict
    let count := (Key.str "count", Payload.int items.length)
    .dict (if payloads = [] then [count] else [count, (.str "warnings", .list payloads [])])
  | .dict fields => .dict fields
  | _ => .dict []

def Stage.extract (g : Stage) (result : Payload) : Except String Payload :=
  match g.resultExtractor with
  | some f => f result
  | none => .ok (defaultExtract result)

abbrev Stream (α : Type) := Generator Frame SyncTask Raised α

/-- `yield sse_event(event, data)`. -/
def send (event : String) (data : Payload) : Stream Unit :=
  match sseEvent event data with
  | .ok frame => Generator.yield frame
  | .error text => Attempt.throw (.exception text)

/-- `async for frame in bridge.iter_sse(): yield frame`. -/
def iterSse : List Moment → Stream Unit
  | [] => Attempt.ret ()
  | .timeout :: moments => Attempt.bind (Generator.yield .keepalive) fun _ => iterSse moments
  | .item event data :: moments => Attempt.bind (send event data) fun _ => iterSse moments
  | .interrupted :: _ => Attempt.throw .cancelledError
  | .taskEnds :: moments =>
    Attempt.bind (Attempt.modify fun t => { t with done := true }) fun _ => iterSse moments

/-- `await sync_task`. -/
def awaitTask : Stream Payload :=
  Attempt.read fun t =>
    Attempt.bind (Attempt.modify fun t => { t with done := true }) fun _ =>
      match t.result with
      | .value result => Attempt.ret result
      | .raised text => Attempt.throw (.exception text)
      | .cancelled => Attempt.throw .cancelledError

/-- Cancel the task if it still runs and await it; what the clause around the await does not
catch is raised. -/
def stopTask (catches : Raised → Bool) : Stream Unit :=
  Attempt.read fun t =>
    if t.done then Attempt.ret ()
    else
      Attempt.bind (Attempt.modify fun t => { t with cancelled := true }) fun _ =>
        Attempt.handle (Attempt.bind awaitTask fun _ => Attempt.ret ()) fun e =>
          if catches e then Attempt.ret () else Attempt.throw e

def Stage.started (g : Stage) : Payload :=
  .dict [(.str "step", .str g.stepName), (.str "status", .str "started"),
    (.str "message", .str (orElse g.startedMessage ("Starting " ++ g.stepName ++
      " synchronization.")))]

def Stage.completed (g : Stage) (data : Payload) : Payload :=
  .dict [(.str "step", .str g.stepName), (.str "status", .str "completed"),
    (.str "message", .str (orElse g.completedMessage (g.stepName ++ " synchronization finished."))),
    (.str "result", data)]

def Stage.complete (g : Stage) (data : Payload) : Payload :=
  .dict [(.str "ok", .bool true),
    (.str "message", .str (orElse g.completedMessage (g.stepName ++ " sync completed."))),
    (.str "result", data)]

def Stage.error (g : Stage) (text : String) : Payload :=
  .dict [(.str "step", .str g.stepName), (.str "status", .str "failed"),
    (.str "error", .str text), (.str "detail", .str text)]

/-- The data of a `complete` event without success. -/
def incomplete (message detail : String) : Payload :=
  .dict [(.str "ok", .bool false), (.str "message", .str message),
    (.str "errors", .list [.dict [(.str "detail", .str detail)]] [])]

/-- The `try` block after the await of the task. -/
def report (g : Stage) (result : Payload) : Stream Unit :=
  match g.extract result with
  | .error text => Attempt.throw (.exception text)
  | .ok data =>
    Attempt.bind (send "step" (g.completed data)) fun _ => send "complete" (g.complete data)

/-- The `try` block. -/
def body (g : Stage) (moments : List Moment) : Stream Unit :=
  Attempt.bind (send "step" g.started) fun _ =>
  Attempt.bind (iterSse moments) fun _ => Attempt.bind awaitTask (report g)

/-- The `except` clauses: both of them catch a cancellation alone around their await. -/
def onRaised (g : Stage) : Raised → Stream Unit
  | .cancelledError =>
    let detail := "Server shutdown or request cancelled."
    Attempt.bind (stopTask (· == .cancelledError)) fun _ =>
    Attempt.bind (send "error" (g.error detail)) fun _ =>
      send "complete" (incomplete (g.stepName ++ " sync cancelled.") detail)
  | .exception text =>
    Attempt.bind (stopTask (· == .cancelledError)) fun _ =>
    Attempt.bind (send "error" (g.error text)) fun _ =>
      send "complete" (incomplete (orElse g.failedMessage (g.stepName ++ " sync failed.")) text)

def sseStreamGenerator (g : Stage) (moments : List Moment) : Stream Unit :=
  Attempt.ensure (Attempt.handle (body g moments) (onRaised g)) (stopTask fun _ => true)

/-- The frames of the events before the first one that has no frame. -/
def served : List Moment → List Frame
  | [] => []
  | .timeout :: moments => served moments
  | .item event data :: moments => match sseEvent event data with
    | .ok frame => frame :: served moments
    | .error _ => []
  | .interrupted :: _ => []
  | .taskEnds :: moments => served moments

/-- The events stop before `close`, at a moment when the sync task still runs. -/
def stopsRunning : List Moment → Bool
  | [] => false
  | .timeout :: moments => stopsRunning moments
  | .item event data :: moments => match sseEvent event data with
    | .ok _ => stopsRunning moments
    | .error _ => true
  | .interrupted :: _ => true
  | .taskEnds :: _ => false

/-- A consumer that reads to the end receives the frames served, one more of the stage and then
the one `complete` frame, which says ok only if the task returned a value. -/
def EndsWithVerdict (g : Stage) (moments : List Moment) (outcome cleanup : Outcome) : Prop :=
  ∃ first received own verdict t,
    Yields (sseStreamGenerator g moments) { outcome, cleanup }
      (first :: received ++ [own, verdict]) (.ok ()) t ∧
    sseEvent "step" g.started = .ok first ∧ received.filter Frame.isEvent = served moments ∧
    (∀ frame ∈ first :: received ++ [own], frame.isComplete = false) ∧
    verdict.isComplete = true ∧ (verdict.saysOk = true → ∃ result, outcome = .value result)

theorem sseEvent_started (g : Stage) :
    ∃ text, sseEvent "step" g.started = .ok (.event "step" g.started text) := ⟨_, rfl⟩

theorem sseEvent_error (g : Stage) (detail : String) :
    ∃ text, sseEvent "error" (g.error detail) = .ok (.event "error" (g.error detail) text) :=
  ⟨_, rfl⟩

theorem sseEvent_incomplete (message detail : String) :
    ∃ text, sseEvent "complete" (incomplete message detail) =
      .ok (.event "complete" (incomplete message detail) text) :=
  ⟨_, rfl⟩

/-- The two frames of a success differ in their texts alone, so they fail together. -/
theorem sseEvent_completed (g : Stage) (data : Payload) :
    (∃ plain text text', sseEvent "step" (g.completed data) =
        .ok (.event "step" (g.completed plain) text) ∧
      sseEvent "complete" (g.complete data) = .ok (.event "complete" (g.complete plain) text')) ∨
    ∃ error, sseEvent "step" (g.completed data) = .error error := by
  cases hplain : toSerializable data with
  | error error =>
    right
    refine ⟨error, ?_⟩
    simp only [sseEvent, Stage.completed, toSerializable, serializableFields, hplain, Bind.bind,
      Except.bind, Except.map]
  | ok plain =>
    cases htext : dumps plain with
    | error error =>
      right
      refine ⟨error, ?_⟩
      simp only [sseEvent, Stage.completed, toSerializable, serializableFields, hplain, dumps,
        dumpsFields, keyText, htext, Bind.bind, Except.bind, Except.map, Pure.pure, Except.pure]
    | ok text =>
      left
      have hstep : ∃ text', sseEvent "step" (g.completed data) =
          .ok (.event "step" (g.completed plain) text') := by
        simp only [sseEvent, Stage.completed, toSerializable, serializableFields, hplain, dumps,
          dumpsFields, keyText, htext, Bind.bind, Except.bind, Except.map, Pure.pure, Except.pure]
        exact ⟨_, rfl⟩
      have hcomplete : ∃ text', sseEvent "complete" (g.complete data) =
          .ok (.event "complete" (g.complete plain) text') := by
        simp only [sseEvent, Stage.complete, toSerializable, serializableFields, hplain, dumps,
          dumpsFields, keyText, htext, Bind.bind, Except.bind, Except.map, Pure.pure, Except.pure]
        exact ⟨_, rfl⟩
      obtain ⟨text', hstep⟩ := hstep
      obtain ⟨text'', hcomplete⟩ := hcomplete
      exact ⟨plain, text', text'', hstep, hcomplete⟩

theorem send_yields {event : String} {data : Payload} {frame : Frame} {t : SyncTask}
    (h : sseEvent event data = .ok frame) : Yields (send event data) t [frame] (.ok ()) t := by
  unfold send
  rw [h]
  exact Yields.yield

theorem send_raises {event error : String} {data : Payload} {t : SyncTask}
    (h : sseEvent event data = .error error) :
    Yields (send event data) t [] (.error (.exception error)) t := by
  unfold send
  rw [h]
  exact Yields.throw

theorem isEvent_of_sseEvent {event : String} {data : Payload} {frame : Frame}
    (h : sseEvent event data = .ok frame) : frame.isEvent = true := by
  unfold sseEvent at h
  cases hplain : toSerializable data with
  | error error => simp [hplain, Bind.bind, Except.bind] at h
  | ok plain =>
    cases htext : dumps plain with
    | error error => simp [hplain, htext, Bind.bind, Except.bind] at h
    | ok text =>
      simp only [hplain, htext, Bind.bind, Except.bind, Pure.pure, Except.pure,
        Except.ok.injEq] at h
      rw [← h]
      rfl

/-- What reading the queue leaves of a task that nobody has cancelled. -/
structure Read (moments : List Moment) (t : SyncTask) (received : List Frame)
    (r : Except Raised Unit) (t' : SyncTask) : Prop where
  frames : received.filter Frame.isEvent = served moments
  outcome : t'.outcome = t.outcome
  cleanup : t'.cleanup = t.cleanup
  cancelled : t'.cancelled = false
  closed : r = .ok () → stopsRunning moments = false
  stopped : ∀ e, r = .error e → (t'.done = true ↔ t.done = true ∨ stopsRunning moments = false)

theorem iterSse_yields (moments : List Moment) (t : SyncTask) (ht : t.cancelled = false) :
    ∃ received r t', Yields (iterSse moments) t received r t' ∧ Read moments t received r t' := by
  induction moments generalizing t with
  | nil => exact ⟨[], .ok (), t, Yields.ret, rfl, rfl, rfl, ht, fun _ => rfl, nofun⟩
  | cons moment moments ih =>
    cases moment with
    | timeout =>
      obtain ⟨received, r, t', hrun, hread⟩ := ih t ht
      exact ⟨.keepalive :: received, r, t', Yields.yield.bind hrun, hread.frames, hread.outcome,
        hread.cleanup, hread.cancelled, hread.closed, hread.stopped⟩
    | item event data =>
      cases hframe : sseEvent event data with
      | ok frame =>
        obtain ⟨received, r, t', hrun, hread⟩ := ih t ht
        have hstops : stopsRunning (.item event data :: moments) = stopsRunning moments := by
          simp only [stopsRunning, hframe]
        refine ⟨frame :: received, r, t', (send_yields hframe).bind hrun, ?_, hread.outcome,
          hread.cleanup, hread.cancelled, ?_, ?_⟩
        · rw [List.filter_cons_of_pos (isEvent_of_sseEvent hframe), hread.frames]
          simp only [served, hframe]
        · rw [hstops]
          exact hread.closed
        · rw [hstops]
          exact hread.stopped
      | error error =>
        refine ⟨[], _, t, (send_raises hframe).bind_error, ?_, rfl, rfl, ht, nofun, ?_⟩
        · simp only [served, hframe, List.filter_nil]
        · intro e _
          simp [stopsRunning, hframe]
    | interrupted =>
      refine ⟨[], _, t, Yields.throw, rfl, rfl, rfl, ht, nofun, ?_⟩
      intro e _
      simp [stopsRunning]
    | taskEnds =>
      obtain ⟨received, r, t', hrun, hread⟩ := ih { t with done := true } ht
      refine ⟨received, r, t', Yields.modify.bind hrun, hread.frames, hread.outcome,
        hread.cleanup, hread.cancelled, fun _ => rfl, ?_⟩
      intro e he
      have hdone := (hread.stopped e he).mpr (.inl rfl)
      simp [hdone, stopsRunning]

theorem awaitTask_yields (t : SyncTask) : Yields awaitTask t [] (match t.result with
      | .value result => .ok result
      | .raised text => .error (.exception text)
      | .cancelled => .error .cancelledError) { t with done := true } := by
  refine Yields.read (Yields.modify.bind ?_)
  cases t.result with
  | value result => exact Yields.ret
  | raised text => exact Yields.throw
  | cancelled => exact Yields.throw

/-- A task that has ended, or whose cleanup raises nothing but the cancellation, is stopped. -/
theorem stopTask_yields (catches : Raised → Bool) {t : SyncTask}
    (hcatches : catches .cancelledError = true)
    (h : t.done = false → ∀ text, t.cleanup ≠ .raised text) :
    ∃ t', Yields (stopTask catches) t [] (.ok ()) t' ∧ t'.done = true := by
  cases hdone : t.done with
  | true =>
    refine ⟨t, Yields.read ?_, hdone⟩
    rw [if_pos hdone]
    exact Yields.ret
  | false =>
    refine ⟨{ t with cancelled := true, done := true }, Yields.read ?_, rfl⟩
    rw [if_neg (by simp [hdone])]
    refine Yields.modify.bind ?_
    have hawait := awaitTask_yields { t with cancelled := true }
    cases hcleanup : t.cleanup with
    | value result =>
      simp only [SyncTask.result, if_true, hcleanup] at hawait
      have hrun := hawait.bind (f := fun _ => (Attempt.ret () : Stream Unit)) Yields.ret
      exact hrun.handle
    | raised text => exact absurd hcleanup (h hdone text)
    | cancelled =>
      simp only [SyncTask.result, if_true, hcleanup] at hawait
      refine hawait.bind_error.handle_error ?_
      rw [if_pos hcatches]
      exact Yields.ret

/-- What the cleanup of a running task raises is not caught. -/
theorem stopTask_raises (catches : Raised → Bool) {t : SyncTask} {text : String}
    (hcatches : catches (.exception text) = false) (hdone : t.done = false)
    (hcleanup : t.cleanup = .raised text) :
    ∃ t', Yields (stopTask catches) t [] (.error (.exception text)) t' ∧ t'.done = true := by
  refine ⟨{ t with cancelled := true, done := true }, Yields.read ?_, rfl⟩
  rw [if_neg (by simp [hdone])]
  refine Yields.modify.bind ?_
  have hawait := awaitTask_yields { t with cancelled := true }
  have hresult : SyncTask.result { t with cancelled := true } = .raised text := hcleanup
  rw [hresult] at hawait
  refine hawait.bind_error.handle_error ?_
  rw [if_neg (by simp [hcatches])]
  exact Yields.throw

theorem failed_yields (g : Stage) (text message detail : String) {t : SyncTask} :
    ∃ own verdict, Yields (Attempt.bind (send "error" (g.error text)) fun _ =>
        send "complete" (incomplete message detail)) t [own, verdict] (.ok ()) t ∧
      own.isComplete = false ∧ verdict.isComplete = true ∧ verdict.saysOk = false := by
  obtain ⟨_, hown⟩ := sseEvent_error g text
  obtain ⟨_, hverdict⟩ := sseEvent_incomplete message detail
  exact ⟨_, _, (send_yields hown).bind (send_yields hverdict), rfl, rfl, rfl⟩

/-- A clause that can stop the task sends the error and the verdict. -/
theorem onRaised_yields (g : Stage) (e : Raised) {t : SyncTask}
    (h : t.done = false → ∀ text, t.cleanup ≠ .raised text) :
    ∃ own verdict t', Yields (onRaised g e) t [own, verdict] (.ok ()) t' ∧ t'.done = true ∧
      own.isComplete = false ∧ verdict.isComplete = true ∧ verdict.saysOk = false := by
  obtain ⟨t', hstop, hdone⟩ :=
    stopTask_yields (· == .cancelledError) (by decide) h
  cases e with
  | cancelledError =>
    obtain ⟨own, verdict, hrun, hframes⟩ := failed_yields g "Server shutdown or request cancelled."
      (g.stepName ++ " sync cancelled.") "Server shutdown or request cancelled." (t := t')
    exact ⟨own, verdict, t', hstop.bind hrun, hdone, hframes⟩
  | exception text =>
    obtain ⟨own, verdict, hrun, hframes⟩ := failed_yields g text
      (orElse g.failedMessage (g.stepName ++ " sync failed.")) text (t := t')
    exact ⟨own, verdict, t', hstop.bind hrun, hdone, hframes⟩

/-- A clause whose await of the cancelled task raises sends nothing. -/
theorem onRaised_raises (g : Stage) (e : Raised) {t : SyncTask} {text : String}
    (hdone : t.done = false) (hcleanup : t.cleanup = .raised text) :
    ∃ t', Yields (onRaised g e) t [] (.error (.exception text)) t' ∧ t'.done = true := by
  obtain ⟨t', hstop, hdone'⟩ :=
    stopTask_raises (· == .cancelledError) (by simp) hdone hcleanup
  cases e with
  | cancelledError => exact ⟨t', hstop.bind_error, hdone'⟩
  | exception text => exact ⟨t', hstop.bind_error, hdone'⟩

/-- How the `try` block ends: with the two frames of a success, or by an exception after what was
read. -/
inductive Tried (moments : List Moment) (t : SyncTask) (received : List Frame) :
    List Frame → Except Raised Unit → SyncTask → Prop where
  | success (own verdict : Frame) (result : Payload) (t' : SyncTask)
    (hclosed : stopsRunning moments = false) (houtcome : t.outcome = .value result)
    (hdone : t'.done = true) (hown : own.isComplete = false)
    (hverdict : verdict.isComplete = true) :
    Tried moments t received (received ++ [own, verdict]) (.ok ()) t'
  | failure (e : Raised) (t' : SyncTask) (hcleanup : t'.cleanup = t.cleanup)
    (hdone : t'.done = true ↔ stopsRunning moments = false) :
    Tried moments t received received (.error e) t'

/-- The report of a result is its two frames, or an exception before the first of them. -/
theorem report_yields (g : Stage) (result : Payload) (t : SyncTask) :
    (∃ own verdict, Yields (report g result) t [own, verdict] (.ok ()) t ∧
      own.isComplete = false ∧ verdict.isComplete = true) ∨
    ∃ e, Yields (report g result) t [] (.error e) t := by
  unfold report
  cases g.extract result with
  | error text => exact .inr ⟨_, Yields.throw⟩
  | ok data =>
    rcases sseEvent_completed g data with ⟨_, _, _, hown, hverdict⟩ | ⟨_, herror⟩
    · exact .inl ⟨_, _, (send_yields hown).bind (send_yields hverdict), rfl, rfl⟩
    · exact .inr ⟨_, (send_raises herror).bind_error⟩

/-- The end of the `try` block, once the queue is closed. -/
theorem close_yields (g : Stage) {t : SyncTask} :
    (∃ own verdict result, Yields (Attempt.bind awaitTask (report g)) t [own, verdict] (.ok ())
        { t with done := true } ∧ t.result = .value result ∧ own.isComplete = false ∧
      verdict.isComplete = true) ∨
    ∃ e, Yields (Attempt.bind awaitTask (report g)) t [] (.error e) { t with done := true } := by
  have hawait := awaitTask_yields t
  cases hresult : t.result with
  | raised text =>
    rw [hresult] at hawait
    exact .inr ⟨_, hawait.bind_error⟩
  | cancelled =>
    rw [hresult] at hawait
    exact .inr ⟨_, hawait.bind_error⟩
  | value result =>
    rw [hresult] at hawait
    rcases report_yields g result { t with done := true } with ⟨own, verdict, hrun, hframes⟩ |
      ⟨e, hrun⟩
    · exact .inl ⟨own, verdict, result, hawait.bind hrun, rfl, hframes⟩
    · exact .inr ⟨e, hawait.bind hrun⟩

theorem body_yields (g : Stage) (moments : List Moment) {t : SyncTask}
    (hcancelled : t.cancelled = false) (hdone : t.done = false) :
    ∃ first received frames r t', sseEvent "step" g.started = .ok first ∧
      first.isComplete = false ∧ received.filter Frame.isEvent = served moments ∧
      Yields (body g moments) t (first :: frames) r t' ∧ Tried moments t received frames r t' := by
  obtain ⟨_, hfirst⟩ := sseEvent_started g
  obtain ⟨received, r, t₁, hrun, hread⟩ := iterSse_yields moments t hcancelled
  cases r with
  | error e =>
    have hstopped := hread.stopped e rfl
    refine ⟨_, received, _, .error e, t₁, hfirst, rfl, hread.frames,
      (send_yields hfirst).bind hrun.bind_error, .failure e t₁ hread.cleanup ?_⟩
    simpa [hdone] using hstopped
  | ok a =>
    have hclosed := hread.closed rfl
    rcases close_yields g (t := t₁) with ⟨own, verdict, result, hclose, hresult, hframes⟩ |
      ⟨e, hclose⟩
    · have houtcome : t.outcome = .value result := by
        rw [← hread.outcome, ← hresult, SyncTask.result, hread.cancelled]
        rfl
      exact ⟨_, received, _, _, _, hfirst, rfl, hread.frames,
        (send_yields hfirst).bind (hrun.bind hclose),
        .success own verdict result _ hclosed houtcome rfl hframes.1 hframes.2⟩
    · -- an exception from here on meets a task that has ended
      have hall := hrun.bind (f := fun _ => Attempt.bind awaitTask (report g)) hclose
      rw [List.append_nil] at hall
      exact ⟨_, received, _, _, _, hfirst, rfl, hread.frames, (send_yields hfirst).bind hall,
        .failure e _ hread.cleanup ⟨fun _ => hclosed, fun _ => rfl⟩⟩

/-- The stream of a stage whose task can be stopped where its events stop. -/
theorem stream_yields (g : Stage) {moments : List Moment} (outcome : Outcome) {cleanup : Outcome}
    (h : stopsRunning moments = true → ∀ text, cleanup ≠ .raised text) :
    ∃ first received own verdict t,
      Yields (sseStreamGenerator g moments) { outcome, cleanup }
        (first :: received ++ [own, verdict]) (.ok ()) t ∧
      sseEvent "step" g.started = .ok first ∧ first.isComplete = false ∧
      received.filter Frame.isEvent = served moments ∧ own.isComplete = false ∧
      verdict.isComplete = true ∧ (verdict.saysOk = true → ∃ result, outcome = .value result) := by
  obtain ⟨first, received, frames, r, t, hfirst, hstep, hserved, hbody, htried⟩ :=
    body_yields g moments (t := { outcome, cleanup }) rfl rfl
  have hfinally : ∀ t : SyncTask, t.done = true →
      Yields (stopTask fun _ => true) t [] (.ok ()) t := by
    intro t hdone
    refine Yields.read ?_
    rw [if_pos hdone]
    exact Yields.ret
  cases htried with
  | success own verdict result t hclosed houtcome hdone hown hverdict =>
    have hall := (hbody.handle (h := onRaised g)).ensure (hfinally t hdone)
    rw [List.append_nil] at hall
    exact ⟨first, received, own, verdict, t, hall, hfirst, hstep, hserved, hown, hverdict,
      fun _ => ⟨result, houtcome⟩⟩
  | failure e t hcleanup hdone =>
    have hstop : t.done = false → ∀ text, t.cleanup ≠ .raised text := by
      intro hrunning
      rw [hcleanup]
      apply h
      by_contra hne
      have htrue := hdone.mpr (by simpa using hne)
      rw [hrunning] at htrue
      cases htrue
    obtain ⟨own, verdict, t', hraised, hdone', hown, hverdict, hok⟩ := onRaised_yields g e hstop
    have hall := (hbody.handle_error hraised).ensure (hfinally t' hdone')
    rw [List.append_nil] at hall
    exact ⟨first, received, own, verdict, t', hall, hfirst, hstep, hserved, hown, hverdict,
      fun h => by simp [hok] at h⟩

/-- The stream of a stage whose task cannot be stopped where its events stop: the exception of its
cleanup leaves the generator before the verdict. -/
theorem stream_raises (g : Stage) {moments : List Moment} (outcome : Outcome) (text : String)
    (h : stopsRunning moments = true) :
    ∃ frames t, Yields (sseStreamGenerator g moments) { outcome, cleanup := .raised text } frames
      (.error (.exception text)) t := by
  obtain ⟨first, received, frames, r, t, -, -, -, hbody, htried⟩ :=
    body_yields g moments (t := { outcome, cleanup := .raised text }) rfl rfl
  cases htried with
  | success own verdict result t hclosed => simp [h] at hclosed
  | failure e t hcleanup hdone =>
    have hrunning : t.done = false := by
      by_contra hne
      have hfalse := hdone.mp (by simpa using hne)
      simp [h] at hfalse
    obtain ⟨t', hraised, hdone'⟩ := onRaised_raises g e hrunning hcleanup
    have hfinally : Yields (stopTask fun _ => true) t' [] (.ok ()) t' := by
      refine Yields.read ?_
      rw [if_pos hdone']
      exact Yields.ret
    exact ⟨_, t', (hbody.handle_error hraised).ensure hfinally⟩

/-- A stream ends with its one verdict exactly if no event served is named `complete` and the
events do not stop on a running task whose cleanup raises an exception. -/
theorem endsWithVerdict_iff (g : Stage) (moments : List Moment) (outcome cleanup : Outcome) :
    EndsWithVerdict g moments outcome cleanup ↔
      (∀ frame ∈ served moments, frame.isComplete = false) ∧
        (stopsRunning moments = true → ∀ text, cleanup ≠ .raised text) := by
  constructor
  · intro ⟨first, received, own, verdict, t, hrun, _, hserved, hframes, _⟩
    constructor
    · intro frame hframe
      rw [← hserved] at hframe
      apply hframes
      rw [List.cons_append, List.mem_cons, List.mem_append]
      exact .inr (.inl (List.mem_of_mem_filter hframe))
    · intro hstops text hcleanup
      rw [hcleanup] at hrun
      obtain ⟨frames, t', hraises⟩ := stream_raises g outcome text hstops
      have hsame := (hrun.unique hraises).2.1
      cases hsame
  · intro ⟨hserved, hstop⟩
    obtain ⟨first, received, own, verdict, t, hrun, hfirst, hstep, hfilter, hown, hverdict, hok⟩ :=
      stream_yields g outcome hstop
    refine ⟨first, received, own, verdict, t, hrun, hfirst, hfilter, ?_, hverdict, hok⟩
    intro frame hframe
    rw [List.cons_append, List.mem_cons, List.mem_append, List.mem_singleton] at hframe
    rcases hframe with rfl | hframe | rfl
    · exact hstep
    · cases hevent : frame.isEvent with
      | true =>
        apply hserved
        rw [← hfilter]
        exact List.mem_filter.mpr ⟨hframe, hevent⟩
      | false =>
        cases frame with
        | keepalive => rfl
        | event => cases hevent
    · exact hown

/-- An event of a running task cannot be serialised and the task raises while it is cancelled: no
verdict is sent. -/
theorem no_verdict_of_cleanup :
    ¬ EndsWithVerdict { stepName := "devices" }
      [.item "step" (.dict [(.str "payload", .other "set")])] (.value (.list [] []))
      (.raised "session is closed") := by
  intro ⟨first, received, own, verdict, t, hrun, _⟩
  have hstops : stopsRunning [.item "step" (.dict [(.str "payload", .other "set")])] = true := rfl
  obtain ⟨frames, t', hraises⟩ := stream_raises { stepName := "devices" } (.value (.list [] []))
    "session is closed" hstops
  have hsame := (hrun.unique hraises).2.1
  cases hsame

end ProxboxApi.SseStream
