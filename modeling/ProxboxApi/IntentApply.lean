import ProxboxApi.FirewallWrites
import ProxboxApi.Outcomes

/-! The route that applies the diffs of an intent one after another, and what its answer tells of
the diffs that were dispatched. -/

namespace ProxboxApi.Intent

open Requests
open Verbs (Exn Endpoint)
open Firewall (FirewallIntentPayload isHttp)

inductive DiffOp where
  | create
  | update
  | delete
  deriving DecidableEq, Repr

inductive DiffKind where
  | qemu
  | lxc
  | firewall
  deriving DecidableEq, Repr

/-- `VMIntentPayload`; `dumped` is its `model_dump`. -/
structure VMIntentPayload where
  vmid : ℤ
  node : String
  name : Option String
  templateVmid : Option ℤ
  dumped : Json.Fields

/-- `LXCIntentPayload`. -/
structure LXCIntentPayload where
  vmid : ℤ
  node : String
  hostname : Option String
  ostemplate : Option String
  dumped : Json.Fields

inductive DiffPayload where
  | vm (payload : VMIntentPayload)
  | lxc (payload : LXCIntentPayload)
  | firewall (payload : FirewallIntentPayload)

structure ApplyDiff where
  op : DiffOp
  kind : DiffKind
  netboxId : Option ℤ
  payload : DiffPayload

structure ApplyRequest where
  actor : Option String
  runUuid : String
  diffs : List ApplyDiff

/-- An `ApplyResultItem` with what it repeats of the diff. -/
structure ResultItem where
  netboxId : Option ℤ
  vmid : ℤ
  op : DiffOp
  kind : DiffKind
  item : ApplyResultItem

/-- The `overall` of a response; `mixed` is `partial`. -/
inductive Overall where
  | noOp
  | succeeded
  | failed
  | mixed
  deriving DecidableEq, Repr

structure ApplyResponse where
  runUuid : String
  overall : Overall
  results : List ResultItem

/-- What `apply_intent` returns. -/
inductive Answer where
  | response (response : ApplyResponse)
  | writesDisabled (reason message : Option String)

/-- `_overall`. -/
def overall (results : List ResultItem) : Overall :=
  if results = [] then .noOp
  else if results.all fun r => ["succeeded", "skipped"].contains r.item.status then .succeeded
  else if results.all fun r => r.item.status = "failed" then .failed
  else .mixed

/-- `_vmid`. -/
def ApplyDiff.vmid (diff : ApplyDiff) : ℤ :=
  match diff.payload with
  | .vm payload => payload.vmid
  | .lxc payload => payload.vmid
  | .firewall payload => orInt payload.vmid 0

/-- The vmid of a result: a payload that `apply_firewall_diff` refuses has none. -/
def ApplyDiff.reportedVmid (diff : ApplyDiff) : ℤ :=
  match diff.kind, diff.payload with
  | .firewall, .vm _ => 0
  | .firewall, .lxc _ => 0
  | _, _ => diff.vmid

def ApplyDiff.result (diff : ApplyDiff) (item : ApplyResultItem) : ResultItem :=
  ⟨diff.netboxId, diff.reportedVmid, diff.op, diff.kind, item⟩

/-- The requests of the dispatchers of guests and of the firewall. -/
inductive Query where
  | guest (q : Request)
  | firewall (q : Firewall.Request)

abbrev Response : Query → Type
  | .guest q => Reply q
  | .firewall q => Firewall.Reply q

abbrev Apply (α : Type) := Prog Query Response (Except Exn α)

def guest {α : Type} (p : Dispatch α) : Apply α := p.via .guest fun _ reply => reply

def firewall {α : Type} (p : Firewall.Write α) : Apply α := p.via .firewall fun _ reply => reply

/-- `scrub_message` alone and with a payload, what the create dispatchers send and the update
dispatchers change, and the settings. -/
structure Services where
  py : Python
  scrub : String → String
  scrubPayload : DiffPayload → String → String
  scrubRequest : ApplyRequest → String → String
  qemuParams : VMIntentPayload → Except Exn Json.Fields
  lxcParams : LXCIntentPayload → Except Exn Json.Fields
  qemuDelta : VMIntentPayload → Json.Fields → Except Exn Json.Fields
  lxcDelta : LXCIntentPayload → Json.Fields → Except Exn Json.Fields
  exposeInternalErrors : Bool

variable (services : Services) (body : ApplyRequest) (endpointId : Option ℤ)

/-- `_payload_failure`. -/
def payloadFailure (message : String) : ApplyResultItem := failedItem none message

def invocation (diff : ApplyDiff) (node : String) : Invocation :=
  ⟨⟨endpointId, diff.netboxId⟩, diff.vmid, node, body.actor, body.runUuid⟩

/-- The body of the loop but its early return: the item of a diff. -/
def dispatchItem (diff : ApplyDiff) : Apply ApplyResultItem :=
  let invoke := invocation body endpointId diff
  let scrubPayload := services.scrubPayload diff.payload
  let done (item : ApplyResultItem) : Apply ApplyResultItem := .ret (.ok item)
  match diff.kind, diff.op, diff.payload with
  | .firewall, _, .firewall payload =>
    firewall (Firewall.applyFirewallDiff services.py scrubPayload payload endpointId body.actor)
  | .firewall, _, _ => done
      ⟨"failed", some "invalid_firewall_payload",
        some "firewall apply requires FirewallIntentPayload", none⟩
  | .qemu, .create, .vm payload =>
    guest (dispatchQemuCreate services.scrub scrubPayload payload.name payload.templateVmid
      (services.qemuParams payload) (invoke payload.node))
  | .qemu, .create, _ => done (payloadFailure "qemu create payload requires VMIntentPayload")
  | .lxc, .create, .lxc payload =>
    guest (dispatchLxcCreate services.scrub scrubPayload payload.hostname payload.ostemplate
      (services.lxcParams payload) (invoke payload.node))
  | .lxc, .create, _ => done (payloadFailure "lxc create payload requires LXCIntentPayload")
  | .qemu, .update, .vm payload =>
    guest (dispatchQemuUpdate services.scrub scrubPayload (services.qemuDelta payload)
      (invoke payload.node))
  | .qemu, .update, _ => done (payloadFailure "qemu update payload requires VMIntentPayload")
  | .lxc, .update, .lxc payload =>
    guest (dispatchLxcUpdate services.scrub scrubPayload (services.lxcDelta payload)
      (invoke payload.node))
  | .lxc, .update, _ => done (payloadFailure "lxc update payload requires LXCIntentPayload")
  | _, .delete, _ => done ⟨"not_implemented", none,
      some "DELETE goes through DeletionRequest (Sub-PRs H/I, #385/#386)", none⟩

/-- The test of the early return. -/
def refusedUpdate (diff : ApplyDiff) (item : ApplyResultItem) : Bool :=
  diff.kind ≠ .firewall && diff.op = .update && item.reason = some "writes_disabled_for_endpoint"

/-- The loop over the diffs, with the results so far. -/
def applyDiffs : List ApplyDiff → List ResultItem → Apply Answer
  | [], results => .ret (.ok (.response ⟨body.runUuid, overall results, results⟩))
  | diff :: diffs, results =>
    Prog.andThen (dispatchItem services body endpointId diff) fun item =>
      if refusedUpdate diff item then .ret (.ok (.writesDisabled item.reason item.message))
      else applyDiffs diffs (results ++ [diff.result item])

/-- `_write_apply_failure_journal`. -/
def writeApplyFailureJournal (errorDetail : String) : Apply Unit :=
  guest (writeIntentJournal services.scrub ⟨⟨endpointId, none⟩, 0, "", body.actor, body.runUuid⟩
    none "intent_apply" "failed" .warning none (some errorDetail))

/-- `apply_intent`. -/
def applyIntent : Apply Answer :=
  Prog.rescue (applyDiffs services body endpointId body.diffs []) fun e =>
    if e.isException ∧ !isHttp e then
      let safeError := services.scrubRequest body e.message
      Prog.andThen (writeApplyFailureJournal services body endpointId safeError) fun _ =>
        .ret (.error (httpException
          (if services.exposeInternalErrors then safeError else "internal_error")))
    else .ret (.error e)

/-- A POST, PUT or DELETE to Proxmox. -/
def Query.mutates : Query → Bool
  | .guest (.createGuest _) | .guest (.putConfig _) | .guest (.destroyGuest _ _ _) => true
  | .firewall (.write _ _ _) => true
  | _ => false

abbrev Exchange := Prog.Exchange Query Response

/-- The dispatch of a diff: its exchanges and its item, or the exception that left it. -/
structure Dispatched where
  diff : ApplyDiff
  log : List Exchange
  result : Except Exn ApplyResultItem

namespace Dispatched

/-- A mutation was issued to Proxmox for the diff. -/
def Mutates (d : Dispatched) : Prop := ∃ x ∈ d.log, x.1.mutates = true

/-- The gate was closed to the diff: there is no endpoint id, or the first read of the endpoint
showed no endpoint that is open to writes. -/
def GateClosed (endpointId : Option ℤ) (d : Dispatched) : Prop :=
  endpointId = none ∨ ∃ id endpoint rest,
    d.log = ⟨.guest (.endpoint id), .ok endpoint⟩ :: rest ∧
      ∀ e ∈ endpoint, e.allowWrites = false

/-- The payload is of the kind of the diff. -/
def Fits (d : Dispatched) : Prop :=
  match d.diff.kind, d.diff.payload with
  | .qemu, .vm _ | .lxc, .lxc _ | .firewall, .firewall _ => True
  | _, _ => False

/-- The loop goes on after the diff: no exception left its dispatcher, and if the diff updates a
guest its gate was open. -/
def Settles (endpointId : Option ℤ) (d : Dispatched) : Prop :=
  (∃ item, d.result = .ok item) ∧
    (d.diff.kind ≠ .firewall → d.diff.op = .update → d.Fits → ¬ d.GateClosed endpointId)

end Dispatched

/-- The dispatches of an application: of each diff in turn, to the last or to one at which the
loop ends. -/
inductive Dispatches : List ApplyDiff → List Dispatched → Prop where
  | nil : Dispatches [] []
  | stop {d : Dispatched} {diffs : List ApplyDiff}
      (hrun : Prog.Runs (dispatchItem services body endpointId d.diff) d.log d.result)
      (hstop : ¬ d.Settles endpointId) : Dispatches (d.diff :: diffs) [d]
  | next {d : Dispatched} {diffs : List ApplyDiff} {ds : List Dispatched}
      (hrun : Prog.Runs (dispatchItem services body endpointId d.diff) d.log d.result)
      (hnext : d.Settles endpointId) (h : Dispatches diffs ds) : Dispatches (d.diff :: diffs) (d :: ds)

/-- The answer tells of every diff of the request, in its order, what its dispatch came to. -/
def Reports (ds : List Dispatched) (answer : Except Exn Answer) : Prop :=
  ds.map (·.diff) = body.diffs ∧
    ∃ r, answer = .ok (.response r) ∧
      List.Forall₂ (fun d item => ∃ i, d.result = .ok i ∧ item = d.diff.result i) ds r.results

/-- No diff for which a mutation was issued is missing from the answer. -/
def ReportsMutations (ds : List Dispatched) (answer : Except Exn Answer) : Prop :=
  ∀ d ∈ ds, d.Mutates → ∃ r, answer = .ok (.response r) ∧
    ∃ i, d.result = .ok i ∧ d.diff.result i ∈ r.results

section Dispatchers

open Dispatch

variable {α β : Type}

/-- What holds of every value that a program returns. -/
def Yields (P : α → Prop) (p : Dispatch α) : Prop := ∀ log a, Prog.Runs p log (.ok a) → P a

theorem yields_pure {P : α → Prop} {a : α} (h : P a) : Yields P (pure a) := by
  intro log b hruns
  cases hruns
  exact h

theorem yields_bind {P : β → Prop} {p : Dispatch α} {f : α → Dispatch β}
    (hf : ∀ a, Yields P (f a)) : Yields P (p.bind f) := by
  intro log b hruns
  obtain ⟨first, r, rest, -, -, hrest⟩ := Prog.runs_bind hruns
  cases r with
  | ok a => exact hf a rest b hrest
  | error e => cases hrest

theorem yields_attempt {P : β → Prop} {R : α → Prop} {p : Dispatch α} {handler : Exn → Dispatch β}
    {f : α → Dispatch β} (hp : Yields R p) (hh : ∀ e, Yields P (handler e))
    (hf : ∀ a, R a → Yields P (f a)) : Yields P (attempt p handler f) := by
  intro log b hruns
  obtain ⟨first, r, rest, -, hfirst, hrest⟩ := Prog.runs_bind hruns
  cases r with
  | ok a => exact hf a (hp first a hfirst) rest b hrest
  | error e =>
    dsimp only at hrest
    split_ifs at hrest
    · exact hh e rest b hrest
    · cases hrest

variable {services body endpointId} {scrub : String → String}

/-- An item that is not the refusal of a closed gate. -/
def Open (item : ApplyResultItem) : Prop := item.reason ≠ some "writes_disabled_for_endpoint"

theorem yields_failUpdate {P : ApplyResultItem → Prop} {u : UpdateKind} {inv : Invocation}
    {endpoint : Option Endpoint} {message : String} {reason : Option String}
    (h : P (failedItem reason message)) :
    Yields P (failUpdate scrub u inv endpoint message reason) :=
  yields_bind fun _ => yields_pure h

/-- Past an open gate no item of an update is the refusal of a closed one. -/
theorem yields_tryUpdate {u : UpdateKind} {delta : Json.Fields → Except Exn Json.Fields}
    {inv : Invocation} {endpoint : Endpoint} :
    Yields (fun r => ∀ item, r = .inl item → Open item)
      (tryUpdate scrub u delta inv endpoint) := by
  have wrapped {p : Dispatch ApplyResultItem} (hp : Yields Open p) :
      Yields (fun r => ∀ item, r = .inl item → Open item)
        (p.bind fun item => pure (.inl item : ApplyResultItem ⊕ Option String × Json.Fields)) := by
    intro log r hruns
    obtain ⟨first, a, rest, -, hfirst, hrest⟩ := Prog.runs_bind hruns
    cases a with
    | ok item =>
      cases hrest
      intro item' hitem
      cases hitem
      exact hp first item hfirst
    | error e => cases hrest
  unfold tryUpdate
  refine yields_bind fun _ => yields_bind fun guests => ?_
  split_ifs with hfound
  · refine yields_bind fun resources => wrapped (yields_failUpdate ?_)
    simp [Open, failedItem]
  · refine yields_bind fun current => yields_bind fun changes => ?_
    split_ifs with hempty
    · refine yields_bind fun _ => yields_pure ?_
      intro item hitem
      cases hitem
      simp [Open]
    · refine yields_bind fun status => ?_
      split_ifs with hstop
      · refine wrapped (yields_failUpdate ?_)
        simp [Open, failedItem]
      · refine yields_bind fun upid => yields_pure ?_
        intro item hitem
        cases hitem

/-- The gate, and what it read of the endpoint. -/
theorem runs_gate {id : Option ℤ} {log : List (Prog.Exchange Request Reply)}
    {r : Except Exn (Except String Endpoint)} (h : Prog.Runs (gate id) log r) :
    (id = none ∧ log = [] ∧ ∃ reason, r = .ok (.error reason)) ∨
    ∃ i, id = some i ∧
      ((∃ e, log = [⟨.endpoint i, .error e⟩] ∧ r = .error e) ∨
        (∃ endpoint, log = [⟨.endpoint i, .ok endpoint⟩] ∧
          (∀ e ∈ endpoint, e.allowWrites = false) ∧ ∃ reason, r = .ok (.error reason)) ∨
        ∃ endpoint, log = [⟨.endpoint i, .ok (some endpoint)⟩] ∧ endpoint.allowWrites = true ∧
          r = .ok (.ok endpoint)) := by
  cases id with
  | none =>
    cases h
    exact .inl ⟨rfl, rfl, _, rfl⟩
  | some i =>
    refine .inr ⟨i, rfl, ?_⟩
    cases h with
    | ask reply h =>
      match reply, h with
      | .error e, h =>
        cases h
        exact .inl ⟨e, rfl, rfl⟩
      | .ok none, h =>
        cases h
        exact .inr (.inl ⟨none, rfl, by simp, _, rfl⟩)
      | .ok (some endpoint), h =>
        have hchoice : Prog.Runs (if endpoint.allowWrites then pure (.ok endpoint)
          else pure (.error "endpoint_writes_disabled")) _ r := h
        cases hallow : endpoint.allowWrites with
        | true =>
          rw [hallow] at hchoice
          cases hchoice
          exact .inr (.inr ⟨endpoint, rfl, hallow, rfl⟩)
        | false =>
          rw [hallow] at hchoice
          cases hchoice
          refine .inr (.inl ⟨some endpoint, rfl, ?_, _, rfl⟩)
          intro e he
          cases he
          exact hallow

/-- The update dispatchers refuse for a closed gate, and only then. -/
theorem dispatchUpdate_refused_iff {u : UpdateKind} {scrubPayload : String → String}
    {delta : Json.Fields → Except Exn Json.Fields} {inv : Invocation}
    {log : List (Prog.Exchange Request Reply)} {item : ApplyResultItem}
    (h : Prog.Runs (dispatchUpdate scrub u scrubPayload delta inv) log (.ok item)) :
    item.reason = some "writes_disabled_for_endpoint" ↔
      inv.context.endpointId = none ∨ ∃ id endpoint rest,
        log = ⟨.endpoint id, .ok endpoint⟩ :: rest ∧ ∀ e ∈ endpoint, e.allowWrites = false := by
  obtain ⟨first, r, rest, rfl, hgate, hrest⟩ := Prog.runs_bind h
  have refused : (∃ reason, r = .ok (.error reason)) →
      item.reason = some "writes_disabled_for_endpoint" := by
    rintro ⟨reason, rfl⟩
    exact yields_failUpdate (P := fun i => i.reason = some "writes_disabled_for_endpoint") rfl
      rest item hrest
  rcases runs_gate hgate with ⟨hid, -, hr⟩ | ⟨i, hid, ⟨e, -, rfl⟩ | ⟨endpoint, rfl, hclosed, hr⟩ |
    ⟨endpoint, rfl, hallow, rfl⟩⟩
  · exact iff_of_true (refused hr) (.inl hid)
  · cases hrest
  · exact iff_of_true (refused hr) (.inr ⟨i, endpoint, rest, rfl, hclosed⟩)
  · have hopen : Open item := by
      refine yields_attempt yields_tryUpdate (fun e => yields_failUpdate ?_) (fun a ha => ?_) rest
        item hrest
      · simp [Open, failedItem]
      · rcases a with i | ⟨upid, changes⟩
        · exact yields_pure (ha i rfl)
        · refine yields_bind fun _ => yields_pure ?_
          simp [Open]
    refine iff_of_false hopen ?_
    rintro (hnone | ⟨id, e, rest', hlog, hclosed⟩)
    · rw [hid] at hnone
      cases hnone
    · obtain ⟨hx, -⟩ := List.cons.inj hlog
      cases hx
      rw [hclosed endpoint rfl] at hallow
      cases hallow

theorem runs_guest {p : Dispatch α} {log : List Exchange} {r : Except Exn α}
    (h : Prog.Runs (guest p) log r) :
    ∃ log' : List (Prog.Exchange Request Reply), Prog.Runs p log' r ∧
      log = log'.map fun x => ⟨.guest x.1, x.2⟩ := by
  unfold guest at h
  induction p generalizing log with
  | ret a =>
    cases h
    exact ⟨[], .ret _, rfl⟩
  | ask q next ih =>
    cases h with
    | ask reply h =>
      obtain ⟨log', hruns, rfl⟩ := ih reply h
      have hask : Prog.Runs (.ask q next) (⟨q, reply⟩ :: log') r := by
        constructor
        exact hruns
      exact ⟨⟨q, reply⟩ :: log', hask, rfl⟩

/-- The early return is for a closed gate of an update, and only for that. -/
theorem refusedUpdate_iff {d : Dispatched} {item : ApplyResultItem}
    (hrun : Prog.Runs (dispatchItem services body endpointId d.diff) d.log d.result)
    (hitem : d.result = .ok item) :
    refusedUpdate d.diff item = true ↔
      d.diff.kind ≠ .firewall ∧ d.diff.op = .update ∧ d.Fits ∧ d.GateClosed endpointId := by
  obtain ⟨⟨op, kind, netboxId, payload⟩, log, result⟩ := d
  dsimp only at hrun hitem ⊢
  subst hitem
  -- An update by its dispatcher, whose requests are those of the guest.
  have updates {u : UpdateKind} {scrubPayload : String → String}
      {delta : Json.Fields → Except Exn Json.Fields} {inv : Invocation}
      (hinv : inv.context.endpointId = endpointId)
      (hupdate : Prog.Runs (guest (dispatchUpdate services.scrub u scrubPayload delta inv)) log
        (.ok item)) :
      item.reason = some "writes_disabled_for_endpoint" ↔
        (⟨⟨op, kind, netboxId, payload⟩, log, .ok item⟩ : Dispatched).GateClosed endpointId := by
    obtain ⟨log', hruns, rfl⟩ := runs_guest hupdate
    rw [dispatchUpdate_refused_iff hruns, hinv]
    apply or_congr_right
    constructor
    · rintro ⟨id, endpoint, rest, rfl, hclosed⟩
      exact ⟨id, endpoint, _, rfl, hclosed⟩
    · rintro ⟨id, endpoint, rest, hlog, hclosed⟩
      cases log' with
      | nil => cases hlog
      | cons x log' =>
        obtain ⟨q, reply⟩ := x
        cases hlog
        exact ⟨id, endpoint, log', rfl, hclosed⟩
  cases kind with
  | firewall => simp [refusedUpdate]
  | qemu =>
    cases op with
    | create => simp [refusedUpdate]
    | delete => simp [refusedUpdate]
    | update =>
      cases payload with
      | vm payload => simpa [refusedUpdate, Dispatched.Fits] using updates rfl hrun
      | lxc payload =>
        cases hrun
        simp [refusedUpdate, Dispatched.Fits, payloadFailure, failedItem]
      | firewall payload =>
        cases hrun
        simp [refusedUpdate, Dispatched.Fits, payloadFailure, failedItem]
  | lxc =>
    cases op with
    | create => simp [refusedUpdate]
    | delete => simp [refusedUpdate]
    | update =>
      cases payload with
      | lxc payload => simpa [refusedUpdate, Dispatched.Fits] using updates rfl hrun
      | vm payload =>
        cases hrun
        simp [refusedUpdate, Dispatched.Fits, payloadFailure, failedItem]
      | firewall payload =>
        cases hrun
        simp [refusedUpdate, Dispatched.Fits, payloadFailure, failedItem]

theorem settles_iff {d : Dispatched} {item : ApplyResultItem}
    (hrun : Prog.Runs (dispatchItem services body endpointId d.diff) d.log d.result)
    (hitem : d.result = .ok item) :
    d.Settles endpointId ↔ refusedUpdate d.diff item = false := by
  rw [← Bool.not_eq_true, refusedUpdate_iff hrun hitem]
  unfold Dispatched.Settles
  constructor
  · rintro ⟨-, hopen⟩ ⟨hkind, hop, hfits, hclosed⟩
    exact hopen hkind hop hfits hclosed
  · intro h
    refine ⟨⟨item, hitem⟩, ?_⟩
    intro hkind hop hfits hclosed
    exact h ⟨hkind, hop, hfits, hclosed⟩

/-- Every diff was dispatched and settled, and the response has their items; or one ended the
loop, and there is no response. -/
theorem applyDiffs_runs {diffs : List ApplyDiff} {results : List ResultItem} {log : List Exchange}
    {answer : Except Exn Answer}
    (h : Prog.Runs (applyDiffs services body endpointId diffs results) log answer) :
    ∃ ds, Dispatches services body endpointId diffs ds ∧ log = (ds.map (·.log)).flatten ∧
      ((ds.map (·.diff) = diffs ∧ (∀ d ∈ ds, d.Settles endpointId) ∧
          ∃ items, List.Forall₂ (fun d item => ∃ i, d.result = .ok i ∧ item = d.diff.result i)
              ds items ∧
            answer = .ok (.response ⟨body.runUuid, overall (results ++ items), results ++ items⟩)) ∨
        ((∃ d ∈ ds, ¬ d.Settles endpointId) ∧ ∀ r, answer ≠ .ok (.response r))) := by
  induction diffs generalizing results log with
  | nil =>
    cases h
    refine ⟨[], .nil, rfl, .inl ⟨rfl, by simp, [], .nil, ?_⟩⟩
    rw [List.append_nil]
  | cons diff diffs ih =>
    obtain ⟨first, r, rest, rfl, hrun, hrest⟩ := Prog.runs_bind h
    cases r with
    | error e =>
      cases hrest
      have hstop : ¬ (⟨diff, first, .error e⟩ : Dispatched).Settles endpointId := by
        rintro ⟨⟨item, hitem⟩, -⟩
        cases hitem
      refine ⟨[⟨diff, first, .error e⟩], .stop hrun hstop, by simp, .inr ⟨⟨_, by simp, hstop⟩, ?_⟩⟩
      intro r hr
      cases hr
    | ok item =>
      let d : Dispatched := ⟨diff, first, .ok item⟩
      have hsettles := settles_iff (d := d) hrun rfl
      cases hrefused : refusedUpdate diff item with
      | true =>
        simp only [hrefused, if_true] at hrest
        cases hrest
        have hstop : ¬ d.Settles endpointId := by
          rw [hsettles, hrefused]
          decide
        refine ⟨[d], .stop hrun hstop, by simp [d], .inr ⟨⟨d, by simp, hstop⟩, ?_⟩⟩
        intro r hr
        cases hr
      | false =>
        simp only [hrefused] at hrest
        have hnext : d.Settles endpointId := hsettles.mpr hrefused
        obtain ⟨ds, hds, rfl, hend⟩ := ih hrest
        refine ⟨d :: ds, .next hrun hnext hds, by simp [d], ?_⟩
        rcases hend with ⟨hdiffs, hall, items, hitems, rfl⟩ | ⟨⟨d', hd', hstop⟩, hnone⟩
        · refine .inl ⟨by simp [d, hdiffs], ?_, diff.result item :: items, ?_, ?_⟩
          · intro d' hd'
            rcases List.mem_cons.mp hd' with rfl | hd'
            · exact hnext
            · exact hall d' hd'
          · exact .cons ⟨item, rfl, rfl⟩ hitems
          · rw [List.append_assoc, List.singleton_append]
        · exact .inr ⟨⟨d', List.mem_cons_of_mem _ hd', hstop⟩, hnone⟩

end Dispatchers

theorem overall_succeeded {results : List ResultItem} (h : overall results = .succeeded) :
    ∀ r ∈ results, r.item.status = "succeeded" ∨ r.item.status = "skipped" := by
  unfold overall at h
  split_ifs at h with hnil hall
  intro r hr
  simpa using List.all_eq_true.mp hall r hr

theorem overall_failed {results : List ResultItem} (h : overall results = .failed) :
    ∀ r ∈ results, r.item.status ≠ "succeeded" := by
  unfold overall at h
  split_ifs at h with hnil hall hfailed
  intro r hr hstatus
  have hr := List.all_eq_true.mp hfailed r hr
  rw [hstatus] at hr
  exact absurd hr (by decide)

section Answers

variable {services body endpointId}

/-- The answer is the response where every diff settled, and no response otherwise. -/
theorem applyIntent_runs {log : List Exchange} {answer : Except Exn Answer}
    (h : Prog.Runs (applyIntent services body endpointId) log answer) :
    ∃ ds rest, Dispatches services body endpointId body.diffs ds ∧
      log = (ds.map (·.log)).flatten ++ rest ∧
      ((ds.map (·.diff) = body.diffs ∧ (∀ d ∈ ds, d.Settles endpointId) ∧
          ∃ items, List.Forall₂ (fun d item => ∃ i, d.result = .ok i ∧ item = d.diff.result i)
              ds items ∧
            answer = .ok (.response ⟨body.runUuid, overall items, items⟩)) ∨
        ((∃ d ∈ ds, ¬ d.Settles endpointId) ∧ ∀ r, answer ≠ .ok (.response r))) := by
  obtain ⟨first, r, rest, rfl, hloop, hrest⟩ := Prog.runs_bind h
  obtain ⟨ds, hds, rfl, hend⟩ := applyDiffs_runs hloop
  refine ⟨ds, rest, hds, rfl, ?_⟩
  rcases hend with ⟨hdiffs, hall, items, hitems, rfl⟩ | ⟨hstop, hnone⟩
  · cases hrest
    exact .inl ⟨hdiffs, hall, items, hitems, by rw [List.nil_append]⟩
  · refine .inr ⟨hstop, ?_⟩
    intro response hresponse
    subst hresponse
    cases r with
    | ok a =>
      cases hrest
      exact hnone response rfl
    | error e =>
      dsimp only at hrest
      by_cases hcaught : e.isException = true ∧ (!isHttp e) = true
      · rw [if_pos hcaught] at hrest
        obtain ⟨journal, r', last, -, -, hlast⟩ := Prog.runs_bind hrest
        cases r' with
        | ok u => cases hlast
        | error e' => cases hlast
      · rw [if_neg hcaught] at hrest
        cases hrest

end Answers

/-- An application tells of every diff exactly where every dispatch settles, and of every diff
that mutated something exactly there or where no mutation was issued. -/
theorem apply_reports_iff {log : List Exchange} {answer : Except Exn Answer}
    (h : Prog.Runs (applyIntent services body endpointId) log answer) :
    ∃ ds rest, Dispatches services body endpointId body.diffs ds ∧
      log = (ds.map (·.log)).flatten ++ rest ∧
      (Reports body ds answer ↔ ∀ d ∈ ds, d.Settles endpointId) ∧
      (ReportsMutations ds answer ↔
        (∀ d ∈ ds, d.Settles endpointId) ∨ ∀ d ∈ ds, ¬ d.Mutates) ∧
      ∀ r, answer = .ok (.response r) →
        (r.overall = .succeeded →
          ∀ item ∈ r.results, item.item.status = "succeeded" ∨ item.item.status = "skipped") ∧
        (r.overall = .failed → ∀ item ∈ r.results, item.item.status ≠ "succeeded") := by
  obtain ⟨ds, rest, hds, hlog, hend⟩ := applyIntent_runs h
  refine ⟨ds, rest, hds, hlog, ?_⟩
  rcases hend with ⟨hdiffs, hall, items, hitems, rfl⟩ | ⟨⟨d, hd, hstop⟩, hnone⟩
  · refine ⟨iff_of_true ⟨hdiffs, _, rfl, hitems⟩ hall, iff_of_true ?_ (.inl hall), ?_⟩
    · intro d hd _
      obtain ⟨item, hmem, i, hresult, rfl⟩ := Outcomes.exists_of_forall₂ hitems.flip hd
      exact ⟨_, rfl, i, hresult, hmem⟩
    · intro r hr
      cases hr
      exact ⟨overall_succeeded, overall_failed⟩
  · have hnot : ¬ ∀ d ∈ ds, d.Settles endpointId := fun hall => hstop (hall d hd)
    refine ⟨iff_of_false ?_ hnot, ?_, fun r hr => absurd hr (hnone r)⟩
    · rintro ⟨-, r, hr, -⟩
      exact hnone r hr
    · rw [or_iff_right hnot]
      constructor
      · intro hreports d hd hmutates
        obtain ⟨r, hr, -⟩ := hreports d hd hmutates
        exact hnone r hr
      · intro hquiet d hd hmutates
        exact absurd hmutates (hquiet d hd)

section Switched

/-- A creation and then an update. -/
def twoDiffs : ApplyRequest where
  actor := some "operator"
  runUuid := "run-1"
  diffs := [⟨.create, .qemu, none, .vm ⟨100, "pve1", some "web", none, []⟩⟩,
    ⟨.update, .qemu, some 7, .vm ⟨101, "pve1", some "db", none, []⟩⟩]

def plainServices : Services where
  py := .ascii
  scrub := id
  scrubPayload _ := id
  scrubRequest _ := id
  qemuParams _ := .ok []
  lxcParams _ := .ok []
  qemuDelta _ _ := .ok []
  lxcDelta _ _ := .ok []
  exposeInternalErrors := false

/-- Writes are allowed when the endpoint is first read, and switched off then. -/
def switchedOff : (q : Query) → Bool → Response q × Bool
  | .guest (.endpoint i), allow => (.ok (some ⟨i, "pve", allow⟩), false)
  | .guest .netboxSession, s => (.ok (), s)
  | .guest .proxmoxSession, s => (.ok (), s)
  | .guest (.createGuest _), s => (.ok (some "UPID:pve1:1"), s)
  | .guest .nodeGuests, s => (.ok [], s)
  | .guest .clusterResources, s => (.ok [], s)
  | .guest .currentConfig, s => (.ok [], s)
  | .guest .currentStatus, s => (.ok none, s)
  | .guest (.putConfig _), s => (.ok none, s)
  | .guest (.destroyGuest _ _ _), s => (.ok none, s)
  | .guest (.saveRecord _), s => (.ok (), s)
  | .guest (.journal _), s => (.ok (), s)
  | .firewall (.endpoint _), s => (.ok none, s)
  | .firewall (.openSession _), s => (.ok (), s)
  | .firewall (.probe _), s => (.ok (), s)
  | .firewall (.write _ _ _), s => (.ok .null, s)
  | .firewall .close, s => (.ok (), s)
  | .firewall (.record _), s => (.ok (), s)

/-- The answer has results. -/
def hasResults : Except Exn Answer → Bool
  | .ok (.response _) => true
  | _ => false

def switchedRun : List Exchange × Except Exn Answer :=
  (applyIntent plainServices twoDiffs (some 1)).traceFrom switchedOff true

theorem apply_reports_iff_switched :
    ∃ ds rest, Dispatches plainServices twoDiffs (some 1) twoDiffs.diffs ds ∧
      switchedRun.1 = (ds.map (·.log)).flatten ++ rest ∧
      (Reports twoDiffs ds switchedRun.2 ↔ ∀ d ∈ ds, d.Settles (some 1)) ∧
      (ReportsMutations ds switchedRun.2 ↔
        (∀ d ∈ ds, d.Settles (some 1)) ∨ ∀ d ∈ ds, ¬ d.Mutates) ∧
      ∀ r, switchedRun.2 = .ok (.response r) →
        (r.overall = .succeeded →
          ∀ item ∈ r.results, item.item.status = "succeeded" ∨ item.item.status = "skipped") ∧
        (r.overall = .failed → ∀ item ∈ r.results, item.item.status ≠ "succeeded") :=
  apply_reports_iff _ _ _ (Prog.runs_traceFrom _ _ _)

/-- The guest is created and the answer does not tell it. -/
theorem created_guest_not_reported :
    Prog.Runs (applyIntent plainServices twoDiffs (some 1)) switchedRun.1 switchedRun.2 ∧
    (switchedRun.1.any fun x => x.1.mutates) = true ∧ hasResults switchedRun.2 = false := by
  refine ⟨Prog.runs_traceFrom _ _ _, ?_⟩
  decide +kernel

end Switched

end ProxboxApi.Intent
