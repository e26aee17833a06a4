import ProxboxApi.WriteAccess

/-! The gates of the intent dispatchers, of the firewall and of the tag routes, and what the
generated endpoints write. -/

namespace ProxboxApi.WriteAccess

open Requests SessionGuard SessionGuard.Interface
open Verbs (Endpoint Exn)

/-- The session is opened on an endpoint. -/
def openOn (endpoint : Endpoint) (reply : Except Exn Unit) (u : Use Endpoint) : Use Endpoint :=
  match reply with
  | .ok () => { u with session := some endpoint }
  | .error _ => u

/-- An endpoint whose row was read with writes enabled. -/
def Granted (endpoint : Endpoint) (u : Use Endpoint) : Prop :=
  endpoint ∈ u.read ∧ endpoint.allowWrites = true

theorem granted_readRow {u : Use Endpoint} {endpoint : Endpoint}
    (h : endpoint.allowWrites = true) :
    Granted endpoint (readRow (.ok (some endpoint)) u) :=
  ⟨by simp [readRow], h⟩

namespace IntentCalls

open Intent

/-- The intent dispatchers and the routes of deletion requests. -/
def interface : Interface Intent.Request Intent.Reply Endpoint where
  writes
    | .createGuest _ | .putConfig _ | .destroyGuest .. => true
    | _ => false
  next
    | .endpoint _, reply, u => readRow reply u
    | .proxmoxSession, reply, u => openLast reply u
    | _, _, u => u
  allows := Endpoint.allowWrites

variable {α β : Type} {pre : Use Endpoint → Prop} {scrub : String → String}

theorem ready_openLast {u : Use Endpoint} (h : LastAllows u) :
    interface.Ready (openLast (.ok ()) u) := by
  obtain ⟨e, hlast, hallows⟩ := h
  exact ⟨e, List.mem_of_getLast? hlast, hlast, hallows⟩

theorem dispatch_bind_eq (p : Dispatch α) (f : α → Dispatch β) :
    Dispatch.bind p f = Prog.andThen p f := by
  unfold Dispatch.bind Prog.andThen
  congr 1
  funext r
  cases r <;> rfl

theorem quiet_bind {p : Dispatch α} {f : α → Dispatch β} (hp : interface.Quiet p)
    (hf : ∀ a, interface.Quiet (f a)) : interface.Quiet (Dispatch.bind p f) := by
  rw [dispatch_bind_eq]
  exact hp.andThen hf

theorem from_bind {p : Dispatch α} {f : α → Dispatch β} (hp : interface.From pre p)
    (hf : ∀ a, interface.From (fun _ => True) (f a)) :
    interface.From pre (Dispatch.bind p f) := by
  rw [dispatch_bind_eq]
  exact hp.andThen hf

theorem quiet_bindFrom {p : Dispatch α} {f : α → Dispatch β} (hp : interface.Quiet p)
    (hf : ∀ a, interface.From pre (f a)) : interface.From pre (Dispatch.bind p f) := by
  rw [dispatch_bind_eq]
  exact hp.andThenFrom hf

theorem from_attempt {p : Dispatch α} {handler : Exn → Dispatch β} {f : α → Dispatch β}
    (hp : interface.From pre p) (hhandler : ∀ e, interface.From (fun _ => True) (handler e))
    (hf : ∀ a, interface.From (fun _ => True) (f a)) :
    interface.From pre (Dispatch.attempt p handler f) := by
  apply hp.bind
  rintro (e | a)
  · dsimp only
    split_ifs
    · exact hhandler e
    · exact (Quiet.ret _).from
  · exact hf a

theorem quiet_ask {q : Intent.Request} (hwrites : interface.writes q = false)
    (hnext : ∀ reply u, interface.next q reply u = u) : interface.Quiet (Dispatch.ask q) :=
  .ask hwrites hnext fun _ => .ret _

theorem quiet_pure (a : α) : interface.Quiet (Dispatch.pure a) := .ret _

theorem quiet_post {entry : Entry} : interface.Quiet (post entry) := by
  have hjournal : interface.Quiet (Dispatch.ask (.journal entry)) := quiet_ask rfl fun _ _ => rfl
  have hsession : interface.Quiet (Dispatch.ask .netboxSession) := quiet_ask rfl fun _ _ => rfl
  apply hsession.bind
  rintro (e | _)
  · dsimp only
    split_ifs
    · exact hjournal
    · exact .ret _
  · exact hjournal

/-- A session on the row that was read last, and what follows on it. -/
theorem from_session {f : Unit → Dispatch β} (hf : ∀ a, interface.From interface.Ready (f a)) :
    interface.From LastAllows (Dispatch.bind (Dispatch.ask .proxmoxSession) f) := by
  intro u hlast
  refine ⟨fun h => by simp [interface] at h, ?_⟩
  rintro (e | ⟨⟩)
  · trivial
  · exact hf () _ (ready_openLast hlast)

theorem from_write {q : Intent.Request} : interface.From interface.Ready (Dispatch.ask q) :=
  fun _ hready => ⟨fun _ => hready, fun _ => trivial⟩

/-- A gate, and what follows where it is open. -/
theorem from_gate {endpointId : Option ℤ} {f : Except String Endpoint → Dispatch β}
    (hclosed : ∀ reason, interface.From (fun _ => True) (f (.error reason)))
    (hopen : ∀ endpoint, interface.From LastAllows (f (.ok endpoint))) :
    interface.From pre (Dispatch.bind (gate endpointId) f) := by
  intro u _
  cases endpointId with
  | none => exact hclosed _ u trivial
  | some id =>
    refine ⟨fun h => by simp [interface] at h, ?_⟩
    rintro (e | _ | endpoint)
    · trivial
    · exact hclosed _ _ trivial
    · cases hallows : endpoint.allowWrites with
      | true =>
        have hcovered := hopen endpoint (interface.next (.endpoint id) (.ok (some endpoint)) u)
          (lastAllows_readRow hallows)
        simpa [Prog.bind, Dispatch.ask, Dispatch.pure, hallows] using hcovered
      | false =>
        have hcovered := hclosed "endpoint_writes_disabled"
          (interface.next (.endpoint id) (.ok (some endpoint)) u) trivial
        simpa [Prog.bind, Dispatch.ask, Dispatch.pure, hallows] using hcovered

theorem create_guarded {scrubPayload : String → String} {verb : String}
    {refusal : Option Refusal} {params : Except Exn Json.Fields} {inv : Invocation} :
    interface.From (fun _ => True) (dispatchCreate scrub scrubPayload verb refusal params inv) := by
  apply from_gate
  · exact fun reason => (quiet_bind quiet_post fun _ => quiet_pure _).from
  · intro endpoint
    dsimp only
    split
    · exact (quiet_bind quiet_post fun _ => quiet_pure _).from
    · exact (quiet_pure _).from
    · apply from_attempt
      · apply from_session
        intro _
        apply quiet_bindFrom (Quiet.ret _)
        exact fun params => from_write
      · exact fun e => (quiet_bind quiet_post fun _ => quiet_pure _).from
      · exact fun upid => (quiet_bind quiet_post fun _ => quiet_pure _).from

theorem quiet_failUpdate {u : UpdateKind} {inv : Invocation} {endpoint : Option Endpoint}
    {message : String} {reason : Option String} :
    interface.Quiet (failUpdate scrub u inv endpoint message reason) :=
  quiet_bind quiet_post fun _ => quiet_pure _

theorem tryUpdate_guarded {u : UpdateKind} {delta : Json.Fields → Except Exn Json.Fields}
    {inv : Invocation} {endpoint : Endpoint} :
    interface.From LastAllows (tryUpdate scrub u delta inv endpoint) := by
  apply from_session
  intro _
  apply quiet_bindFrom (quiet_ask rfl fun _ _ => rfl)
  intro guests
  split_ifs
  · apply quiet_bindFrom (quiet_ask rfl fun _ _ => rfl)
    exact fun resources => (quiet_bind quiet_failUpdate fun _ => quiet_pure _).from
  · apply quiet_bindFrom (quiet_ask rfl fun _ _ => rfl)
    intro current
    apply quiet_bindFrom (Quiet.ret _)
    intro changes
    split_ifs
    · exact (quiet_bind quiet_post fun _ => quiet_pure _).from
    · apply quiet_bindFrom (quiet_ask rfl fun _ _ => rfl)
      intro status
      split_ifs
      · exact (quiet_bind quiet_failUpdate fun _ => quiet_pure _).from
      · exact from_bind from_write fun _ => (quiet_pure _).from

theorem update_guarded {u : UpdateKind} {scrubPayload : String → String}
    {delta : Json.Fields → Except Exn Json.Fields} {inv : Invocation} :
    interface.From (fun _ => True) (dispatchUpdate scrub u scrubPayload delta inv) := by
  apply from_gate
  · exact fun reason => quiet_failUpdate.from
  · intro endpoint
    apply from_attempt tryUpdate_guarded
    · exact fun e => quiet_failUpdate.from
    · rintro (item | ⟨upid, changes⟩)
      · exact (quiet_pure _).from
      · exact (quiet_bind quiet_post fun _ => quiet_pure _).from

theorem destroy_guarded {kind : DeletionRequests.Kind} {context : Context} {vmid : ℤ}
    {node actor runUuid : String} {suppressJournal : Bool} : interface.From (fun _ => True)
      (dispatchDestroy scrub kind context vmid node actor runUuid suppressJournal) := by
  have hjournal : ∀ endpoint endpointId note, interface.Quiet
      (if suppressJournal = true then Dispatch.pure ()
        else writeDeletionRequestJournal scrub endpoint endpointId vmid actor runUuid kind none
          note) := by
    intro endpoint endpointId note
    split_ifs
    · exact quiet_pure _
    · exact quiet_post
  apply from_gate
  · exact fun reason => (quiet_bind (hjournal _ _ _) fun _ => .ret _).from
  · intro endpoint
    apply from_attempt
    · exact from_session fun _ => from_write
    · exact fun e => (quiet_bind (hjournal _ _ _) fun _ => .ret _).from
    · exact fun upid => (quiet_bind (hjournal _ _ _) fun _ => quiet_pure _).from

variable {record : Record} {request : DeletionRequests.Request} {actor runUuid : String}

theorem checkedRoute_guarded {next : Endpoint → Dispatch RouteResult}
    (hnext : ∀ endpoint, interface.From (fun _ => True) (next endpoint)) :
    interface.From (fun _ => True) (checkedRoute scrub record request actor runUuid next) := by
  have hgate : interface.From (fun _ => True)
      (gatedOrJournaled scrub record (routeVerb request) actor runUuid) := by
    apply from_gate
    · exact fun reason => (quiet_bind quiet_post fun _ => quiet_pure _).from
    · exact fun endpoint => (quiet_pure _).from
  apply from_bind hgate
  rintro (reason | endpoint)
  · exact (quiet_pure _).from
  · dsimp only
    split
    · exact (quiet_bind quiet_post fun _ => .ret _).from
    · exact hnext endpoint

theorem settle_guarded {kind : Verbs.JournalKind} {reason : Option String} :
    interface.From (fun _ => True)
      (settleRoute scrub record request actor runUuid kind reason) := by
  apply checkedRoute_guarded
  intro endpoint
  apply Quiet.from
  apply quiet_bind (quiet_ask rfl fun _ _ => rfl)
  exact fun _ => quiet_bind quiet_post fun _ => quiet_pure _

theorem execute_guarded {body : DeletionRequests.Target} : interface.From (fun _ => True)
    (executeDeletionRequest scrub record body actor runUuid) := by
  have hsave : ∀ state, interface.Quiet (Dispatch.ask (.saveRecord state)) :=
    fun state => quiet_ask rfl fun _ _ => rfl
  apply checkedRoute_guarded
  intro endpoint
  apply quiet_bindFrom (hsave _)
  intro _
  apply from_attempt destroy_guarded
  · exact fun e => (quiet_bind (hsave _) fun _ => .ret _).from
  · exact fun upid => (quiet_bind (hsave _) fun _ => quiet_pure _).from

end IntentCalls

namespace FirewallCalls

open Firewall

/-- The firewall write helper. -/
def interface : Interface Firewall.Request Firewall.Reply Endpoint where
  writes
    | .write .. => true
    | _ => false
  next
    | .endpoint _, reply, u => readRow reply u
    | .openSession endpoint, reply, u => openOn endpoint reply u
    | _, _, u => u
  allows := Endpoint.allowWrites

variable {α : Type} {py : Python} {route : Route} {payload : Json.Fields}

theorem quiet_ask {q : Firewall.Request} (hwrites : interface.writes q = false)
    (hnext : ∀ reply u, interface.next q reply u = u) : interface.Quiet (Firewall.ask q) :=
  .ask hwrites hnext fun _ => .ret _

theorem gate_granted {endpointId : Option ℤ} {u : Use Endpoint} : interface.Covers
    (fun u r => ∀ endpoint, r = .ok (.ok endpoint) → Granted endpoint u) u
    (firewallGate endpointId) := by
  cases endpointId with
  | none => rintro endpoint ⟨⟩
  | some id =>
    refine ⟨fun h => by simp [interface] at h, ?_⟩
    rintro (e | _ | endpoint)
    · rintro endpoint ⟨⟩
    · rintro endpoint ⟨⟩
    · cases hallows : endpoint.allowWrites with
      | true =>
        have hgranted : Granted endpoint (interface.next (.endpoint id) (.ok (some endpoint)) u) :=
          granted_readRow hallows
        simpa [Prog.bind, hallows, Covers, Firewall.pure] using hgranted
      | false => simp [Prog.bind, hallows, Covers, Firewall.pure]

theorem send_guarded : interface.From interface.Ready (send route payload) := by
  have hcall : ∀ f : Except Failure Json → Write (Option Json ⊕ ℤ), (∀ r, interface.Quiet (f r)) →
      interface.From interface.Ready
        ((Firewall.ask (.write route.method route.path payload)).bind f) := by
    intro f hf u hready
    exact ⟨fun _ => hready, fun reply => (hf reply).covers fun _ => trivial⟩
  have hunsupported : ∀ (p : Prop) [Decidable p] (status : ℤ) (e : Exn), interface.Quiet
      (if p then Firewall.pure (.inr status) else Firewall.raise e : Write (Option Json ⊕ ℤ)) := by
    intro p _ status e
    split_ifs <;> exact .ret _
  unfold send
  dsimp only
  split_ifs
  · apply Quiet.bindFrom (quiet_ask rfl fun _ _ => rfl)
    rintro (f | _)
    · cases f with
      | resource status text => exact (hunsupported _ _ _).from
      | raised e => exact (Quiet.ret _).from
    · apply hcall
      rintro (f | raw)
      · cases f with
        | resource status text => exact hunsupported _ _ _
        | raised e => exact .ret _
      · exact .ret _
  · apply hcall
    rintro (f | raw)
    · cases f with
      | resource status text => exact hunsupported _ _ _
      | raised e => exact .ret _
    · exact .ret _

theorem write_guarded {endpointId : Option ℤ} {actor : Option String} : interface.From
    (fun _ => True) (firewallWrite py endpointId actor route payload) := by
  apply Quiet.andThenFrom (Quiet.ret _)
  intro actor u _
  refine gate_granted.bind ?_
  rintro u (e | refusal | endpoint) hgranted
  · trivial
  · trivial
  · have hgranted := hgranted endpoint rfl
    refine ⟨fun h => by simp [interface] at h, ?_⟩
    rintro (e | ⟨⟩)
    · dsimp only [Prog.bind]
      split_ifs <;> trivial
    · have hready : interface.Ready (openOn endpoint (.ok ()) u) :=
        ⟨endpoint, hgranted.1, rfl, hgranted.2⟩
      refine From.lastly (P := interface.Ready) ?_ ?_ _ hready
      · apply From.rescue
        · apply From.andThen send_guarded
          rintro (raw | status) <;> exact (Quiet.ret _).from
        · intro e
          split_ifs <;> exact (Quiet.ret _).from
      · apply Quiet.bind (quiet_ask rfl fun _ _ => rfl)
        rintro (e | _)
        · dsimp only
          split_ifs <;> exact .ret _
        · exact .ret _

end FirewallCalls

namespace TagCalls

open VmTags

/-- The routes that tag VMs. -/
def interface : Interface VmTags.Request VmTags.Reply Endpoint where
  writes
    | .putTags .. => true
    | _ => false
  next
    | .endpoint _, reply, u => readRow reply u
    | .endpoints, .ok rows, u => { u with read := u.read ++ rows }
    | .openSession endpoint, reply, u => openOn endpoint reply u
    | _, _, u => u
  allows := Endpoint.allowWrites

variable {py : Python} {body : TagPendingDeletionBody} {action : Action}

theorem resolve_granted {endpointId : Option ℤ} {u : Use Endpoint} : interface.Covers
    (fun u r => ∀ endpoint, r = .ok (.ok endpoint) → Granted endpoint u) u
    (resolveEndpoint endpointId) := by
  cases endpointId with
  | none =>
    refine ⟨fun h => by simp [interface] at h, ?_⟩
    rintro (e | rows)
    · rintro endpoint ⟨⟩
    · dsimp only [Prog.bind]
      split
      · rintro endpoint ⟨⟩
      · rename_i endpoint hrows
        rintro _ ⟨⟩
        have hmem : endpoint ∈ rows.filter (·.allowWrites) := by simp [hrows]
        obtain ⟨hrow, hallows⟩ := List.mem_filter.mp hmem
        exact ⟨List.mem_append_right _ hrow, hallows⟩
      · rintro endpoint ⟨⟩
  | some id =>
    refine ⟨fun h => by simp [interface] at h, ?_⟩
    rintro (e | _ | endpoint)
    · rintro endpoint ⟨⟩
    · rintro endpoint ⟨⟩
    · cases hallows : endpoint.allowWrites with
      | true =>
        have hgranted : Granted endpoint (interface.next (.endpoint id) (.ok (some endpoint)) u) :=
          granted_readRow hallows
        simpa [Prog.bind, hallows, Covers, VmTags.pure] using hgranted
      | false => simp [Prog.bind, hallows, Covers, VmTags.pure]

theorem setTags_guarded {endpoint : Endpoint} :
    interface.From (Granted endpoint) (setTags py endpoint body action) := by
  intro u hgranted
  refine ⟨fun h => by simp [interface] at h, ?_⟩
  rintro (e | ⟨⟩)
  · trivial
  · have hready : interface.Ready (openOn endpoint (.ok ()) u) :=
      ⟨endpoint, hgranted.1, rfl, hgranted.2⟩
    refine ⟨fun h => by simp [interface] at h, ?_⟩
    rintro (e | raw)
    · trivial
    · dsimp only [Prog.bind]
      split
      · trivial
      · refine ⟨fun _ => hready, ?_⟩
        rintro (e | _) <;> trivial

theorem apply_guarded {endpointId : Option ℤ} : interface.From (fun _ => True)
    (applyTagOperation py body endpointId action) := by
  intro u _
  refine resolve_granted.bind ?_
  rintro u (e | refusal | endpoint) hgranted
  · trivial
  · trivial
  · refine From.rescue (P := Granted endpoint) ?_ ?_ _ (hgranted endpoint rfl)
    · apply setTags_guarded.andThen
      exact fun tags => (Quiet.ret _).from
    · intro e
      split_ifs <;> exact (Quiet.ret _).from

end TagCalls

namespace ProxyCalls

open Proxy

/-- The generated endpoints: a call writes unless it is a GET. -/
def interface : Interface Proxy.Request Proxy.Reply Endpoint where
  writes
    | .call method _ _ => method ≠ .get
    | _ => false
  next
    | .targets _, .ok targets, u => { u with read := u.read ++ targets.map (·.endpoint) }
    | .openSession target, reply, u => openOn target.endpoint reply u
    | _, _, u => u
  allows := Endpoint.allowWrites

abbrev Log := List (Prog.Exchange Proxy.Request Proxy.Reply)

/-- The endpoints that were listed. -/
def listed : Prog.Exchange Proxy.Request Proxy.Reply → Option (List Target)
  | ⟨.targets _, .ok targets⟩ => some targets
  | _ => none

/-- The target that a session was opened on. -/
def opened : Prog.Exchange Proxy.Request Proxy.Reply → Option Target
  | ⟨.openSession target, .ok ()⟩ => some target
  | _ => none

/-- A request that is not a GET, whose path is rendered and whose target has a session, selects a
target that allows writes. -/
def Permitted (op : Operation) (args : Arguments) (log : Log) : Prop :=
  op.method ≠ .get → (renderProxmoxPath op.openapiPath args.pathValues).toOption.isSome = true →
    ∀ targets ∈ log.filterMap listed, ∀ target, selectTarget args targets = .ok target →
      target ∈ log.filterMap opened → target.endpoint.allowWrites = true

theorem selectBy_mem {field value : String} {get : Target → Option String}
    {targets : List Target} {target : Target}
    (h : selectBy field value get targets = .ok target) : target ∈ targets := by
  unfold selectBy at h
  split at h
  · rename_i found hfound
    cases h
    exact List.mem_of_find?_eq_some hfound
  · cases h

theorem selectTarget_mem {args : Arguments} {targets : List Target} {target : Target}
    (h : selectTarget args targets = .ok target) : target ∈ targets := by
  unfold selectTarget at h
  split at h
  · exact selectBy_mem h
  · exact selectBy_mem h
  · exact selectBy_mem h
  · split at h
    · cases h
    · cases h
      exact List.mem_singleton_self _
    · cases h

theorem ready_iff {targets : List Target} {target : Target} (h : target ∈ targets) :
    interface.Ready ⟨targets.map (·.endpoint), some target.endpoint⟩ ↔
      target.endpoint.allowWrites = true := by
  constructor
  · rintro ⟨e, -, hsession, hallows⟩
    cases hsession
    exact hallows
  · intro hallows
    exact ⟨target.endpoint, List.mem_map_of_mem h, rfl, hallows⟩

theorem runs_close {r r' : Except Exn Json} {log : Log}
    (h : Prog.Runs (Prog.lastly (.ret r) (Proxy.ask .close)) log r') :
    ∃ reply, log = [⟨.close, reply⟩] := by
  cases h with
  | ask reply h =>
    rcases reply with e | _ <;> cases h <;> exact ⟨_, rfl⟩

/-- What follows the session of the target: the call, if the path is rendered, and the close. -/
theorem runs_forward {op : Operation} {args : Arguments} {log : Log} {r : Except Exn Json}
    (h : Prog.Runs (Prog.lastly
      (Prog.rescue (forward op args) fun e => Proxy.raise (wrapped op e)) (Proxy.ask .close))
      log r) :
    match renderProxmoxPath op.openapiPath args.pathValues with
    | .error _ => ∃ closed, log = [⟨.close, closed⟩]
    | .ok path => ∃ answer closed, log = [⟨.call op.method
        (String.ofList (path.toList.dropWhile (· = '/'))) (payloadOf op args), answer⟩,
        ⟨.close, closed⟩] := by
  unfold forward at h
  cases hpath : renderProxmoxPath op.openapiPath args.pathValues with
  | error e =>
    rw [hpath] at h
    exact runs_close h
  | ok path =>
    rw [hpath] at h
    cases h with
    | ask answer h =>
      rcases answer with e | json
      · obtain ⟨closed, rfl⟩ := runs_close h
        exact ⟨_, closed, rfl⟩
      · obtain ⟨closed, rfl⟩ := runs_close h
        exact ⟨_, closed, rfl⟩

/-- The ways a generated endpoint runs, up to what follows the session of its target. -/
theorem runs_generated {op : Operation} {args : Arguments} {log : Log} {r : Except Exn Json}
    (h : Prog.Runs (generatedEndpoint op args) log r) :
    (log.filterMap opened = [] ∧ ∀ x ∈ log, interface.writes x.1 = false) ∨
      ∃ targets target rest, selectTarget args targets = .ok target ∧
        log = ⟨.targets args.source, .ok targets⟩ :: ⟨.openSession target, .ok ()⟩ :: rest ∧
        Prog.Runs (Prog.lastly
          (Prog.rescue (forward op args) fun e => Proxy.raise (wrapped op e)) (Proxy.ask .close))
          rest r := by
  cases h with
  | ask reply h =>
    rcases reply with e | targets
    · cases h
      left
      simp [opened, interface]
    · dsimp only [Prog.bind] at h
      cases hselect : selectTarget args targets with
      | error e =>
        rw [hselect] at h
        cases h
        left
        simp [opened, interface]
      | ok target =>
        rw [hselect] at h
        cases h with
        | ask reply h =>
          rcases reply with e | ⟨⟩
          · cases h
            left
            simp [opened, interface]
          · exact Or.inr ⟨targets, target, _, hselect, rfl, h⟩

theorem guarded_of_no_writes {u : Use Endpoint} {log : Log}
    (h : ∀ x ∈ log, interface.writes x.1 = false) : interface.Guarded u log := by
  intro before x after hlog hwrites
  have hx : x ∈ log := by simp [hlog]
  simp [h x hx] at hwrites

theorem generated_guarded_iff {op : Operation} {args : Arguments} {log : Log}
    {r : Except Exn Json} (h : Prog.Runs (generatedEndpoint op args) log r) :
    interface.Guarded start log ↔ Permitted op args log := by
  rcases runs_generated h with ⟨hopened, hquiet⟩ | ⟨targets, target, rest, hselect, rfl, hrest⟩
  · refine iff_of_true (guarded_of_no_writes hquiet) ?_
    intro _ _ targets _ target _ hin
    simp [hopened] at hin
  · have hready := ready_iff (selectTarget_mem hselect)
    have hforward := runs_forward hrest
    unfold Permitted
    cases hpath : renderProxmoxPath op.openapiPath args.pathValues with
    | error e =>
      rw [hpath] at hforward
      obtain ⟨closed, rfl⟩ := hforward
      refine iff_of_true (guarded_of_no_writes (by simp [interface])) ?_
      intro _ hsome
      simp [Except.toOption] at hsome
    | ok path =>
      rw [hpath] at hforward
      obtain ⟨answer, closed, rfl⟩ := hforward
      rw [guarded_cons_iff, guarded_cons_iff, guarded_cons_iff, guarded_cons_iff]
      constructor
      · rintro ⟨-, -, hcall, -⟩ hmethod _ targets' htargets' target' hselect' _
        have heq : targets' = targets := by simpa [listed] using htargets'
        rw [heq, hselect] at hselect'
        cases hselect'
        exact hready.mp (hcall (by simpa [interface] using hmethod))
      · intro hpermitted
        refine ⟨by simp [interface], by simp [interface], ?_, by simp [interface], guarded_nil⟩
        intro hwrites
        have hmethod : op.method ≠ .get := by simpa [interface] using hwrites
        exact hready.mpr (hpermitted hmethod rfl targets (by simp [listed]) target hselect
          (by simp [opened]))

end ProxyCalls

/-- The exchanges of a handler. -/
inductive Trace where
  | verb (log : List (Prog.Exchange Verbs.Request Verbs.Reply))
  | intent (log : List (Prog.Exchange Intent.Request Intent.Reply))
  | firewall (log : List (Prog.Exchange Firewall.Request Firewall.Reply))
  | tags (log : List (Prog.Exchange VmTags.Request VmTags.Reply))
  | proxy (op : Proxy.Operation) (args : Proxy.Arguments) (log : ProxyCalls.Log)

/-- Each write is on a session of an endpoint whose row was read with writes enabled. -/
def Trace.Guarded : Trace → Prop
  | .verb log => VerbCalls.interface.Guarded start log
  | .intent log => IntentCalls.interface.Guarded start log
  | .firewall log => FirewallCalls.interface.Guarded start log
  | .tags log => TagCalls.interface.Guarded start log
  | .proxy _ _ log => ProxyCalls.interface.Guarded start log

/-- Only the generated endpoints do not look at the flag. -/
def Trace.Permitted : Trace → Prop
  | .proxy op args log => ProxyCalls.Permitted op args log
  | _ => True

/-- The runs of the handlers. -/
inductive Handled : Trace → Prop where
  | verb {allowedText : Json.Fields → String} {inv : Verbs.Invocation} {ledger log result}
      (h : Prog.Runs (Verbs.handle allowedText inv ledger) log result) : Handled (.verb log)
  | cancel {c : Verbs.Cancellation} {ledger log result}
      (h : Prog.Runs (Verbs.handleMigrateCancel c ledger) log result) : Handled (.verb log)
  | create {scrub scrubPayload : String → String} {verb refusal params inv log result}
      (h : Prog.Runs (Intent.dispatchCreate scrub scrubPayload verb refusal params inv) log
        result) : Handled (.intent log)
  | update {scrub scrubPayload : String → String} {u delta inv log result}
      (h : Prog.Runs (Intent.dispatchUpdate scrub u scrubPayload delta inv) log result) :
      Handled (.intent log)
  | destroy {scrub : String → String} {kind context vmid node actor runUuid suppressJournal log
      result}
      (h : Prog.Runs (Intent.dispatchDestroy scrub kind context vmid node actor runUuid
        suppressJournal) log result) : Handled (.intent log)
  | approve {scrub : String → String} {record body actor runUuid log result}
      (h : Prog.Runs (Intent.approveDeletionRequest scrub record body actor runUuid) log result) :
      Handled (.intent log)
  | reject {scrub : String → String} {record actor runUuid reason log result}
      (h : Prog.Runs (Intent.rejectDeletionRequest scrub record reason actor runUuid) log result) :
      Handled (.intent log)
  | execute {scrub : String → String} {record body actor runUuid log result}
      (h : Prog.Runs (Intent.executeDeletionRequest scrub record body actor runUuid) log result) :
      Handled (.intent log)
  | firewall {py : Python} {endpointId actor route payload log result}
      (h : Prog.Runs (Firewall.firewallWrite py endpointId actor route payload) log result) :
      Handled (.firewall log)
  | tags {py : Python} {body endpointId action log result}
      (h : Prog.Runs (VmTags.applyTagOperation py body endpointId action) log result) :
      Handled (.tags log)
  | proxy {op args log result} (h : Prog.Runs (Proxy.generatedEndpoint op args) log result) :
      Handled (.proxy op args log)

/-- Every write of every handler is guarded, but for those of a generated endpoint on a target
that does not allow writes. -/
theorem writes_guarded_iff (t : Trace) (h : Handled t) : t.Guarded ↔ t.Permitted := by
  cases h with
  | verb h => exact iff_of_true ((VerbCalls.covered_handle.from trivial).guarded h) trivial
  | cancel h => exact iff_of_true ((VerbCalls.covered_cancel.from trivial).guarded h) trivial
  | create h => exact iff_of_true ((IntentCalls.create_guarded _ trivial).guarded h) trivial
  | update h => exact iff_of_true ((IntentCalls.update_guarded _ trivial).guarded h) trivial
  | destroy h => exact iff_of_true ((IntentCalls.destroy_guarded _ trivial).guarded h) trivial
  | approve h => exact iff_of_true ((IntentCalls.settle_guarded _ trivial).guarded h) trivial
  | reject h => exact iff_of_true ((IntentCalls.settle_guarded _ trivial).guarded h) trivial
  | execute h => exact iff_of_true ((IntentCalls.execute_guarded _ trivial).guarded h) trivial
  | firewall h => exact iff_of_true ((FirewallCalls.write_guarded _ trivial).guarded h) trivial
  | tags h => exact iff_of_true ((TagCalls.apply_guarded _ trivial).guarded h) trivial
  | proxy h => exact ProxyCalls.generated_guarded_iff h

/-- A PUT through a generated endpoint, to the only endpoint there is. -/
def aclCall : Proxy.Operation := ⟨"/access/acl", .put⟩

def aclArguments : Proxy.Arguments where
  source := .database
  targetName := none
  targetDomain := none
  targetIpAddress := none
  pathValues := []
  queryValues := []
  requestBody := some [("path", .str "/"), ("roles", .str "Administrator")]

/-- Proxmox with one endpoint, which answers everything. -/
def onlyEndpoint (allowWrites : Bool) : (q : Proxy.Request) → Proxy.Reply q
  | .targets _ => .ok [⟨some "pve", none, some "10.0.0.5", ⟨1, "pve", allowWrites⟩⟩]
  | .openSession _ | .close => .ok ()
  | .call .. => .ok .null

def aclRun (allowWrites : Bool) : ProxyCalls.Log × Except Exn Json :=
  (Proxy.generatedEndpoint aclCall aclArguments).trace (onlyEndpoint allowWrites)

theorem writes_guarded_iff_acl : ProxyCalls.interface.Guarded start (aclRun true).1 := by
  have hrun := Prog.runs_trace (onlyEndpoint true) (Proxy.generatedEndpoint aclCall aclArguments)
  refine (writes_guarded_iff (.proxy aclCall aclArguments _) (.proxy hrun)).mpr ?_
  intro _ _ targets _ target _ hopened
  have hopened : target ∈ [(⟨some "pve", none, some "10.0.0.5", ⟨1, "pve", true⟩⟩ : Proxy.Target)] :=
    hopened
  rw [List.mem_singleton.mp hopened]

/-- The call is made although the endpoint does not allow writes. -/
theorem acl_not_guarded : Handled (.proxy aclCall aclArguments (aclRun false).1) ∧
    ¬ (Trace.proxy aclCall aclArguments (aclRun false).1).Guarded := by
  refine ⟨.proxy (Prog.runs_trace (onlyEndpoint false)
    (Proxy.generatedEndpoint aclCall aclArguments)), ?_⟩
  intro hguarded
  have hlog : ∃ x after, (aclRun false).1 =
      [⟨.targets .database, onlyEndpoint false (.targets .database)⟩,
        ⟨.openSession ⟨some "pve", none, some "10.0.0.5", ⟨1, "pve", false⟩⟩, .ok ()⟩] ++
          x :: after ∧ ProxyCalls.interface.writes x.1 = true := ⟨_, _, rfl, rfl⟩
  obtain ⟨x, after, hlog, hwrites⟩ := hlog
  obtain ⟨e, -, hsession, hallows⟩ := hguarded _ x after hlog hwrites
  cases hsession
  cases hallows

end ProxboxApi.WriteAccess
