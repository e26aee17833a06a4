import ProxboxApi.IntentDispatch
import ProxboxApi.IdentityVerdict
import ProxboxApi.VerbAudit

/-! The VMs that journal entries are assigned to: those of the operational verbs, of the intent
dispatchers and of the deletion requests. -/

namespace ProxboxApi.JournalAnchors

open Requests
open SyncState (NetBox Failures Identity Binds)
open Verbs (Exn)

/-- A guest, by its endpoint and its vmid. -/
structure Guest where
  endpointId : ℤ
  vmid : ℤ
  endpoint_pos : 0 < endpointId

def Guest.identity (g : Guest) : Identity where
  proxmoxVmId := g.vmid
  endpointId := some g.endpointId
  clusterId := none
  fallbackQuery := none
  endpoint_pos := by
    rintro e ⟨⟩
    exact g.endpoint_pos

/-- Guests are bound to VMs, one to one. -/
def BindsInjectively (nb : NetBox) (legacyEnabled : Bool) : Prop :=
  (∀ g : Guest, ∀ v v', Binds nb legacyEnabled g.identity v →
    Binds nb legacyEnabled g.identity v' → v = v') ∧
  ∀ g g' : Guest, ∀ v, Binds nb legacyEnabled g.identity v →
    Binds nb legacyEnabled g'.identity v → g = g'

/-- `resolve_netbox_vm_id`, failing closed. -/
def resolveNetboxVmId (nb : NetBox) (legacyEnabled : Bool) (failures : Failures) (g : Guest) :
    Except Exn (Option ℤ) :=
  if g.vmid ≤ 0 then .error (.proxbox "netbox_vm_identity_required_for_audit")
  else match SyncState.resolveVirtualMachineBySyncState nb failures legacyEnabled true g.identity with
    | none => .error (.proxbox "netbox_vm_identity_unverifiable_for_audit")
    | some none => .error (.proxbox "netbox_vm_identity_required_for_audit")
    | some (some r) => .ok (some r.recordId)

/-- The replies to a verb on a guest: its VM is looked up in NetBox. -/
def VerbAnswers (nb : NetBox) (legacyEnabled : Bool) (g : Guest) :
    (q : Verbs.Request) → Verbs.Reply q → Prop
  | .resolveVm, reply => ∀ v, reply = .ok (some v) →
    ∃ failures, resolveNetboxVmId nb legacyEnabled failures g = .ok (some v)
  | _, _ => True

/-- What writes journal entries about a guest. -/
inductive Action where
  | verb (allowedText : Json.Fields → String) (earlier : Verbs.Log)
    (cache : Option Verbs.CachedResponse) (inv : Verbs.Invocation)
    (served : Verbs.Served allowedText earlier cache)
  | qemuCreate (scrub scrubPayload : String → String) (name : Option String)
    (templateVmid : Option ℤ) (params : Except Exn Json.Fields) (inv : Intent.Invocation)
  | lxcCreate (scrub scrubPayload : String → String) (hostname ostemplate : Option String)
    (params : Except Exn Json.Fields) (inv : Intent.Invocation)
  | qemuUpdate (scrub scrubPayload : String → String)
    (delta : Json.Fields → Except Exn Json.Fields) (inv : Intent.Invocation)
  | lxcUpdate (scrub scrubPayload : String → String)
    (delta : Json.Fields → Except Exn Json.Fields) (inv : Intent.Invocation)
  | approve (scrub : String → String) (record : Intent.Record)
    (body : DeletionRequests.Target) (actor runUuid : String)
  | reject (scrub : String → String) (record : Intent.Record) (reason : Option String)
    (actor runUuid : String)
  | execute (scrub : String → String) (record : Intent.Record)
    (body : DeletionRequests.Target) (actor runUuid : String)

/-- The action is on the guest. -/
def Action.On (g : Guest) : Action → Prop
  | .verb _ _ _ inv _ => inv.endpointId = some g.endpointId ∧ inv.vmid = g.vmid
  | .qemuCreate _ _ _ _ _ inv | .lxcCreate _ _ _ _ _ inv | .qemuUpdate _ _ _ inv
  | .lxcUpdate _ _ _ inv => inv.context.endpointId = some g.endpointId ∧ inv.vmid = g.vmid
  | .approve _ record _ _ _ | .reject _ record _ _ _ | .execute _ record _ _ _ =>
    record.endpointId = g.endpointId ∧ record.target.vmid = g.vmid

/-- The assigned object of an entry that NetBox accepts from a verb. -/
def verbTarget : Verbs.Exchange → Option ℤ
  | ⟨.createJournal vmId _ _, ⟨.ok _, _⟩⟩ => some vmId
  | _ => none

/-- The assigned object of an entry that NetBox accepts from a dispatcher or a route. -/
def intentTarget : Prog.Exchange Intent.Request Intent.Reply → Option ℤ
  | ⟨.journal entry, .ok _⟩ => some entry.netboxVmId
  | _ => none

/-- The assigned objects of a run of a dispatcher or of a route. -/
def Targets {α : Type} (p : Intent.Dispatch α) (targets : List ℤ) : Prop :=
  ∃ log result, p.Runs log result ∧ targets = log.filterMap intentTarget

/-- The assigned objects of the entries that a run of the action writes. -/
def Action.Writes (nb : NetBox) (legacyEnabled : Bool) (g : Guest) :
    Action → List ℤ → Prop
  | .verb allowedText _ cache inv _, targets => ∃ log result,
    (Verbs.handle allowedText inv ⟨false, cache⟩).Runs log result ∧
      (∀ x ∈ log, VerbAnswers nb legacyEnabled g x.1 x.2) ∧ targets = log.filterMap verbTarget
  | .qemuCreate scrub scrubPayload name templateVmid params inv, targets =>
    Targets (Intent.dispatchQemuCreate scrub scrubPayload name templateVmid params inv) targets
  | .lxcCreate scrub scrubPayload hostname ostemplate params inv, targets =>
    Targets (Intent.dispatchLxcCreate scrub scrubPayload hostname ostemplate params inv) targets
  | .qemuUpdate scrub scrubPayload delta inv, targets =>
    Targets (Intent.dispatchQemuUpdate scrub scrubPayload delta inv) targets
  | .lxcUpdate scrub scrubPayload delta inv, targets =>
    Targets (Intent.dispatchLxcUpdate scrub scrubPayload delta inv) targets
  | .approve scrub record body actor runUuid, targets =>
    Targets (Intent.approveDeletionRequest scrub record body actor runUuid) targets
  | .reject scrub record reason actor runUuid, targets =>
    Targets (Intent.rejectDeletionRequest scrub record reason actor runUuid) targets
  | .execute scrub record body actor runUuid, targets =>
    Targets (Intent.executeDeletionRequest scrub record body actor runUuid) targets

/-- The action knows the VM that is bound to the guest: a verb looks it up, an intent dispatcher has
it from the diff or takes the vmid for its primary key, as a deletion request always does. -/
def Action.KnowsVm (nb : NetBox) (legacyEnabled : Bool) (g : Guest) : Action → Prop
  | .verb .. => True
  | .qemuCreate _ _ _ _ _ inv | .lxcCreate _ _ _ _ _ inv | .qemuUpdate _ _ _ inv
  | .lxcUpdate _ _ _ inv =>
    Binds nb legacyEnabled g.identity (Intent.orInt inv.context.netboxId g.vmid)
  | .approve .. | .reject .. | .execute .. => Binds nb legacyEnabled g.identity g.vmid

section Dispatchers

open Intent

variable {α β : Type} {t : ℤ} {scrub : String → String}

/-- The entries of a program are all assigned to one object. -/
def Assigns (t : ℤ) (p : Prog Request Reply α) : Prop :=
  ∀ log, p.Always (fun _ _ => True)
    (fun _ q => ∀ entry, q = .journal entry → entry.netboxVmId = t) (fun _ _ => True) log

theorem assigns_ret (a : α) : Assigns t (.ret a : Prog Request Reply α) := fun _ => trivial

theorem Assigns.prog_bind {p : Prog Request Reply α} {f : α → Prog Request Reply β}
    (hp : Assigns t p) (hf : ∀ a, Assigns t (f a)) : Assigns t (p.bind f) := by
  intro log
  rw [Prog.always_bind]
  exact (hp log).mono fun log a _ => hf a log

theorem Assigns.bind {p : Dispatch α} {f : α → Dispatch β} (hp : Assigns t p)
    (hf : ∀ a, Assigns t (f a)) : Assigns t (p.bind f) := by
  refine hp.prog_bind ?_
  rintro (e | a)
  · exact assigns_ret _
  · exact hf a

theorem Assigns.attempt {p : Dispatch α} {handler : Exn → Dispatch β} {f : α → Dispatch β}
    (hp : Assigns t p) (hhandler : ∀ e, Assigns t (handler e)) (hf : ∀ a, Assigns t (f a)) :
    Assigns t (Dispatch.attempt p handler f) := by
  refine hp.prog_bind ?_
  rintro (e | a)
  · dsimp only
    split
    · exact hhandler e
    · exact assigns_ret _
  · exact hf a

theorem assigns_ask (q : Request) (hq : ∀ entry, q ≠ .journal entry) :
    Assigns t (Dispatch.ask q) :=
  fun _ => ⟨fun entry h => absurd h (hq entry), fun _ _ => trivial⟩

theorem assigns_post {entry : Entry} (h : entry.netboxVmId = t) : Assigns t (post entry) := by
  have hask : Assigns t (Dispatch.ask (.journal entry)) := by
    refine fun _ => ⟨?_, fun _ _ => trivial⟩
    rintro entry' ⟨⟩
    exact h
  exact (assigns_ask _ (by simp)).attempt (fun _ => hask) fun _ => hask

theorem assigns_gate (endpointId : Option ℤ) : Assigns t (gate endpointId) := by
  cases endpointId with
  | none => exact assigns_ret _
  | some id =>
    refine (assigns_ask (.endpoint id) (by simp)).prog_bind ?_
    rintro (e | _ | endpoint)
    · exact assigns_ret _
    · exact assigns_ret _
    · dsimp only
      split
      · exact assigns_ret _
      · exact assigns_ret _

theorem assigns_writeIntentJournal {inv : Invocation} {endpoint : Option Verbs.Endpoint}
    {verb result : String} {kind : Verbs.JournalKind} {upid errorDetail : Option String} :
    Assigns (orInt inv.context.netboxId inv.vmid)
      (writeIntentJournal scrub inv endpoint verb result kind upid errorDetail) :=
  assigns_post rfl

theorem assigns_dispatchCreate {scrubPayload : String → String} {verb : String}
    {refusal : Option Refusal} {params : Except Exn Json.Fields} {inv : Invocation} :
    Assigns (orInt inv.context.netboxId inv.vmid)
      (dispatchCreate scrub scrubPayload verb refusal params inv) := by
  refine (assigns_gate _).bind ?_
  rintro (reason | endpoint)
  · exact assigns_writeIntentJournal.bind fun _ => assigns_ret _
  · dsimp only
    split
    · exact assigns_writeIntentJournal.bind fun _ => assigns_ret _
    · exact assigns_ret _
    · refine Assigns.attempt ?_ ?_ ?_
      · exact (assigns_ask .proxmoxSession (by simp)).bind fun _ =>
          (assigns_ret params).bind fun params => assigns_ask (.createGuest params) (by simp)
      · exact fun e => assigns_writeIntentJournal.bind fun _ => assigns_ret _
      · exact fun upid => assigns_writeIntentJournal.bind fun _ => assigns_ret _

theorem assigns_failUpdate {u : UpdateKind} {inv : Invocation} {endpoint : Option Verbs.Endpoint}
    {message : String} {reason : Option String} :
    Assigns (orInt inv.context.netboxId inv.vmid)
      (failUpdate scrub u inv endpoint message reason) :=
  assigns_writeIntentJournal.bind fun _ => assigns_ret _

theorem assigns_tryUpdate {u : UpdateKind} {delta : Json.Fields → Except Exn Json.Fields}
    {inv : Invocation} {endpoint : Verbs.Endpoint} :
    Assigns (orInt inv.context.netboxId inv.vmid) (tryUpdate scrub u delta inv endpoint) := by
  refine (assigns_ask .proxmoxSession (by simp)).bind fun _ =>
    (assigns_ask .nodeGuests (by simp)).bind fun guests => ?_
  split
  · exact (assigns_ask .clusterResources (by simp)).bind fun resources =>
      assigns_failUpdate.bind fun _ => assigns_ret _
  · refine (assigns_ask .currentConfig (by simp)).bind fun current =>
      (assigns_ret (delta current)).bind fun changes => ?_
    split
    · exact assigns_writeIntentJournal.bind fun _ => assigns_ret _
    · refine (assigns_ask .currentStatus (by simp)).bind fun status => ?_
      split
      · exact assigns_failUpdate.bind fun _ => assigns_ret _
      · exact (assigns_ask (.putConfig changes) (by simp)).bind fun _ => assigns_ret _

theorem assigns_dispatchUpdate {u : UpdateKind} {scrubPayload : String → String}
    {delta : Json.Fields → Except Exn Json.Fields} {inv : Invocation} :
    Assigns (orInt inv.context.netboxId inv.vmid)
      (dispatchUpdate scrub u scrubPayload delta inv) := by
  refine (assigns_gate _).bind ?_
  rintro (reason | endpoint)
  · exact assigns_failUpdate
  · refine assigns_tryUpdate.attempt (fun e => assigns_failUpdate) ?_
    rintro (item | ⟨upid, changes⟩)
    · exact assigns_ret _
    · exact assigns_writeIntentJournal.bind fun _ => assigns_ret _

theorem assigns_dispatchDestroy {kind : DeletionRequests.Kind} {context : Context} {vmid : ℤ}
    {node actor runUuid : String} {suppressJournal : Bool} :
    Assigns vmid (dispatchDestroy scrub kind context vmid node actor runUuid suppressJournal) := by
  have hjournal : ∀ endpoint endpointId note, Assigns vmid
      (if suppressJournal = true then Dispatch.pure ()
        else writeDeletionRequestJournal scrub endpoint endpointId vmid actor runUuid kind none
          note) := by
    intro endpoint endpointId note
    split
    · exact assigns_ret _
    · exact assigns_post rfl
  refine (assigns_gate _).bind ?_
  rintro (reason | endpoint)
  · exact (hjournal _ _ _).bind fun _ => assigns_ret _
  · refine Assigns.attempt ?_ ?_ ?_
    · exact (assigns_ask .proxmoxSession (by simp)).bind fun _ =>
        assigns_ask (.destroyGuest kind vmid node) (by simp)
    · exact fun e => (hjournal _ _ _).bind fun _ => assigns_ret _
    · exact fun upid => (hjournal _ _ _).bind fun _ => assigns_ret _

variable {record : Record} {request : DeletionRequests.Request} {actor runUuid : String}

theorem assigns_writeRouteJournal {endpoint : Option Verbs.Endpoint} {note : DeletionNote} :
    Assigns record.target.vmid (writeRouteJournal scrub endpoint record actor runUuid note) :=
  assigns_post rfl

/-- A route goes on only where its body names the guest of the record. -/
theorem assigns_checkedRoute {next : Verbs.Endpoint → Dispatch RouteResult}
    (hnext : ∀ endpoint, request.body.bind (DeletionRequests.targetMismatch record.target) = none →
      Assigns record.target.vmid (next endpoint)) :
    Assigns record.target.vmid (checkedRoute scrub record request actor runUuid next) := by
  refine Assigns.bind ?_ ?_
  · refine (assigns_gate _).bind ?_
    rintro (reason | endpoint)
    · exact assigns_writeRouteJournal.bind fun _ => assigns_ret _
    · exact assigns_ret _
  · rintro (reason | endpoint)
    · exact assigns_ret _
    · dsimp only
      split
      · exact assigns_writeRouteJournal.bind fun _ => assigns_ret _
      · rename_i hchecked
        apply hnext
        unfold DeletionRequests.checkRequest at hchecked
        split at hchecked
        · rename_i m hm
          cases m <;> simp [refusalText] at hchecked
        · assumption

theorem assigns_settleRoute {kind : Verbs.JournalKind} {reason : Option String} :
    Assigns record.target.vmid
      (settleRoute scrub record request actor runUuid kind reason) := by
  refine assigns_checkedRoute fun endpoint _ => ?_
  exact (assigns_ask (.saveRecord request.newState) (by simp)).bind fun _ =>
    assigns_writeRouteJournal.bind fun _ => assigns_ret _

theorem assigns_execute {body : DeletionRequests.Target} :
    Assigns record.target.vmid (executeDeletionRequest scrub record body actor runUuid) := by
  refine assigns_checkedRoute fun endpoint hbody => ?_
  have hvmid : body.vmid = record.target.vmid := by
    by_contra hne
    simp [DeletionRequests.Request.body, DeletionRequests.targetMismatch, Ne.symm hne] at hbody
  refine (assigns_ask (.saveRecord .executing) (by simp)).bind fun _ => ?_
  refine Assigns.attempt ?_ ?_ ?_
  · rw [hvmid]
    exact assigns_dispatchDestroy
  · exact fun e => (assigns_ask (.saveRecord .failed) (by simp)).bind fun _ => assigns_ret _
  · exact fun upid => (assigns_ask (.saveRecord .succeeded) (by simp)).bind fun _ => assigns_ret _

/-- The assigned objects of a program that assigns to one object. -/
theorem Assigns.targets {p : Dispatch α} (hp : Assigns t p) {targets : List ℤ}
    (h : Targets p targets) : ∀ t' ∈ targets, t' = t := by
  obtain ⟨log, result, hruns, rfl⟩ := h
  intro t' ht'
  obtain ⟨x, hx, htarget⟩ := List.mem_filterMap.mp ht'
  obtain ⟨before, after, hsplit⟩ := List.append_of_mem hx
  have hgood := (hp []).good_of_runs hruns (fun _ _ => trivial) hsplit
  obtain ⟨q, reply⟩ := x
  cases q with
  | journal entry =>
    cases reply with
    | error e => cases htarget
    | ok _ =>
      cases htarget
      exact hgood entry rfl
  | _ => cases htarget

theorem all_iff {P : ℤ → Prop} {targets : List ℤ} (h : ∀ t' ∈ targets, t' = t) :
    (∀ t' ∈ targets, P t') ↔ P t ∨ targets = [] := by
  cases targets with
  | nil => simp
  | cons t' targets =>
    constructor
    · intro hall
      left
      rw [← h t' (List.mem_cons_self ..)]
      exact hall t' (List.mem_cons_self ..)
    · rintro (hP | hnil)
      · intro t' ht'
        rwa [h t' ht']
      · cases hnil

end Dispatchers

/-- A VM that the resolver names is bound to the guest. -/
theorem binds_of_resolve {nb : NetBox} {legacyEnabled : Bool} {failures : Failures} {g : Guest}
    {v : ℤ} (h : resolveNetboxVmId nb legacyEnabled failures g = .ok (some v)) :
    Binds nb legacyEnabled g.identity v := by
  unfold resolveNetboxVmId at h
  split at h
  · cases h
  · unfold SyncState.resolveVirtualMachineBySyncState at h
    have hdesigned := SyncState.verdict_asDesigned nb legacyEnabled failures g.identity
    generalize SyncState.resolveUniqueVmIdentityCandidate nb failures legacyEnabled g.identity =
      verdict at h hdesigned
    obtain ⟨resolution, ambiguous⟩ := verdict
    cases resolution with
    | none => cases ambiguous <;> simp at h
    | some r =>
      obtain ⟨rfl, _, _, hbinds, _⟩ := hdesigned
      simp only [Bool.false_and, Bool.false_eq_true, if_false] at h
      cases h
      exact hbinds

/-- A verb assigns its entry to a VM that is bound to the guest. -/
theorem verb_binds {nb : NetBox} {legacyEnabled : Bool} {g : Guest}
    {allowedText : Json.Fields → String} {earlier log : Verbs.Log}
    {cache : Option Verbs.CachedResponse} {inv : Verbs.Invocation}
    {result : Except Exn Verbs.Response × Verbs.Ledger}
    (served : Verbs.Served allowedText earlier cache)
    (hruns : (Verbs.handle allowedText inv ⟨false, cache⟩).Runs log result)
    (hanswers : ∀ x ∈ log, VerbAnswers nb legacyEnabled g x.1 x.2) :
    ∀ t ∈ log.filterMap verbTarget, Binds nb legacyEnabled g.identity t := by
  intro t ht
  obtain ⟨x, hx, htarget⟩ := List.mem_filterMap.mp ht
  obtain ⟨before, after, hsplit⟩ := List.append_of_mem hx
  have hsafe := (Verbs.handle_rule [] ⟨false, cache⟩
    ⟨rfl, by rw [List.append_nil]; exact served.justified, rfl⟩).good_of_runs hruns
    (fun _ _ => trivial) hsplit
  obtain ⟨q, reply⟩ := x
  cases q with
  | createJournal vmId kind comments =>
    obtain ⟨outcome, cancelled⟩ := reply
    cases outcome with
    | error e => cases htarget
    | ok entry =>
      cases htarget
      have hresolved : (⟨.resolveVm, .ok (some t)⟩ : Verbs.Exchange) ∈ log := by
        rw [hsplit]
        exact List.mem_append_left _ hsafe.1
      obtain ⟨failures, hresolve⟩ := hanswers _ hresolved t rfl
      exact binds_of_resolve hresolve
  | _ => cases htarget

/-- The entries of an action are assigned to the VM that is bound to the guest if and only if the
action knows that VM, or writes none. -/
theorem anchored_iff {nb : NetBox} {legacyEnabled : Bool} {g : Guest} {action : Action}
    {targets : List ℤ} (hon : action.On g) (h : action.Writes nb legacyEnabled g targets) :
    (∀ t ∈ targets, Binds nb legacyEnabled g.identity t) ↔
      action.KnowsVm nb legacyEnabled g ∨ targets = [] := by
  cases action with
  | verb allowedText earlier cache inv served =>
    obtain ⟨log, result, hruns, hanswers, rfl⟩ := h
    exact iff_of_true (verb_binds served hruns hanswers) (.inl trivial)
  | qemuCreate =>
    have htargets := assigns_dispatchCreate.targets h
    rw [hon.2] at htargets
    exact all_iff htargets
  | lxcCreate =>
    have htargets := assigns_dispatchCreate.targets h
    rw [hon.2] at htargets
    exact all_iff htargets
  | qemuUpdate =>
    have htargets := assigns_dispatchUpdate.targets h
    rw [hon.2] at htargets
    exact all_iff htargets
  | lxcUpdate =>
    have htargets := assigns_dispatchUpdate.targets h
    rw [hon.2] at htargets
    exact all_iff htargets
  | approve =>
    have htargets := assigns_settleRoute.targets h
    rw [hon.2] at htargets
    exact all_iff htargets
  | reject =>
    have htargets := assigns_settleRoute.targets h
    rw [hon.2] at htargets
    exact all_iff htargets
  | execute =>
    have htargets := assigns_execute.targets h
    rw [hon.2] at htargets
    exact all_iff htargets

theorem boundToSeven_installed :
    true = false → ([⟨some 7, some 100, some 1⟩] : List SyncState.SidecarRow) = [] := by decide

/-- VM 7 is bound to guest 100 of endpoint 1; VM 100 is another VM. -/
def boundToSeven : NetBox where
  vms := [⟨7, some 1, none, none⟩, ⟨100, some 1, none, none⟩]
  rows := [⟨some 7, some 100, some 1⟩]
  sidecarInstalled := true
  distinct := by decide
  installed := boundToSeven_installed

theorem binds_boundToSeven_iff {g : Guest} {v : ℤ} :
    Binds boundToSeven false g.identity v ↔ v = 7 ∧ g.vmid = 100 ∧ g.endpointId = 1 := by
  obtain ⟨endpointId, vmid, hpos⟩ := g
  constructor
  · rintro ⟨vm, hvm, rfl, ⟨row, hrow, hid, _⟩ | ⟨hlegacy, _⟩⟩
    · obtain ⟨hmem, hadmits⟩ := List.mem_filter.mp hrow
      obtain rfl := List.mem_singleton.mp hmem
      simp only [Guest.identity, SyncState.admits, Bool.and_eq_true, decide_eq_true_eq,
        Option.some.injEq] at hid hadmits
      exact ⟨hid.symm, hadmits.1.symm, hadmits.2.symm⟩
    · cases hlegacy
  · rintro ⟨rfl, hvmid, hendpoint⟩
    dsimp only at hvmid hendpoint
    subst hvmid hendpoint
    refine ⟨⟨7, some 1, none, none⟩, by decide, rfl, .inl ⟨⟨some 7, some 100, some 1⟩, ?_, rfl,
      rfl⟩⟩
    exact List.mem_filter.mpr ⟨List.mem_singleton_self _, rfl⟩

theorem boundToSeven_injective : BindsInjectively boundToSeven false := by
  simp only [BindsInjectively, binds_boundToSeven_iff]
  refine ⟨fun g v v' h h' => h.1.trans h'.1.symm, ?_⟩
  rintro ⟨e, n, hpos⟩ ⟨e', n', hpos'⟩ v ⟨_, hn, he⟩ ⟨_, hn', he'⟩
  dsimp only at hn he hn' he'
  subst hn he hn' he'
  rfl

def guest100 : Guest := ⟨1, 100, Int.zero_lt_one⟩

/-- The approval of the deletion of guest 100. -/
def approval : Action :=
  .approve id ⟨3, 1, ⟨100, "pve1", .qemu⟩, .pending⟩ ⟨100, "pve1", .qemu⟩ "alice" "run-1"

def approvalLog : List (Prog.Exchange Intent.Request Intent.Reply) :=
  [⟨.endpoint 1, .ok (some ⟨1, "pve", true⟩)⟩, ⟨.saveRecord .approved, .ok ()⟩,
    ⟨.netboxSession, .ok ()⟩,
    ⟨.journal ⟨100, .success, "deletion_request_approve", "succeeded", "alice", "pve", 1, 100,
      "run-1", none, none, some .qemu, some 3, none⟩, .ok ()⟩]

theorem approval_writes : approval.Writes boundToSeven false guest100 [100] :=
  ⟨approvalLog, .ok (.record ⟨3, 1, ⟨100, "pve1", .qemu⟩, .approved⟩),
    .ask _ (.ask _ (.ask _ (.ask _ (.ret _)))), rfl⟩

theorem anchored_iff_approval : (∀ t ∈ [(100 : ℤ)], Binds boundToSeven false guest100.identity t) ↔
    approval.KnowsVm boundToSeven false guest100 ∨ [(100 : ℤ)] = [] :=
  anchored_iff ⟨rfl, rfl⟩ approval_writes

/-- The approval of the deletion of a guest is recorded on another VM, whose primary key is the
vmid. -/
theorem approval_on_other_vm : BindsInjectively boundToSeven false ∧ approval.On guest100 ∧
    approval.Writes boundToSeven false guest100 [100] ∧
      Binds boundToSeven false guest100.identity 7 ∧
        ¬Binds boundToSeven false guest100.identity 100 ∧ ∃ vm ∈ boundToSeven.vms, vm.id = 100 := by
  refine ⟨boundToSeven_injective, ⟨rfl, rfl⟩, approval_writes, ?_, ?_, by decide⟩
  · exact binds_boundToSeven_iff.mpr ⟨rfl, rfl, rfl⟩
  · intro h
    exact absurd (binds_boundToSeven_iff.mp h).1 (by decide)

end ProxboxApi.JournalAnchors
