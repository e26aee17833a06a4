import ProxboxApi.LeaseRuns
import ProxboxApi.ServerRuns

/-! `provision_vm` and the generator of the provision stream on the same Proxmox. -/

namespace ProxboxApi.CloudProvision

open Requests

variable (cfg : Settings) {τ : Type}

/-- Proxmox and NetBox, and a client that reads every event of the stream. -/
structure Server (τ : Type) where
  answer : (q : Request) → τ → Reply q × τ
  emits : ∀ event t, answer (.emit event) t = (.ok (), t)

/-- What both programs have in common: all requests but the clean-up and the events before the last
one. -/
def sees : Request → Bool
  | .release _ | .closeSession | .emit .terminalLine | .emit (.provisionStep ..)
  | .emit (.complete false) => false
  | _ => true

abbrev Wait := String → Option String → Act Unit

def noWait : Wait := fun _ _ => Attempt.ret ()

/-- The steps on an open session, without handlers and events. -/
def plainSteps (wait : Wait) (finish : Act Unit) (req : CloudVMProvisionRequest)
    (lease : Option Lease) : Act Unit :=
  (cloneTemplateVm cfg req).bind fun _ =>
  (configureCloudInitVm cfg req).bind fun task =>
  (wait req.targetNode task).bind fun _ =>
  (resizeVmDisk cfg req).bind fun task =>
  (wait req.targetNode task).bind fun _ =>
  (startVmAfterProvision cfg req).bind fun _ =>
  (journalProvisionBestEffort cfg).bind fun _ =>
  (bindAllocatedIpToVmBestEffort req lease).bind fun _ => finish

def plainVm (wait : Wait) (finish : Act Unit) (req : CloudVMProvisionRequest) : Act Unit :=
  (prepareQemuCloudNetworkRequest cfg req).bind fun (req, lease) =>
  (Attempt.modify fun locals => { locals with lease }).bind fun _ =>
  (Attempt.ask .openSession id).bind fun _ =>
  (Attempt.modify fun locals => { locals with opened := true }).bind fun _ =>
  plainSteps cfg wait finish req lease

section Hidden

theorem hidden_release (lease : Option Lease) :
    Attempt.Hidden sees (fun _ => True) (releaseCloudNetworkLease lease) := by
  unfold releaseCloudNetworkLease bestEffort
  split
  · exact Attempt.Hidden.ret trivial
  · refine Attempt.Hidden.handle (Attempt.Hidden.ask rfl fun _ _ _ => trivial) fun e => ?_
    split
    · exact Attempt.Hidden.ret trivial
    · exact Attempt.Hidden.throw

theorem hidden_settle : Attempt.Hidden sees (fun _ => True) settleLeaseRelease := by
  refine Attempt.Hidden.read fun locals => Attempt.Hidden.seq ?_ fun _ =>
    Attempt.Hidden.modify trivial
  split
  · exact hidden_release _
  · exact Attempt.Hidden.ret trivial

theorem hidden_close : Attempt.Hidden sees (fun _ => True) closeSession := by
  refine Attempt.Hidden.read fun locals => ?_
  split
  · exact Attempt.Hidden.ask rfl fun _ _ _ => trivial
  · exact Attempt.Hidden.ret trivial

theorem hidden_emit {event : Event} (h : sees (.emit event) = false) :
    Attempt.Hidden sees (fun _ => True) (emit event) :=
  Attempt.Hidden.ask h fun _ _ _ => trivial

end Hidden

variable {cfg} {server : Server τ} {α β γ : Type}

theorem Server.silent_emit (server : Server τ) {event : Event} (h : sees (.emit event) = false) :
    Step.Silent sees server.answer (.ok ()) (emit event) := by
  intro s t
  constructor
  · have hlog : ((emit event s).traceFrom server.answer t).1 =
        [⟨.emit event, (server.answer (.emit event) t).1⟩] := rfl
    rw [hlog, Step.seen, List.filter_cons, if_neg (by simp [h])]
    rfl
  · have hrun : (emit event s).run server.answer t =
        (((server.answer (.emit event) t).1, s), (server.answer (.emit event) t).2) := rfl
    rw [hrun, server.emits]

/-- The rollback is not seen. -/
theorem agrees_rollback (op : Act α) (lease : Option Lease) :
    Attempt.Agrees sees server.answer some some
      (runProxmoxStepWithCloudNetworkRollback op lease) op := by
  refine Attempt.Agrees.handle (Attempt.Agrees.refl op) fun e => ?_
  split
  · exact Attempt.Hidden.seq (hidden_release lease) fun _ => Attempt.Hidden.throw
  · exact Attempt.Hidden.throw

variable (cfg) in
theorem agrees_provisionVmSteps (req : CloudVMProvisionRequest) (lease : Option Lease) :
    Attempt.Agrees sees server.answer (fun _ => some ()) some (provisionVmSteps cfg req lease)
      (plainSteps cfg (waitForTask cfg) (Attempt.ret ()) req lease) := by
  refine Attempt.Agrees.step (agrees_rollback _ _) fun _ => ?_
  refine Attempt.Agrees.step (agrees_rollback _ _) fun _ => ?_
  refine Attempt.Agrees.step (agrees_rollback _ _) fun _ => ?_
  refine Attempt.Agrees.step (agrees_rollback _ _) fun _ => ?_
  refine Attempt.Agrees.step (agrees_rollback _ _) fun _ => ?_
  refine Attempt.Agrees.step (agrees_rollback _ _) fun _ => ?_
  refine Attempt.Agrees.step (Attempt.Agrees.refl _) fun _ => ?_
  refine Attempt.Agrees.step (Attempt.Agrees.refl _) fun _ => ?_
  exact fun _ _ => ⟨rfl, rfl, fun _ => ⟨rfl, rfl⟩⟩

/-- `provision_vm` shows what the plain steps with their waits show. -/
theorem provisionVm_seen (req : CloudVMProvisionRequest) (s : Locals) (t : τ) :
    Step.seen sees ((provisionVm cfg req s).traceFrom server.answer t).1 =
        Step.seen sees ((plainVm cfg (waitForTask cfg) (Attempt.ret ()) req s).traceFrom
          server.answer t).1 ∧
      ∀ response, ((provisionVm cfg req s).run server.answer t).1.1 = .ok response →
        ((plainVm cfg (waitForTask cfg) (Attempt.ret ()) req s).run server.answer t).1.1 =
          .ok () := by
  have hbody : Attempt.Agrees sees server.answer (fun _ => some ()) some
      (((prepareQemuCloudNetworkRequest cfg req).bind fun (req, lease) =>
        (Attempt.modify fun locals => { locals with lease }).bind fun _ =>
        (runProxmoxStepWithCloudNetworkRollback (Attempt.ask .openSession id) lease).bind fun _ =>
        (Attempt.modify fun locals => { locals with opened := true }).bind fun _ =>
        provisionVmSteps cfg req lease).handle fun e => Attempt.read fun locals =>
          if e.isException ∧ e ≠ .http then
            (releaseCloudNetworkLease locals.lease).bind fun _ => Attempt.throw e
          else Attempt.throw e)
      (plainVm cfg (waitForTask cfg) (Attempt.ret ()) req) := by
    refine Attempt.Agrees.handle ?_ fun e => Attempt.Hidden.read fun locals => ?_
    · refine Attempt.Agrees.step (Attempt.Agrees.refl _) fun p => ?_
      refine Attempt.Agrees.step (Attempt.Agrees.refl _) fun _ => ?_
      refine Attempt.Agrees.step (agrees_rollback _ _) fun _ => ?_
      exact Attempt.Agrees.step (Attempt.Agrees.refl _) fun _ => agrees_provisionVmSteps cfg _ _
    · split
      · exact Attempt.Hidden.seq (hidden_release _) fun _ => Attempt.Hidden.throw
      · exact Attempt.Hidden.throw
  obtain ⟨hseen, hview, _⟩ := hbody s t
  refine ⟨(Attempt.seen_ensure hidden_close s t).trans hseen, fun response h => ?_⟩
  rw [Attempt.ok_of_ensure h] at hview
  cases hplain : ((plainVm cfg (waitForTask cfg) (Attempt.ret ()) req s).run server.answer t).1.1 with
  | ok u => rfl
  | error e =>
    rw [hplain] at hview
    cases hview

/-- A phase goes on where its result is `true`. -/
def goesOn (ok : Bool) : Option Unit := if ok then some () else none

theorem agrees_phaseResult (op : Act α) :
    Attempt.Agrees sees server.answer id some (phaseResult op) op := by
  refine Attempt.Agrees.handle ?_ fun e => ?_
  · have hreturns : Attempt.Agrees sees server.answer id some
        (op.bind fun a => Attempt.ret (some a)) (op.bind Attempt.ret) :=
      Attempt.Agrees.step (Attempt.Agrees.refl _) fun _ _ _ => ⟨rfl, rfl, fun _ => ⟨rfl, rfl⟩⟩
    rwa [Attempt.bind_ret] at hreturns
  · split
    · exact Attempt.Hidden.ret rfl
    · exact Attempt.Hidden.throw

theorem agrees_emitPhase (step : String) (op : Act (Option String)) :
    Attempt.Agrees sees server.answer goesOn (fun _ => some ()) (emitPhase step op) op := by
  refine Attempt.Agrees.skip (server.silent_emit rfl) ?_
  refine Attempt.Agrees.skip (server.silent_emit rfl) ?_
  refine (congrArg (Attempt.Agrees sees server.answer goesOn (fun _ => some ()) _)
    (Attempt.bind_ret op)).mp ?_
  refine Attempt.Agrees.bind (agrees_phaseResult op) (fun a b c ha hb => ?_) (fun a ha => ?_) nofun
  · obtain rfl : a = some c := ha
    refine Attempt.Agrees.skip (server.silent_emit rfl) ?_
    refine Attempt.Agrees.skip (server.silent_emit rfl) ?_
    exact fun _ _ => ⟨rfl, rfl, fun _ => ⟨rfl, rfl⟩⟩
  · obtain rfl : a = none := ha
    exact Attempt.Hidden.seq (hidden_emit rfl) fun _ =>
      Attempt.Hidden.seq (hidden_emit rfl) fun _ => Attempt.Hidden.ret rfl

theorem agrees_skipPhase (step : String) (a : α) :
    Attempt.Agrees sees server.answer goesOn (fun _ => some ()) (skipPhase step)
      (Attempt.ret a : Act α) :=
  Attempt.Agrees.skip (server.silent_emit rfl) fun _ _ => ⟨rfl, rfl, fun _ => ⟨rfl, rfl⟩⟩

/-- A phase of the stream before what comes after it. -/
theorem agrees_phase {phase : Act Bool} {phases : List (Act Bool)} {op : Act α}
    {finish : Bool → Act Unit} {rest : α → Act Unit}
    (hphase : Attempt.Agrees sees server.answer goesOn (fun _ => some ()) phase op)
    (hrest : ∀ a, Attempt.Agrees sees server.answer (fun _ => (none : Option Unit)) (fun _ => none)
      ((emitPhases phases).bind finish) (rest a))
    (hfalse : Attempt.Hidden sees (fun _ => True) (finish false)) :
    Attempt.Agrees sees server.answer (fun _ => (none : Option Unit)) (fun _ => none)
      ((emitPhases (phase :: phases)).bind finish) (op.bind rest) := by
  have hassoc : (emitPhases (phase :: phases)).bind finish =
      phase.bind fun ok => (if ok then emitPhases phases else Attempt.ret false).bind finish := by
    rw [emitPhases, Attempt.bind_assoc]
    congr 1
    funext ok
    cases ok <;> rfl
  rw [hassoc]
  refine Attempt.Agrees.bind hphase (fun ok b c hok _ => ?_) (fun ok hok => ?_) nofun
  · cases ok with
    | true => exact hrest b
    | false => cases hok
  · cases ok with
    | true => cases hok
    | false => exact Step.Hidden.mono hfalse fun _ _ _ _ => rfl

variable (cfg) in
theorem agrees_streamSteps (req : CloudVMProvisionRequest) (lease : Option Lease) :
    Attempt.Agrees sees server.answer (fun _ => (none : Option Unit)) (fun _ => none)
      (streamSteps cfg req lease) (plainSteps cfg noWait (emit (.complete true)) req lease) := by
  have hsettle := hidden_settle
  refine Attempt.Agrees.skip (server.silent_emit rfl) ?_
  refine agrees_phase (agrees_emitPhase _ _) (fun _ => ?_) hsettle
  refine agrees_phase (agrees_emitPhase _ _) (fun _ => ?_) hsettle
  change Attempt.Agrees _ _ _ _ _ ((resizeVmDisk cfg req).bind _)
  refine agrees_phase ?_ (fun _ => ?_) hsettle
  · unfold emitResizeDiskEvents resizeVmDisk
    cases req.diskGb with
    | none => exact agrees_skipPhase _ _
    | some size => exact agrees_emitPhase _ _
  change Attempt.Agrees _ _ _ _ _ ((startVmAfterProvision cfg req).bind _)
  refine agrees_phase ?_ (fun _ => ?_) hsettle
  · unfold emitStartVmEvents startVmAfterProvision
    split
    · exact agrees_emitPhase _ _
    · exact agrees_skipPhase _ _
  change Attempt.Agrees _ _ _ _ ((emit .terminalLine).bind _) _
  refine Attempt.Agrees.skip (server.silent_emit rfl) ?_
  refine Attempt.Agrees.step (Attempt.Agrees.refl _) fun _ => ?_
  refine Attempt.Agrees.step (Attempt.Agrees.refl _) fun _ => ?_
  exact fun _ _ => ⟨rfl, by simp [Attempt.viewed], by simp [Attempt.viewed]⟩

/-- The generator shows what the plain steps without a wait show, with an event after the last. -/
theorem provisionStream_seen (req : CloudVMProvisionRequest) (s : Locals) (t : τ) :
    Step.seen sees ((provisionStreamGenerator cfg req s).traceFrom server.answer t).1 =
      Step.seen sees ((plainVm cfg noWait (emit (.complete true)) req s).traceFrom
        server.answer t).1 := by
  have hbody : Attempt.Agrees sees server.answer (fun _ => (none : Option Unit)) (fun _ => none)
      ((streamBody cfg req).handle fun e =>
        if e = .generatorExit then Attempt.throw e
        else settleLeaseRelease.bind fun _ => emit (.complete false))
      (plainVm cfg noWait (emit (.complete true)) req) := by
    refine Attempt.Agrees.handle ?_ fun e => ?_
    · refine Attempt.Agrees.step (Attempt.Agrees.refl _) fun p => ?_
      refine Attempt.Agrees.step (Attempt.Agrees.refl _) fun _ => ?_
      refine Attempt.Agrees.skip (server.silent_emit rfl) ?_
      refine Attempt.Agrees.bind (agrees_phaseResult _) (fun a b c ha hb => ?_) (fun a ha => ?_) nofun
      · obtain rfl : a = some c := ha
        exact Attempt.Agrees.step (Attempt.Agrees.refl _) fun _ => agrees_streamSteps cfg _ _
      · obtain rfl : a = none := ha
        refine Attempt.Hidden.seq hidden_settle fun _ => Attempt.Hidden.seq (hidden_emit rfl) fun _ => ?_
        exact Step.Hidden.mono (hidden_emit rfl) fun _ _ _ _ => rfl
    · split
      · exact Attempt.Hidden.throw
      · refine Attempt.Hidden.seq hidden_settle fun _ => ?_
        exact Step.Hidden.mono (hidden_emit rfl) fun _ _ _ _ => rfl
  have hcleanup : Attempt.Hidden sees (fun _ => True)
      (settleLeaseRelease.bind fun _ => closeSession) :=
    Attempt.Hidden.seq hidden_settle fun _ => hidden_close
  exact (Attempt.seen_ensure hcleanup s t).trans (hbody s t).1

/-- The last step of the plain steps comes after all others. -/
theorem plainVm_finish (wait : Wait) (finish : Act Unit) (req : CloudVMProvisionRequest) :
    plainVm cfg wait finish req =
      (plainVm cfg wait (Attempt.ret ()) req).bind fun _ => finish := by
  simp only [plainVm, plainSteps, Attempt.bind_assoc]
  rfl

end ProxboxApi.CloudProvision
