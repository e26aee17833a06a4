import ProxboxApi.VerbHandlers

/-! The cancellation of a migration that is under way. -/

namespace ProxboxApi.Verbs

open Requests

/-- A request to cancel a migration: it has no idempotency key. -/
structure Cancellation where
  vmid : ℤ
  taskUpid : String
  endpointId : Option ℤ
  actor : String
  dispatchedAt : String

/-- The invocation that the journal of the cancellation is of. -/
def Cancellation.invocation (c : Cancellation) : Invocation where
  call := .migrate "" false
  vmid := c.vmid
  endpointId := c.endpointId
  idempotencyKey := none
  actor := c.actor
  dispatchedAt := c.dispatchedAt
  stamp := ""

/-- What the journal says of a cancellation that is interrupted. -/
def finalizeInterruptedCancel (a : Audit) (taskUpid : String) (e : Exn) : Handler Unit :=
  Step.read fun ledger =>
    if ledger.terminal then Step.ret ()
    else
      let (result, detail, reason) := unexpectedDispatchResult e
      (auditAndRespond a ⟨result, .warning, some taskUpid, some detail, 500, some reason⟩).bind
        fun _ => Step.ret ()

/-- The call of `_handle_migrate_cancel`, and the audit of its outcome. -/
def dispatchCancel (a : Audit) (taskUpid : String) : Handler (Except Exn Response) :=
  (ask (.mutate (.cancelTask taskUpid))).bind fun
    | .error (.proxmoxApi message) => auditAndRespond a
        ⟨.cancelFailed, .warning, some taskUpid, some message, 502, some "proxmox_cancel_failed"⟩
    | .error e => (finalizeInterruptedCancel a taskUpid e).bind fun _ => Step.ret (.error e)
    | .ok _ => auditAndRespond a ⟨.cancelRequested, .info, some taskUpid, none, 200, none⟩

/-- `_handle_migrate_cancel`. -/
def handleMigrateCancel (c : Cancellation) : Handler (Except Exn Response) :=
  (gate c.invocation "endpoint_writes_disabled").bind fun
    | .error e => Step.ret (.error e)
    | .ok (.error response) => Step.ret (.ok response)
    | .ok (.ok endpoint) => (ask .netboxSession).bind fun
      | .error e =>
        if e.isProxbox then Step.ret (.ok (refuse 502 "netbox_session_unavailable"))
        else Step.ret (.error e)
      | .ok () => (prepare c.invocation endpoint).bind fun
        | .error e => Step.ret (.error e)
        | .ok (.respond response) => Step.ret (.ok response)
        | .ok (.entry a) => dispatchCancel a c.taskUpid

end ProxboxApi.Verbs
