import ProxboxApi.Steps
import ProxboxApi.Python
import ProxboxApi.VmQueue

/-! The handlers of the operational verbs, as programs of requests to the endpoint store, to Proxmox
and to the NetBox journal.  A request that is awaited behind a shield goes on when the handler is
cancelled; any other is replied to by the exception that ends its await. -/

namespace ProxboxApi.Verbs

open Requests
open VmQueue (field)

inductive Verb where
  | start
  | stop
  | snapshot
  | migrate
  | reboot
  | delete
  | backup
  | deleteSnapshot
  deriving DecidableEq, Repr

def Verb.name : Verb → String
  | .start => "start"
  | .stop => "stop"
  | .snapshot => "snapshot"
  | .migrate => "migrate"
  | .reboot => "reboot"
  | .delete => "delete"
  | .backup => "backup"
  | .deleteSnapshot => "delete_snapshot"

inductive JournalKind where
  | info
  | success
  | warning
  | danger
  deriving DecidableEq, Repr

/-- The `result` line of a journal entry. -/
inductive Result where
  | inProgress
  | ok
  | accepted
  | alreadyRunning
  | alreadyStopped
  | rejected
  | interrupted
  | failed
  | cancelRequested
  | cancelFailed
  deriving DecidableEq, Repr

def Result.name : Result → String
  | .inProgress => "in_progress"
  | .ok => "ok"
  | .accepted => "accepted"
  | .alreadyRunning => "already_running"
  | .alreadyStopped => "already_stopped"
  | .rejected => "rejected"
  | .interrupted => "interrupted"
  | .failed => "failed"
  | .cancelRequested => "cancel_requested"
  | .cancelFailed => "cancel_failed"

/-- An exception: `ProxmoxAPIError`, another `ProxboxException`, another `Exception`, the
`CancelledError`, or another `BaseException`. -/
inductive Exn where
  | proxmoxApi (message : String)
  | proxbox (message : String)
  | exception (type message : String)
  | cancelled
  | fatal (type message : String)
  deriving DecidableEq, Repr

/-- `isinstance(error, Exception)`. -/
def Exn.isException : Exn → Bool
  | .proxmoxApi _ | .proxbox _ | .exception _ _ => true
  | .cancelled | .fatal _ _ => false

def Exn.isProxbox : Exn → Bool
  | .proxmoxApi _ | .proxbox _ => true
  | _ => false

def Exn.type : Exn → String
  | .proxmoxApi _ => "ProxmoxAPIError"
  | .proxbox _ => "ProxboxException"
  | .exception type _ | .fatal type _ => type
  | .cancelled => "CancelledError"

/-- `str(error)`. -/
def Exn.message : Exn → String
  | .proxmoxApi message | .proxbox message | .exception _ message | .fatal _ message => message
  | .cancelled => ""

structure Endpoint where
  id : ℤ
  name : String
  allowWrites : Bool
  deriving DecidableEq, Repr

/-- The lines of the `comments` of a journal entry. -/
structure JournalComments where
  verb : Verb
  actor : String
  result : Result
  endpointName : String
  endpointId : ℤ
  dispatchedAt : String
  proxmoxTaskUpid : Option String
  idempotencyKey : Option String
  errorDetail : Option String
  deriving DecidableEq, Repr

/-- `build_journal_comments`. -/
def JournalComments.text (c : JournalComments) : String :=
  "\n".intercalate (["Proxbox operational verb dispatched.", "", "- verb: " ++ c.verb.name,
    "- actor: " ++ c.actor, "- result: " ++ c.result.name] ++
    (c.proxmoxTaskUpid.map ("- proxmox_task_upid: " ++ ·)).toList ++
    (c.idempotencyKey.map ("- idempotency_key: " ++ ·)).toList ++
    ["- endpoint: " ++ c.endpointName ++ " (id=" ++ toString c.endpointId ++ ")",
      "- dispatched_at: " ++ c.dispatchedAt] ++
    (c.errorDetail.map ("- error_detail: " ++ ·)).toList)

/-- The writes to Proxmox. -/
inductive Mutation where
  | startVm
  | stopVm
  | rebootVm
  | createVmSnapshot (name : String) (description : Option String)
  | backupVm (storage mode compress : String) (notes : Option String)
  | deleteVmSnapshot (name : String)
  | migrateVm (target : String) (online : Bool)
  | cancelTask (taskUpid : String)
  | destroy
  deriving DecidableEq, Repr

/-- A resource of `cluster/resources`. -/
structure Resource where
  vmid : Option ℤ
  node : Option String

/-- A journal entry that NetBox has created, and the rest of its answer. -/
structure JournalEntry where
  id : ℤ
  others : Json.Fields

/-- The JSON object that answers the POST. -/
def JournalEntry.body (entry : JournalEntry) : Json.Fields := ("id", .int entry.id) :: entry.others

/-- The outcome of a task that is awaited behind a shield, and whether the handler was cancelled
meanwhile. -/
structure Shielded (α : Type) where
  result : Except Exn α
  cancelled : Bool

inductive Request where
  | endpoint (id : ℤ)
  | netboxSession
  | singleFlight
  | proxmoxSession
  | clusterResources
  | resolveVm
  | createJournal (vmId : ℤ) (kind : JournalKind) (comments : JournalComments)
  | vmStatus
  | migratePreflight
  | mutate (m : Mutation)
  | updateJournal (entryId : ℤ) (kind : JournalKind) (comments : JournalComments)

/-- Rows, records and task ids, or the exception that is raised. -/
abbrev Reply : Request → Type
  | .endpoint _ => Except Exn (Option Endpoint)
  | .netboxSession | .singleFlight | .proxmoxSession => Except Exn Unit
  | .clusterResources => Except Exn (List Resource)
  | .resolveVm => Except Exn (Option ℤ)
  | .createJournal .. => Shielded JournalEntry
  | .vmStatus => Except Exn (Option String)
  | .migratePreflight => Except Exn Json.Fields
  | .mutate _ => Except Exn (Option String)
  | .updateJournal .. => Shielded Unit

/-- The private metadata for a retry of the finalization. -/
structure RetryMetadata where
  entryId : ℤ
  kind : JournalKind
  comments : JournalComments
  interruptedComments : JournalComments
  failedComments : JournalComments
  terminalStatusCode : ℕ

/-- A response: its status code, its `reason`, and whether it lacks `journal_finalized: false`. -/
structure Response where
  statusCode : ℕ
  reason : Option String
  finalized : Bool
  deriving DecidableEq, Repr

/-- An answer in the idempotency cache. -/
structure CachedResponse where
  response : Response
  retry : Option RetryMetadata

/-- The sentinel on the write-ahead entry, and the cache entry of the request's key. -/
structure Ledger where
  terminal : Bool
  cache : Option CachedResponse

abbrev Handler (α : Type) := Step Request Reply Ledger α

def ask (q : Request) : Handler (Reply q) := Step.request q

/-- `IdempotencyCache.store`: a finalized answer is not replaced by one that is not. -/
def CachedResponse.store (new : CachedResponse) : Option CachedResponse → Option CachedResponse
  | none => some new
  | some old =>
    let newUnfinalized := new.retry.isSome || !new.response.finalized
    let existingFinalized := old.retry.isNone && old.response.finalized
    if existingFinalized && newUnfinalized then some old else some new

/-- `_mark_journal_entry_terminal`. -/
def markTerminal : Handler Unit := Step.modify fun ledger => { ledger with terminal := true }

def storeCached (new : CachedResponse) : Handler Unit :=
  Step.modify fun ledger => { ledger with cache := new.store ledger.cache }

/-- What a handler knows once the journal entry is to be finalized. -/
structure Audit where
  verb : Verb
  actor : String
  endpoint : Endpoint
  dispatchedAt : String
  idempotencyKey : Option String
  entryId : ℤ

/-- The comments of the invocation. -/
def Audit.comments (a : Audit) (result : Result) (upid detail : Option String) :
    JournalComments where
  verb := a.verb
  actor := a.actor
  result := result
  endpointName := a.endpoint.name
  endpointId := a.endpoint.id
  dispatchedAt := a.dispatchedAt
  proxmoxTaskUpid := upid
  idempotencyKey := a.idempotencyKey
  errorDetail := detail

/-- A key that is not empty is a cache key. -/
def cacheKeyed (idempotencyKey : Option String) : Bool :=
  match idempotencyKey with
  | some key => key ≠ ""
  | none => false

/-- `_best_effort_mark_journal_terminal`. -/
def bestEffortMarkJournalTerminal (entryId : ℤ) (comments : JournalComments) : Handler Unit :=
  (ask (.updateJournal entryId .warning comments)).bind fun
    | ⟨.ok _, _⟩ => markTerminal
    | ⟨.error _, _⟩ => Step.ret ()

/-- `_update_journal_entry_resistant_to_cancellation`. -/
def updateJournalEntryResistantToCancellation (entryId : ℤ) (kind : JournalKind)
    (comments interruptedComments failedComments : JournalComments) : Handler (Except Exn Unit) :=
  (ask (.updateJournal entryId kind comments)).bind fun
    | ⟨.ok _, false⟩ => markTerminal.bind fun _ => Step.ret (.ok ())
    | ⟨.ok _, true⟩ => markTerminal.bind fun _ => Step.ret (.error .cancelled)
    | ⟨.error e, cancelled⟩ =>
      if cancelled || e = .cancelled then
        (bestEffortMarkJournalTerminal entryId interruptedComments).bind fun _ =>
          Step.ret (.error .cancelled)
      else if e.isException then Step.ret (.error e)
      else (bestEffortMarkJournalTerminal entryId failedComments).bind fun _ =>
        Step.ret (.error e)

/-- `_retry_cached_journal_finalization`: whether the entry is finalized. -/
def retryCachedJournalFinalization (m : RetryMetadata) : Handler (Except Exn Bool) :=
  (updateJournalEntryResistantToCancellation m.entryId m.kind m.comments m.interruptedComments
    m.failedComments).bind fun
    | .ok _ => Step.ret (.ok true)
    | .error e => if e.isException then Step.ret (.ok false) else Step.ret (.error e)

def finalizationFailed : String := "netbox_journal_finalization_failed"

/-- `_cached_idempotency_response`, of a cached answer. -/
def cachedIdempotencyResponse (cached : CachedResponse) : Handler (Except Exn Response) :=
  match cached.retry with
  | none => Step.ret (.ok cached.response)
  | some m =>
    if cached.response.finalized then Step.ret (.ok cached.response)
    else (retryCachedJournalFinalization m).bind fun
      | .error e => Step.ret (.error e)
      | .ok true =>
        let reason := cached.response.reason.filter (· ≠ finalizationFailed)
        let response : Response := ⟨m.terminalStatusCode, reason, true⟩
        (storeCached ⟨response, none⟩).bind fun _ => Step.ret (.ok response)
      | .ok false =>
        let reason := cached.response.reason.or (some finalizationFailed)
        let response : Response := ⟨cached.response.statusCode, reason, false⟩
        (storeCached ⟨response, some m⟩).bind fun _ => Step.ret (.ok response)

/-- What `_audit_and_respond` is told of the outcome. -/
structure Outcome where
  result : Result
  kind : JournalKind
  upid : Option String
  detail : Option String
  httpStatus : ℕ
  reason : Option String

/-- The metadata of an outcome whose finalization fails. -/
def Audit.retry (a : Audit) (o : Outcome) : RetryMetadata where
  entryId := a.entryId
  kind := o.kind
  comments := a.comments o.result o.upid o.detail
  interruptedComments := a.comments .interrupted o.upid
    (some "Journal finalization was interrupted before the terminal state was committed.")
  failedComments := a.comments .failed o.upid
    (some "Journal finalization failed before the terminal state was committed.")
  terminalStatusCode := o.httpStatus

/-- `_store_pending_journal_finalization_cache`. -/
def storePendingJournalFinalizationCache (a : Audit) (o : Outcome) : Handler Unit :=
  if cacheKeyed a.idempotencyKey then
    storeCached ⟨⟨502, o.reason.or (some finalizationFailed), false⟩, some (a.retry o)⟩
  else Step.ret ()

/-- `_finalize_journal_entry`: whether the entry is finalized. -/
def finalizeJournalEntry (m : RetryMetadata) : Handler (Except Exn Bool) :=
  Step.read fun ledger =>
    if ledger.terminal then Step.ret (.ok true)
    else (updateJournalEntryResistantToCancellation m.entryId m.kind m.comments
      m.interruptedComments m.failedComments).bind fun
        | .ok _ => Step.ret (.ok true)
        | .error e => if e.isException then Step.ret (.ok false) else Step.ret (.error e)

/-- The response to an outcome. -/
def Outcome.response (o : Outcome) (finalized : Bool) : Response :=
  if finalized then ⟨o.httpStatus, o.reason, true⟩
  else ⟨if 400 ≤ o.httpStatus then o.httpStatus else 502, o.reason.or (some finalizationFailed),
    false⟩

/-- `_audit_and_respond`. -/
def auditAndRespond (a : Audit) (o : Outcome) : Handler (Except Exn Response) :=
  (Step.read fun ledger =>
    if ledger.terminal then Step.ret () else storePendingJournalFinalizationCache a o).bind fun _ =>
  (finalizeJournalEntry (a.retry o)).bind fun
    | .error e => Step.ret (.error e)
    | .ok finalized =>
      let response := o.response finalized
      (if cacheKeyed a.idempotencyKey then
        storeCached ⟨response, if finalized then none else some (a.retry o)⟩
      else Step.ret ()).bind fun _ => Step.ret (.ok response)

/-- `_unexpected_dispatch_result`, with the reason of the response. -/
def unexpectedDispatchResult : Exn → Result × String × String
  | .cancelled => (.interrupted, "Operation interrupted before the Proxmox call returned.",
    "proxmox_dispatch_interrupted")
  | e => (.failed, e.type ++ ": " ++ (if e.message = "" then e.type else e.message),
    "proxmox_dispatch_unexpected_error")

/-- `_finalize_after_unexpected_dispatch_error`. -/
def finalizeAfterUnexpectedDispatchError (a : Audit) (e : Exn) : Handler Unit :=
  Step.read fun ledger =>
    if ledger.terminal then Step.ret ()
    else
      let (result, detail, reason) := unexpectedDispatchResult e
      (auditAndRespond a ⟨result, .warning, none, some detail, 500, some reason⟩).bind fun _ =>
        Step.ret ()

/-- `_await_with_interruption_journal`. -/
def awaitWithInterruptionJournal {α : Type} (a : Audit) (awaitable : Handler (Except Exn α)) :
    Handler (Except Exn α) :=
  awaitable.bind fun
    | .ok value => Step.ret (.ok value)
    | .error (.proxmoxApi message) => Step.ret (.error (.proxmoxApi message))
    | .error e => (finalizeAfterUnexpectedDispatchError a e).bind fun _ => Step.ret (.error e)

/-- What `write_verb_journal_entry` returns: the `data` of the record, if that is an object. -/
def writeVerbJournalEntry (entry : JournalEntry) : Option Json.Fields :=
  match field "data" entry.body with
  | .obj fields => some fields
  | _ => none

/-- `_journal_entry_id`, of identifiers in ASCII digits. -/
def journalEntryId : Option Json.Fields → Option ℤ
  | none => none
  | some entry => match field "id" entry with
    | .int n => some n
    | .str s => if Text.isDigits s.toList then some (Python.digitsValue s.toList) else none
    | _ => none

/-- A call of a verb. -/
inductive VerbCall where
  | start
  | stop
  | reboot
  | delete
  | snapshot (snapname description : Option String)
  | backup (storage mode compress : String) (notes : Option String)
  | deleteSnapshot (snapname : String)
  | migrate (target : String) (online : Bool)

def VerbCall.verb : VerbCall → Verb
  | .start => .start
  | .stop => .stop
  | .reboot => .reboot
  | .delete => .delete
  | .snapshot .. => .snapshot
  | .backup .. => .backup
  | .deleteSnapshot _ => .deleteSnapshot
  | .migrate .. => .migrate

/-- A request of a verb: the clock is read once for the journal and once for snapshot names. -/
structure Invocation where
  call : VerbCall
  vmid : ℤ
  endpointId : Option ℤ
  idempotencyKey : Option String
  actor : String
  dispatchedAt : String
  stamp : String

def refuse (statusCode : ℕ) (reason : String) : Response := ⟨statusCode, some reason, true⟩

/-- `_writeahead_journal_failure_response`. -/
def writeaheadJournalFailureResponse : Response :=
  refuse 409 "netbox_vm_identity_required_for_audit"

/-- What the handler goes on with: an entry to be finalized, or a response. -/
inductive Prepared where
  | entry (a : Audit)
  | respond (response : Response)

/-- `_create_writeahead_journal_or_error`. -/
def createWriteaheadJournalOrError (inv : Invocation) (endpoint : Endpoint) (vmId : ℤ) :
    Handler (Except Exn Prepared) :=
  let audit (entryId : ℤ) : Audit :=
    ⟨inv.call.verb, inv.actor, endpoint, inv.dispatchedAt, inv.idempotencyKey, entryId⟩
  (ask (.createJournal vmId .info ((audit 0).comments .inProgress none none))).bind fun
    | ⟨.ok entry, cancelled⟩ => match journalEntryId (writeVerbJournalEntry entry) with
      | none =>
        if cancelled then Step.ret (.error .cancelled)
        else Step.ret (.ok (.respond writeaheadJournalFailureResponse))
      | some entryId =>
        if cancelled then
          (finalizeAfterUnexpectedDispatchError (audit entryId) .cancelled).bind fun _ =>
            Step.ret (.error .cancelled)
        else Step.ret (.ok (.entry (audit entryId)))
    | ⟨.error e, cancelled⟩ =>
      if cancelled || e = .cancelled then Step.ret (.error .cancelled)
      else if e.isException then Step.ret (.ok (.respond writeaheadJournalFailureResponse))
      else Step.ret (.error e)

/-- `_gate`. -/
def gate (inv : Invocation) (writesDisabledReason : String) :
    Handler (Except Exn (Except Response Endpoint)) :=
  match inv.endpointId with
  | none => Step.ret (.ok (.error (refuse 403 "endpoint_id_required")))
  | some id => (ask (.endpoint id)).bind fun
    | .error e => Step.ret (.error e)
    | .ok none => Step.ret (.ok (.error (refuse 403 "endpoint_not_found")))
    | .ok (some endpoint) =>
      if endpoint.allowWrites then Step.ret (.ok (.ok endpoint))
      else Step.ret (.ok (.error (refuse 403 writesDisabledReason)))

/-- `resolve_proxmox_node`, of the resources: the node that hosts the VM. -/
def hostNode (vmid : ℤ) (resources : List Resource) : Option String :=
  resources.findSome? fun r => if r.vmid = some vmid then r.node.filter (· ≠ "") else none

/-- What every `_dispatch_…` does up to the write-ahead entry, without a cached answer. -/
def prepare (inv : Invocation) (endpoint : Endpoint) : Handler (Except Exn Prepared) :=
  (ask .proxmoxSession).bind fun
    | .error e =>
      if e.isProxbox then Step.ret (.ok (.respond (refuse 502 "proxmox_session_unreachable")))
      else Step.ret (.error e)
    | .ok () => (ask .clusterResources).bind fun
      | .error (.proxmoxApi _) =>
        Step.ret (.ok (.respond (refuse 502 "proxmox_cluster_resources_unreachable")))
      | .error e => Step.ret (.error e)
      | .ok resources => match hostNode inv.vmid resources with
        | none => Step.ret (.ok (.respond (refuse 404 "vm_not_found_in_cluster")))
        | some _ => (ask .resolveVm).bind fun
          | .error e =>
            if e.isException then
              Step.ret (.ok (.respond (refuse 409 "netbox_vm_identity_required_for_audit")))
            else Step.ret (.error e)
          | .ok none =>
            Step.ret (.ok (.respond (refuse 409 "netbox_vm_identity_required_for_audit")))
          | .ok (some vmId) => createWriteaheadJournalOrError inv endpoint vmId

/-- The answer after a `ProxmoxAPIError`. -/
def proxmoxFailed (message reason : String) : Outcome :=
  ⟨.failed, .warning, none, some message, 502, some reason⟩

/-- The answer of a verb that has nothing to do. -/
def noop (result : Result) : Outcome := ⟨result, .info, none, none, 200, none⟩

def dispatched (result : Result) (statusCode : ℕ) (upid : Option String) : Outcome :=
  ⟨result, .info, upid, none, statusCode, none⟩

/-- The dispatch of a verb, and the audit of its outcome. -/
def dispatchAndRespond (a : Audit) (call : Handler (Except Exn (Option String)))
    (result : Result) (statusCode : ℕ) : Handler (Except Exn Response) :=
  (awaitWithInterruptionJournal a call).bind fun
    | .error (.proxmoxApi message) =>
      auditAndRespond a (proxmoxFailed message "proxmox_dispatch_failed")
    | .error e => Step.ret (.error e)
    | .ok upid => auditAndRespond a (dispatched result statusCode upid)

/-- A verb that asks for the state of the VM first. -/
def dispatchUnless (a : Audit) (state : String) (already : Result) (m : Mutation) :
    Handler (Except Exn Response) :=
  (awaitWithInterruptionJournal a (ask .vmStatus)).bind fun
    | .error (.proxmoxApi message) =>
      auditAndRespond a (proxmoxFailed message "proxmox_status_unreachable")
    | .error e => Step.ret (.error e)
    | .ok current =>
      if current = some state then auditAndRespond a (noop already)
      else dispatchAndRespond a (ask (.mutate m)) .ok 200

def dispatchStart (a : Audit) : Handler (Except Exn Response) :=
  dispatchUnless a "running" .alreadyRunning .startVm

def dispatchStop (a : Audit) : Handler (Except Exn Response) :=
  dispatchUnless a "stopped" .alreadyStopped .stopVm

def dispatchReboot (a : Audit) : Handler (Except Exn Response) :=
  dispatchUnless a "stopped" .alreadyStopped .rebootVm

/-- `_prepare_delete_dispatch`: a running VM is stopped; a response is an audited failure. -/
def prepareDeleteDispatch (a : Audit) : Handler (Except Exn (Option Response)) :=
  (ask .vmStatus).bind fun
    | .error (.proxmoxApi message) =>
      (auditAndRespond a (proxmoxFailed message "proxmox_status_unreachable")).bind fun
        | .error e => Step.ret (.error e)
        | .ok response => Step.ret (.ok (some response))
    | .error e => Step.ret (.error e)
    | .ok current =>
      if current ≠ some "running" then Step.ret (.ok none)
      else (ask (.mutate .stopVm)).bind fun
        | .error (.proxmoxApi message) =>
          (auditAndRespond a (proxmoxFailed message "proxmox_dispatch_failed")).bind fun
            | .error e => Step.ret (.error e)
            | .ok response => Step.ret (.ok (some response))
        | .error e => Step.ret (.error e)
        | .ok _ => Step.ret (.ok none)

/-- `delete_vm_via_intent_dispatcher`, with the dispatchers' own gate and session; they turn an
`Exception` into an `HTTPException`, and write no journal entry of their own here. -/
def deleteVmViaIntentDispatcher (a : Audit) : Handler (Except Exn (Option String)) :=
  (ask (.endpoint a.endpoint.id)).bind fun
    | .error e => Step.ret (.error e)
    | .ok found =>
      if (found.map Endpoint.allowWrites).getD false then
        (ask .proxmoxSession).bind fun
          | .error e => Step.ret (.error (if e.isException then .proxmoxApi e.message else e))
          | .ok () => (ask (.mutate .destroy)).bind fun
            | .error e => Step.ret (.error (if e.isException then .proxmoxApi e.message else e))
            | .ok upid => Step.ret (.ok upid)
      else Step.ret (.error (.proxmoxApi "writes_disabled_for_endpoint"))

def dispatchDelete (a : Audit) : Handler (Except Exn Response) :=
  (awaitWithInterruptionJournal a (prepareDeleteDispatch a)).bind fun
    | .error e => Step.ret (.error e)
    | .ok (some response) => Step.ret (.ok response)
    | .ok none => dispatchAndRespond a (deleteVmViaIntentDispatcher a) .ok 200

/-- `_default_snapname`. -/
def defaultSnapname (idempotencyKey : Option String) (stamp : String) : String :=
  match idempotencyKey with
  | some key => if key = "" then "proxbox-" ++ stamp else "proxbox-" ++ (key.take 8).toString
  | none => "proxbox-" ++ stamp

def dispatchSnapshot (a : Audit) (stamp : String) (snapname description : Option String) :
    Handler (Except Exn Response) :=
  let effective := (snapname.filter (· ≠ "")).getD (defaultSnapname a.idempotencyKey stamp)
  dispatchAndRespond a (ask (.mutate (.createVmSnapshot effective description))) .ok 200

def dispatchBackup (a : Audit) (storage mode compress : String) (notes : Option String) :
    Handler (Except Exn Response) :=
  dispatchAndRespond a (ask (.mutate (.backupVm storage mode compress notes))) .ok 200

def dispatchDeleteSnapshot (a : Audit) (snapname : String) : Handler (Except Exn Response) :=
  dispatchAndRespond a (ask (.mutate (.deleteVmSnapshot snapname))) .ok 200

/-- `preflight.get(name) or []`, where it is a list. -/
def preflightList (name : String) (preflight : Json.Fields) : Option (List Json) :=
  match field name preflight with
  | .arr items => some items
  | .null | .bool false | .int 0 | .str "" | .obj [] => some []
  | .float q => if q = 0 then some [] else none
  | _ => none

/-- `_preflight_rejection`; the detail is the text of the comments. -/
def preflightRejection (allowedText : Json.Fields → String) (preflight : Json.Fields)
    (target : String) (online : Bool) : Option (String × String) :=
  if (preflightList "allowed_nodes" preflight).any fun allowed =>
      !allowed.any fun node => node.pyEq (.str target) then
    some ("target_not_allowed", allowedText preflight)
  else if online && (preflightList "local_disks" preflight).any fun disks => !disks.isEmpty then
    some ("local_disks_block_online_migrate",
      "Online migration is blocked by local-only disks on the source node.")
  else if online && (preflightList "local_resources" preflight).any fun found => !found.isEmpty then
    some ("local_resources_block_online_migrate",
      "Online migration is blocked by local resources on the source node.")
  else none

def dispatchMigrate (allowedText : Json.Fields → String) (a : Audit) (target : String)
    (online : Bool) : Handler (Except Exn Response) :=
  (awaitWithInterruptionJournal a (ask .migratePreflight)).bind fun
    | .error (.proxmoxApi message) =>
      auditAndRespond a (proxmoxFailed message "proxmox_preflight_failed")
    | .error e => Step.ret (.error e)
    | .ok preflight => match preflightRejection allowedText preflight target online with
      | some (reason, detail) =>
        auditAndRespond a ⟨.rejected, .warning, none, some detail, 400, some reason⟩
      | none => dispatchAndRespond a (ask (.mutate (.migrateVm target online))) .accepted 202

/-- The dispatch of a call, once its write-ahead entry is there. -/
def dispatchCall (allowedText : Json.Fields → String) (inv : Invocation) (a : Audit) :
    Handler (Except Exn Response) :=
  match inv.call with
  | .start => dispatchStart a
  | .stop => dispatchStop a
  | .reboot => dispatchReboot a
  | .delete => dispatchDelete a
  | .snapshot snapname description => dispatchSnapshot a inv.stamp snapname description
  | .backup storage mode compress notes => dispatchBackup a storage mode compress notes
  | .deleteSnapshot snapname => dispatchDeleteSnapshot a snapname
  | .migrate target online => dispatchMigrate allowedText a target online

/-- `_dispatch_…`: a cached answer, or the verb. -/
def dispatch (allowedText : Json.Fields → String) (inv : Invocation) (endpoint : Endpoint) :
    Handler (Except Exn Response) :=
  Step.read fun ledger =>
    match if cacheKeyed inv.idempotencyKey then ledger.cache else none with
    | some cached => cachedIdempotencyResponse cached
    | none => (prepare inv endpoint).bind fun
      | .error e => Step.ret (.error e)
      | .ok (.respond response) => Step.ret (.ok response)
      | .ok (.entry a) => dispatchCall allowedText inv a

/-- The reason of a gate that is closed to writes. -/
def VerbCall.writesDisabledReason : VerbCall → String
  | .start | .stop | .snapshot .. | .migrate .. => "endpoint_writes_disabled"
  | .reboot | .delete | .backup .. | .deleteSnapshot _ => "writes_disabled_for_endpoint"

/-- The response to a body without what its verb requires. -/
def VerbCall.incomplete : VerbCall → Option Response
  | .backup storage .. => if storage = "" then some (refuse 400 "storage_required") else none
  | .migrate target _ => if target = "" then some (refuse 400 "target_required") else none
  | _ => none

/-- `_handle_…`. -/
def handle (allowedText : Json.Fields → String) (inv : Invocation) :
    Handler (Except Exn Response) :=
  (gate inv inv.call.writesDisabledReason).bind fun
    | .error e => Step.ret (.error e)
    | .ok (.error response) => Step.ret (.ok response)
    | .ok (.ok endpoint) => match inv.call.incomplete with
      | some response => Step.ret (.ok response)
      | none => (ask .netboxSession).bind fun
        | .error e =>
          if e.isProxbox then Step.ret (.ok (refuse 502 "netbox_session_unavailable"))
          else Step.ret (.error e)
        | .ok () =>
          if cacheKeyed inv.idempotencyKey then
            (ask .singleFlight).bind fun
              | .error e => Step.ret (.error e)
              | .ok () => dispatch allowedText inv endpoint
          else dispatch allowedText inv endpoint

end ProxboxApi.Verbs
