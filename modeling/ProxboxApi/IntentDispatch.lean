import ProxboxApi.VerbHandlers
import ProxboxApi.DeletionRequests

/-! The dispatchers of intent diffs and the routes of deletion requests, as programs of requests to
the endpoint store, to Proxmox and to the NetBox journal. -/

namespace ProxboxApi.Intent

open Requests
open Verbs (Exn Endpoint JournalKind)
open DeletionRequests (Kind RequestState Target targetMismatch checkRequest)

/-- A journal entry, by its assigned object and by the lines of its comments but the time. -/
structure Entry where
  netboxVmId : ℤ
  kind : JournalKind
  verb : String
  result : String
  actor : String
  endpointName : String
  endpointId : ℤ
  targetVmid : ℤ
  runUuid : String
  proxmoxTaskUpid : Option String
  errorDetail : Option String
  targetKind : Option Kind
  deletionRequestId : Option ℤ
  reason : Option String

/-- A guest of a node or of the cluster; `vmid` is its id if that reads as an integer. -/
structure GuestRecord where
  vmid : Option ℤ
  type : Option String
  node : Option String

inductive Request where
  | endpoint (id : ℤ)
  | netboxSession
  | proxmoxSession
  | createGuest (params : Json.Fields)
  | nodeGuests
  | clusterResources
  | currentConfig
  | currentStatus
  | putConfig (delta : Json.Fields)
  | destroyGuest (kind : Kind) (vmid : ℤ) (node : String)
  | saveRecord (state : RequestState)
  | journal (entry : Entry)

/-- Rows, records and task ids, or the exception that is raised. -/
abbrev Reply : Request → Type
  | .endpoint _ => Except Exn (Option Endpoint)
  | .netboxSession | .proxmoxSession | .saveRecord _ | .journal _ => Except Exn Unit
  | .createGuest _ | .putConfig _ | .destroyGuest .. => Except Exn (Option String)
  | .nodeGuests | .clusterResources => Except Exn (List GuestRecord)
  | .currentConfig => Except Exn Json.Fields
  | .currentStatus => Except Exn (Option String)

abbrev Dispatch (α : Type) := Prog Request Reply (Except Exn α)

namespace Dispatch

variable {α β : Type}

def ask (q : Request) : Prog Request Reply (Reply q) := .ask q .ret

def pure (a : α) : Dispatch α := .ret (.ok a)

def raise (e : Exn) : Dispatch α := .ret (.error e)

/-- One statement after another; an exception ends them. -/
def bind (p : Dispatch α) (f : α → Dispatch β) : Dispatch β :=
  Prog.bind p fun
    | .ok a => f a
    | .error e => raise e

/-- `try`, `except Exception`, and what follows. -/
def attempt (p : Dispatch α) (handler : Exn → Dispatch β) (f : α → Dispatch β) : Dispatch β :=
  Prog.bind p fun
    | .ok a => f a
    | .error e => if e.isException then handler e else raise e

end Dispatch

open Dispatch

/-- `IntentEndpointContext`. -/
structure Context where
  endpointId : Option ℤ
  netboxId : Option ℤ

/-- What every dispatcher is called with. -/
structure Invocation where
  context : Context
  vmid : ℤ
  node : String
  actor : Option String
  runUuid : String

/-- `ApplyResultItem`, without what it repeats of the diff. -/
structure ApplyResultItem where
  status : String
  reason : Option String
  message : Option String
  proxmoxUpid : Option String

/-- `_gate`: an endpoint that is open to writes, or the reason of the refusal. -/
def gate : Option ℤ → Dispatch (Except String Endpoint)
  | none => pure (.error "endpoint_id_required")
  | some id => (ask (.endpoint id)).bind fun
    | .error e => raise e
    | .ok none => pure (.error "endpoint_not_found")
    | .ok (some endpoint) =>
      if endpoint.allowWrites then pure (.ok endpoint) else pure (.error "endpoint_writes_disabled")

/-- `value or default`, of an integer. -/
def orInt (value : Option ℤ) (default : ℤ) : ℤ := (value.filter (· ≠ 0)).getD default

/-- `value or default`, of a string. -/
def orText (value : Option String) (default : String) : String :=
  (value.filter (· ≠ "")).getD default

variable (scrub : String → String)

/-- The NetBox session, and the POST of the entry; a session that fails is not fatal. -/
def post (entry : Entry) : Dispatch Unit :=
  attempt (ask .netboxSession) (fun _ => ask (.journal entry)) fun _ => ask (.journal entry)

/-- `write_intent_journal`; `scrub` is `scrub_message`. -/
def writeIntentJournal (inv : Invocation) (endpoint : Option Endpoint) (verb result : String)
    (kind : JournalKind) (upid errorDetail : Option String) : Dispatch Unit :=
  post
    { netboxVmId := orInt inv.context.netboxId inv.vmid
      kind := kind
      verb := verb
      result := result
      actor := orText inv.actor "proxbox-api"
      endpointName := orText (endpoint.map (·.name)) "unknown"
      endpointId := orInt (endpoint.map (·.id)) (orInt inv.context.endpointId 0)
      targetVmid := inv.vmid
      runUuid := inv.runUuid
      proxmoxTaskUpid := upid
      errorDetail := errorDetail.map scrub
      targetKind := none
      deletionRequestId := none
      reason := none }

/-- Why a payload is not dispatched; one of the refusals leaves no entry. -/
inductive Refusal where
  | failed (message : String)
  | notImplemented (message : String)

def failedItem (reason : Option String) (message : String) : ApplyResultItem :=
  ⟨"failed", reason, some message, none⟩

/-- The CREATE dispatchers; `scrubPayload` is `scrub_message` with the payload, and `params` what
the payload is built to. -/
def dispatchCreate (scrubPayload : String → String) (verb : String) (refusal : Option Refusal)
    (params : Except Exn Json.Fields) (inv : Invocation) : Dispatch ApplyResultItem :=
  let fail (endpoint : Option Endpoint) (result message : String) : Dispatch ApplyResultItem :=
    (writeIntentJournal scrub inv endpoint verb result .warning none (some message)).bind fun _ =>
      pure (failedItem none message)
  (gate inv.context.endpointId).bind fun
    | .error _ => fail none "blocked" "writes_disabled_for_endpoint"
    | .ok endpoint => match refusal with
      | some (.failed message) => fail (some endpoint) "failed" message
      | some (.notImplemented message) => pure ⟨"not_implemented", none, some message, none⟩
      | none =>
        attempt ((Dispatch.bind (ask .proxmoxSession) fun _ =>
            Dispatch.bind (.ret params) fun params => ask (.createGuest params)))
          (fun e => fail (some endpoint) "failed" (scrubPayload e.message))
          fun upid => (writeIntentJournal scrub inv (some endpoint) verb "succeeded" .success upid
              none).bind fun _ => pure ⟨"succeeded", none, none, upid⟩

/-- `dispatch_qemu_create`. -/
def dispatchQemuCreate (scrubPayload : String → String) (name : Option String)
    (templateVmid : Option ℤ) (params : Except Exn Json.Fields) (inv : Invocation) :
    Dispatch ApplyResultItem :=
  let refusal : Option Refusal :=
    if name.isNone then some (.failed "name required for QEMU create")
    else if templateVmid.isSome then some (.notImplemented "template clone lands in Sub-PR K")
    else none
  dispatchCreate scrub scrubPayload "intent_create_qemu" refusal params inv

/-- `dispatch_lxc_create`. -/
def dispatchLxcCreate (scrubPayload : String → String) (hostname ostemplate : Option String)
    (params : Except Exn Json.Fields) (inv : Invocation) : Dispatch ApplyResultItem :=
  let refusal : Option Refusal :=
    if hostname.isNone then some (.failed "hostname required for LXC create")
    else if ostemplate.isNone then some (.failed "ostemplate required for LXC create")
    else none
  dispatchCreate scrub scrubPayload "intent_create_lxc" refusal params inv

def kindName : Kind → String
  | .qemu => "qemu"
  | .lxc => "lxc"

/-- `find_vmid_record`. -/
def findVmidRecord (records : List GuestRecord) (vmid : ℤ) (kind : Kind) : Option GuestRecord :=
  records.find? fun r => r.vmid = some vmid && orText r.type (kindName kind) = kindName kind

/-- `find_current_node`. -/
def findCurrentNode (records : List GuestRecord) (vmid : ℤ) (kind : Kind) : String :=
  orText ((findVmidRecord records vmid kind).bind (·.node)) "unknown"

/-- What an UPDATE dispatcher has of its own; `delta` is `_build_…_update_delta` of the payload. -/
structure UpdateKind where
  kind : Kind
  verb : String
  label : String
  updated : String
  offlineKeys : List String
  offlinePrefixes : List String

def qemuUpdate : UpdateKind where
  kind := .qemu
  verb := "intent_update_qemu"
  label := "QEMU"
  updated := "QEMU VM"
  offlineKeys := ["cores", "memory"]
  offlinePrefixes := ["scsi", "virtio", "ide", "sata", "efidisk"]

def lxcUpdate : UpdateKind where
  kind := .lxc
  verb := "intent_update_lxc"
  label := "LXC"
  updated := "LXC"
  offlineKeys := ["cores", "memory"]
  offlinePrefixes := ["mp", "rootfs"]

/-- `_requires_vm_stop`. -/
def UpdateKind.requiresVmStop (u : UpdateKind) (delta : Json.Fields) : Bool :=
  (Dict.keys delta).any fun key =>
    u.offlineKeys.contains key || u.offlinePrefixes.any fun p => p.toList.isPrefixOf key.toList

/-- `_fail`. -/
def failUpdate (u : UpdateKind) (inv : Invocation) (endpoint : Option Endpoint) (message : String)
    (reason : Option String) : Dispatch ApplyResultItem :=
  (writeIntentJournal scrub inv endpoint u.verb "failed" .warning none (some message)).bind fun _ =>
    pure (failedItem reason message)

/-- The body of the `try` of an UPDATE dispatcher: an item that it returns, or the task and the
delta. -/
def tryUpdate (u : UpdateKind) (delta : Json.Fields → Except Exn Json.Fields) (inv : Invocation)
    (endpoint : Endpoint) : Dispatch (ApplyResultItem ⊕ Option String × Json.Fields) :=
  Dispatch.bind (ask .proxmoxSession) fun _ =>
  Dispatch.bind (ask .nodeGuests) fun (guests : List GuestRecord) =>
  if (findVmidRecord guests inv.vmid u.kind).isNone then
    Dispatch.bind (ask .clusterResources) fun (resources : List GuestRecord) =>
      (failUpdate scrub u inv (some endpoint)
        ("TOCTOU mismatch: vmid " ++ toString inv.vmid ++ " was on node '" ++ inv.node ++
          "' at plan, now on '" ++ findCurrentNode resources inv.vmid u.kind ++ "'")
        (some "toctou_mismatch")).bind fun item => pure (.inl item)
  else
    Dispatch.bind (ask .currentConfig) fun (current : Json.Fields) =>
    Dispatch.bind (.ret (delta current)) fun (changes : Json.Fields) =>
    if changes.isEmpty then
      (writeIntentJournal scrub inv (some endpoint) u.verb "skipped" .info none none).bind fun _ =>
        pure (.inl ⟨"skipped", none, some ("No " ++ u.label ++
          " update needed; current Proxmox config already matches payload"), none⟩)
    else
      Dispatch.bind (ask .currentStatus) fun (current : Option String) =>
      if u.requiresVmStop changes && current = some "running" then
        (failUpdate scrub u inv (some endpoint)
          ("Update requires VM stop; refusing to auto-stop running VM " ++ toString inv.vmid)
          (some "update_requires_vm_stop")).bind fun item => pure (.inl item)
      else
        Dispatch.bind (ask (.putConfig changes)) fun (upid : Option String) =>
          pure (.inr (upid, changes))

/-- The UPDATE dispatchers. -/
def dispatchUpdate (u : UpdateKind) (scrubPayload : String → String)
    (delta : Json.Fields → Except Exn Json.Fields) (inv : Invocation) : Dispatch ApplyResultItem :=
  (gate inv.context.endpointId).bind fun
    | .error _ => failUpdate scrub u inv none "writes_disabled_for_endpoint"
        (some "writes_disabled_for_endpoint")
    | .ok endpoint =>
      attempt (tryUpdate scrub u delta inv endpoint)
        (fun e => failUpdate scrub u inv (some endpoint) (scrubPayload e.message) none) fun
          | .inl item => pure item
          | .inr (upid, changes) =>
            (writeIntentJournal scrub inv (some endpoint) u.verb "succeeded" .success upid
              none).bind fun _ => pure ⟨"succeeded", none, some ("Updated " ++ u.updated ++ " " ++
                toString inv.vmid ++ ": " ++ ", ".intercalate ((Dict.keys changes).mergeSort
                  fun a b => decide (a ≤ b))), upid⟩

/-- `dispatch_qemu_update`. -/
def dispatchQemuUpdate := dispatchUpdate scrub qemuUpdate

/-- `dispatch_lxc_update`. -/
def dispatchLxcUpdate := dispatchUpdate scrub lxcUpdate

/-- `DeletionRequestRecord`. -/
structure Record where
  id : ℤ
  endpointId : ℤ
  target : Target
  state : RequestState

/-- What a deletion-request entry says besides its target. -/
structure DeletionNote where
  verb : String
  result : String
  kind : JournalKind
  upid : Option String
  reason : Option String
  errorDetail : Option String

/-- `write_deletion_request_journal`. -/
def writeDeletionRequestJournal (endpoint : Option Endpoint) (endpointId vmid : ℤ)
    (actor runUuid : String) (targetKind : Kind) (deletionRequestId : Option ℤ)
    (note : DeletionNote) : Dispatch Unit :=
  post
    { netboxVmId := vmid
      kind := note.kind
      verb := note.verb
      result := note.result
      actor := orText (some actor) "proxbox-api"
      endpointName := orText (endpoint.map (·.name)) "unknown"
      endpointId := endpointId
      targetVmid := vmid
      runUuid := runUuid
      proxmoxTaskUpid := note.upid
      errorDetail := note.errorDetail.map scrub
      targetKind := some targetKind
      deletionRequestId := deletionRequestId
      reason := note.reason.map scrub }

/-- `HTTPException`. -/
def httpException (detail : String) : Exn := .exception "HTTPException" detail

/-- `dispatch_qemu_destroy` and `dispatch_lxc_destroy`: the task of the destruction. -/
def dispatchDestroy (kind : Kind) (context : Context) (vmid : ℤ) (node actor runUuid : String)
    (suppressJournal : Bool) : Dispatch (Option String) :=
  let journal (endpoint : Option Endpoint) (result : String) (journalKind : JournalKind)
      (upid errorDetail : Option String) : Dispatch Unit :=
    if suppressJournal then pure ()
    else writeDeletionRequestJournal scrub endpoint
      (orInt (endpoint.map (·.id)) (orInt context.endpointId 0)) vmid actor runUuid kind none
      ⟨"deletion_request_execute", result, journalKind, upid, none, errorDetail⟩
  (gate context.endpointId).bind fun
    | .error _ =>
      (journal none "blocked" .warning none (some "writes_disabled_for_endpoint")).bind fun _ =>
        raise (httpException "writes_disabled_for_endpoint")
    | .ok endpoint =>
      attempt (Dispatch.bind (ask .proxmoxSession) fun _ => ask (.destroyGuest kind vmid node))
        (fun e => (journal (some endpoint) "failed" .warning none
          (some (scrub e.message))).bind fun _ => raise (httpException (scrub e.message)))
        fun upid => (journal (some endpoint) "succeeded" .success upid none).bind fun _ =>
          pure upid

/-- How a route ends: the response of a gate that is closed, or the record. -/
inductive RouteResult where
  | blocked (reason : String)
  | record (record : Record)
  | executed (upid : Option String)

/-- `_write_route_journal`. -/
def writeRouteJournal (endpoint : Option Endpoint) (record : Record) (actor runUuid : String)
    (note : DeletionNote) : Dispatch Unit :=
  writeDeletionRequestJournal scrub endpoint record.endpointId record.target.vmid actor runUuid
    record.target.kind (some record.id) note

/-- `_gated_or_journaled`. -/
def gatedOrJournaled (record : Record) (verb actor runUuid : String) :
    Dispatch (Except String Endpoint) :=
  (gate (some record.endpointId)).bind fun
    | .error reason => (writeRouteJournal scrub none record actor runUuid
        ⟨verb, "blocked", .warning, none, some reason, some reason⟩).bind fun _ =>
          pure (.error reason)
    | .ok endpoint => pure (.ok endpoint)

/-- `repr`, of a text without quotes or backslashes. -/
def quoted (s : String) : String := "'" ++ s ++ "'"

/-- The reason and the detail of a request that is refused. -/
def refusalText : DeletionRequests.Reply → Option (String × String)
  | .targetMismatch (.vmid a b) =>
    some ("target_mismatch", "vmid mismatch: request has " ++ toString a ++ ", body has " ++
      toString b)
  | .targetMismatch (.node a b) =>
    some ("target_mismatch", "node mismatch: request has " ++ quoted a ++ ", body has " ++ quoted b)
  | .targetMismatch (.kind a b) =>
    some ("target_mismatch", "kind mismatch: request has " ++ quoted (kindName a) ++
      ", body has " ++ quoted (kindName b))
  | .invalidState detail => some ("invalid_state", detail)
  | _ => none

/-- The verb of a route. -/
def routeVerb : DeletionRequests.Request → String
  | .approve _ => "deletion_request_approve"
  | .reject => "deletion_request_reject"
  | .execute _ => "deletion_request_execute"

/-- The start of a route: the gate, and the checks on the record. -/
def checkedRoute (record : Record) (request : DeletionRequests.Request) (actor runUuid : String)
    (next : Endpoint → Dispatch RouteResult) : Dispatch RouteResult :=
  (gatedOrJournaled scrub record (routeVerb request) actor runUuid).bind fun
    | .error reason => pure (.blocked reason)
    | .ok endpoint => match (checkRequest record.target request record.state).bind refusalText with
      | some (reason, detail) => (writeRouteJournal scrub (some endpoint) record actor runUuid
          ⟨routeVerb request, "failed", .warning, none, some reason, some detail⟩).bind fun _ =>
            raise (httpException detail)
      | none => next endpoint

/-- A route that assigns a state and is done. -/
def settleRoute (record : Record) (request : DeletionRequests.Request) (actor runUuid : String)
    (kind : JournalKind) (reason : Option String) : Dispatch RouteResult :=
  checkedRoute scrub record request actor runUuid fun endpoint =>
    Dispatch.bind (ask (.saveRecord request.newState)) fun _ =>
      (writeRouteJournal scrub (some endpoint) record actor runUuid
        ⟨routeVerb request, "succeeded", kind, none, reason, none⟩).bind fun _ =>
          pure (.record { record with state := request.newState })

/-- `approve_deletion_request`, of the record that is loaded. -/
def approveDeletionRequest (record : Record) (body : Target) (actor runUuid : String) :
    Dispatch RouteResult :=
  settleRoute scrub record (.approve body) actor runUuid .success none

/-- `reject_deletion_request`. -/
def rejectDeletionRequest (record : Record) (reason : Option String) (actor runUuid : String) :
    Dispatch RouteResult :=
  settleRoute scrub record .reject actor runUuid .warning reason

/-- `execute_deletion_request`. -/
def executeDeletionRequest (record : Record) (body : Target) (actor runUuid : String) :
    Dispatch RouteResult :=
  checkedRoute scrub record (.execute body) actor runUuid fun _ =>
    Dispatch.bind (ask (.saveRecord .executing)) fun _ =>
      attempt (dispatchDestroy scrub body.kind ⟨some record.endpointId, none⟩ body.vmid body.node
          actor runUuid false)
        (fun e => Dispatch.bind (ask (.saveRecord .failed)) fun _ => raise e)
        fun upid => Dispatch.bind (ask (.saveRecord .succeeded)) fun _ => pure (.executed upid)

end ProxboxApi.Intent
