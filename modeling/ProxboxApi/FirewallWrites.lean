import ProxboxApi.IntentDispatch

/-! The write helper of the firewall routes, and the firewall diffs of an intent. -/

namespace ProxboxApi.Firewall

open Requests
open Verbs (Exn Endpoint)
open DeletionRequests (Kind)
open Intent (kindName quoted orInt orText)

/-- `FirewallIntentPayload`, without its `rollback`. -/
structure FirewallIntentPayload where
  action : String
  zone : Option String
  node : Option String
  vmid : Option ℤ
  vmType : Option Kind
  vnet : Option String
  group : Option String
  pos : Option ℤ
  name : Option String
  cidr : Option String
  body : Json.Fields

inductive Method where
  | post
  | put
  | delete
  deriving DecidableEq, Repr

def hasPrefix (s start : String) : Bool := start.toList.isPrefixOf s.toList

def hasSuffix (s ending : String) : Bool := ending.toList.isSuffixOf s.toList

/-- `ValueError`. -/
def valueError {α : Type} (message : String) : Except Exn α :=
  .error (.exception "ValueError" message)

/-- A field that is not empty, or the `ValueError` that it is missing. -/
def required (field : Option String) (message : String) : Except Exn String :=
  match field.filter (· ≠ "") with
  | some value => .ok value
  | none => valueError message

/-- `_vm_base`. -/
def vmBase (payload : FirewallIntentPayload) (zone : String) : Except Exn String :=
  match payload.node.filter (· ≠ ""), payload.vmid with
  | some node, some vmid =>
    let kind : Kind := if zone = "vm_qemu" then .qemu else .lxc
    match payload.vmType.filter (· ≠ kind) with
    | some other => valueError ("vm_type " ++ quoted (kindName other) ++
        " does not match firewall zone " ++ quoted zone)
    | none => .ok ("nodes/" ++ node ++ "/" ++ kindName kind ++ "/" ++ toString vmid ++ "/firewall")
  | _, _ => valueError (zone ++ " firewall intent requires node and vmid")

/-- `_rule_base`. -/
def ruleBase (payload : FirewallIntentPayload) (zone : String) : Except Exn String :=
  if zone = "datacenter" then .ok "cluster/firewall/rules"
  else if zone = "security_group" then
    (required payload.group "security_group rule intent requires group").map
      ("cluster/firewall/groups/" ++ ·)
  else if zone = "node" then
    (required payload.node "node rule intent requires node").map fun node =>
      "nodes/" ++ node ++ "/firewall/rules"
  else if zone = "vm_qemu" ∨ zone = "vm_lxc" then (vmBase payload zone).map (· ++ "/rules")
  else if zone = "vnet" then
    (required payload.vnet "vnet rule intent requires vnet").map fun vnet =>
      "cluster/sdn/vnets/" ++ vnet ++ "/firewall/rules"
  else valueError ("Unsupported firewall rule zone: " ++ zone)

/-- `_scoped_base`. -/
def scopedBase (payload : FirewallIntentPayload) (zone resource : String) : Except Exn String :=
  if zone = "datacenter" then .ok ("cluster/firewall/" ++ resource)
  else if zone = "node" ∧ resource = "options" then
    (required payload.node "node options intent requires node").map fun node =>
      "nodes/" ++ node ++ "/firewall/options"
  else if zone = "vm_qemu" ∨ zone = "vm_lxc" then
    (vmBase payload zone).map (· ++ "/" ++ resource)
  else valueError (resource ++ " is not supported for firewall zone " ++ zone)

/-- `_unsupported_reason`. -/
def unsupportedReason (zone : String) : String :=
  if zone = "vnet" then "vnet_firewall_not_supported" else "firewall_write_not_supported"

/-- The method, the path, whether the surface is probed, and the reason if it is not there. -/
structure Route where
  method : Method
  path : String
  probe : Bool
  unsupportedReason : String

def plain (method : Method) (path : String) : Route :=
  ⟨method, path, false, "firewall_write_not_supported"⟩

/-- `_path_for`. -/
def pathFor (payload : FirewallIntentPayload) : Except Exn Route :=
  let action := payload.action
  let zone := orText payload.zone "datacenter"
  let changeMethod : Method := if hasSuffix action ".update" then .put else .delete
  if action = "firewall.group.create" then .ok (plain .post "cluster/firewall/groups")
  else if action = "firewall.group.delete" then
    (required payload.group "firewall.group.delete requires group").map fun group =>
      plain .delete ("cluster/firewall/groups/" ++ group)
  else if hasPrefix action "firewall.rule." then
    (ruleBase payload zone).bind fun base =>
      if hasSuffix action ".create" then
        .ok ⟨.post, base, zone = "vnet", unsupportedReason zone⟩
      else match payload.pos with
        | none => valueError (action ++ " requires pos")
        | some pos =>
          .ok ⟨changeMethod, base ++ "/" ++ toString pos, zone = "vnet", unsupportedReason zone⟩
  else if hasPrefix action "firewall.ipset." then
    if hasPrefix action "firewall.ipset.entry." then
      (required payload.name (action ++ " requires name")).bind fun name =>
        (scopedBase payload zone "ipset").bind fun owner =>
          let base := owner ++ "/" ++ name
          if hasSuffix action ".create" then .ok (plain .post base)
          else (required payload.cidr (action ++ " requires cidr")).map fun cidr =>
            plain changeMethod (base ++ "/" ++ cidr)
    else
      (scopedBase payload zone "ipset").bind fun base =>
        if hasSuffix action ".create" then .ok (plain .post base)
        else (required payload.name (action ++ " requires name")).map fun name =>
          plain .delete (base ++ "/" ++ name)
  else if hasPrefix action "firewall.alias." then
    (required payload.name (action ++ " requires name")).bind fun name =>
      (scopedBase payload zone "aliases").map fun base =>
        if hasSuffix action ".create" then plain .post base
        else plain (if hasSuffix action ".delete" then .delete else .put) (base ++ "/" ++ name)
  else if action = "firewall.options.update" then
    (scopedBase payload zone "options").map (plain .put)
  else valueError ("Unsupported firewall intent action: " ++ action)

/-- What a request to Proxmox raises: a `ResourceException` with its status, or anything else. -/
inductive Failure where
  | resource (status : ℤ) (text : String)
  | raised (e : Exn)

def Failure.exn : Failure → Exn
  | .resource _ text => .exception "ResourceException" text
  | .raised e => e

inductive Request where
  | endpoint (id : ℤ)
  | openSession (endpoint : Endpoint)
  | probe (path : String)
  | write (method : Method) (path : String) (payload : Json.Fields)
  | close
  | record (state : String)

abbrev Reply : Request → Type
  | .endpoint _ => Except Exn (Option Endpoint)
  | .openSession _ | .close | .record _ => Except Exn Unit
  | .probe _ => Except Failure Unit
  | .write .. => Except Failure Json

abbrev Write (α : Type) := Prog Request Reply (Except Exn α)

def ask (q : Request) : Prog Request Reply (Reply q) := .ask q .ret

def pure {α : Type} (a : α) : Write α := .ret (.ok a)

def raise {α : Type} (e : Exn) : Write α := .ret (.error e)

/-- A `JSONResponse` of the gate. -/
structure Refusal where
  reason : String
  detail : String
  deriving DecidableEq, Repr

/-- `_firewall_gate`. -/
def firewallGate : Option ℤ → Write (Except Refusal Endpoint)
  | none => pure (.error ⟨"endpoint_id_required",
      "Firewall writes require an explicit endpoint_id query parameter."⟩)
  | some id => Prog.andThen (ask (.endpoint id)) fun
    | none => pure (.error ⟨"endpoint_not_found",
        "No ProxmoxEndpoint with id=" ++ toString id ++ "."⟩)
    | some endpoint =>
      if endpoint.allowWrites then pure (.ok endpoint)
      else pure (.error ⟨"writes_disabled_for_endpoint",
        "Firewall writes are disabled on this endpoint. Enable ProxmoxEndpoint.allow_writes " ++
          "before pushing firewall changes."⟩)

variable (py : Python)

/-- `HTTPException`, by its `str`. -/
def httpError (status : ℕ) (detail : Json.Fields) : Exn :=
  .exception "HTTPException" (toString status ++ ": " ++ py.repr (.obj detail))

/-- `isinstance(error, HTTPException)`. -/
def isHttp : Exn → Bool
  | .exception type _ => type = "HTTPException"
  | _ => false

/-- `_require_actor`. -/
def requireActor (actor : Option String) : Except Exn String :=
  let value := Text.strip (orText actor "")
  if value = "" then .error (httpError py 422 [("reason", .str "actor_required"),
    ("detail", .str "Firewall writes require X-Proxbox-Actor.")])
  else .ok value

/-- `_task_id`. -/
def taskId : Json → Option String
  | .str s => if hasPrefix s "UPID:" then some s else none
  | .obj fields =>
    let value := ["upid", "task", "data"].findSome? fun key =>
      (Dict.get key fields).filter Python.truthy
    match value with
    | some (.str s) => if hasPrefix s "UPID:" then some s else none
    | _ => none
  | _ => none

/-- `FirewallWriteResponse`, without the endpoint. -/
structure FirewallWriteResponse where
  status : String
  actor : String
  path : String
  proxmoxTaskId : Option String
  reason : Option String
  detail : Option String

/-- The probe and the call on an open session; `None` if the surface is not there. -/
def send (route : Route) (payload : Json.Fields) : Write (Option Json ⊕ ℤ) :=
  let unsupported (f : Failure) : Write (Option Json ⊕ ℤ) :=
    match f with
    | .resource status _ =>
      if route.probe ∧ (status = 404 ∨ status = 501) then pure (.inr status) else raise f.exn
    | .raised e => raise e
  let call : Write (Option Json ⊕ ℤ) :=
    (ask (.write route.method route.path payload)).bind fun
      | .ok raw => pure (.inl (some raw))
      | .error f => unsupported f
  if route.probe then
    (ask (.probe route.path)).bind fun
      | .ok () => call
      | .error f => unsupported f
  else call

/-- `_firewall_write`. -/
def firewallWrite (endpointId : Option ℤ) (actor : Option String) (route : Route)
    (payload : Json.Fields) : Write (Refusal ⊕ FirewallWriteResponse) :=
  Prog.andThen (.ret (requireActor py actor)) fun actor =>
  Prog.andThen (firewallGate endpointId) fun
    | .error refusal => pure (.inl refusal)
    | .ok endpoint =>
      (ask (.openSession endpoint)).bind fun
      | .error e =>
        if e.isException then raise (httpError py 502 [("reason", .str "proxmox_session_unreachable"),
          ("detail", .str e.message), ("endpoint_id", .int endpoint.id)])
        else raise e
      | .ok () =>
        Prog.lastly
          (Prog.rescue
            (Prog.andThen (send route payload) fun
              | .inr status => pure (.inr ⟨"skipped", actor, route.path, none,
                  some route.unsupportedReason,
                  some ("Upstream Proxmox returned HTTP " ++ toString status ++ ".")⟩)
              | .inl raw => pure (.inr ⟨if route.method = .delete then "deleted" else "pushed",
                  actor, route.path, raw.bind taskId, none, none⟩))
            fun e => if e.isException ∧ !isHttp e then raise (httpError py 502
                [("reason", .str "proxmox_firewall_write_failed"), ("detail", .str e.message),
                  ("endpoint_id", .int endpoint.id), ("path", .str route.path)])
              else raise e)
          ((ask .close).bind fun
            | .ok () => pure ()
            | .error e => if e.isException then pure () else raise e)

/-- `apply_firewall_diff` of a payload; `scrub` is `scrub_message` with it. -/
def applyFirewallDiff (scrub : String → String) (payload : FirewallIntentPayload)
    (endpointId : Option ℤ) (actor : Option String) : Write Intent.ApplyResultItem :=
  Prog.rescue
    (Prog.andThen (.ret (pathFor payload)) fun route =>
      Prog.andThen (firewallWrite py endpointId actor route
          (if route.method = .delete then [] else payload.body)) fun
        | .inl refusal => pure ⟨"failed", some refusal.reason, some refusal.detail, none⟩
        | .inr response =>
          Prog.andThen (ask (.record response.status)) fun _ =>
            pure ⟨if response.status = "skipped" then "skipped" else "succeeded", response.reason,
              some (response.detail.getD (payload.action ++ " " ++ response.status)),
              response.proxmoxTaskId⟩)
    fun e => if e.isException then
        pure ⟨"failed", some "firewall_apply_failed", some (scrub e.message), none⟩
      else raise e

end ProxboxApi.Firewall
