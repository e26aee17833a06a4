import ProxboxApi.VerbHandlers

/-! The endpoints that are generated for the operations of the Proxmox API and pass them on. -/

namespace ProxboxApi.Proxy

open Requests
open Verbs (Exn Endpoint)

inductive Method where
  | get
  | post
  | put
  | delete
  deriving DecidableEq, Repr

def Method.name : Method → String
  | .get => "GET"
  | .post => "POST"
  | .put => "PUT"
  | .delete => "DELETE"

/-- An operation of the mounted document. -/
structure Operation where
  openapiPath : String
  method : Method

/-- What selects a `ProxmoxSessionSchema`, and the row or record that it was made of. -/
structure Target where
  name : Option String
  domain : Option String
  ipAddress : Option String
  endpoint : Endpoint
  deriving DecidableEq, Repr

inductive Source where
  | database
  | netbox
  deriving DecidableEq, Repr

/-- The arguments of a generated endpoint. -/
structure Arguments where
  source : Source
  targetName : Option String
  targetDomain : Option String
  targetIpAddress : Option String
  pathValues : List (String × String)
  queryValues : Json.Fields
  requestBody : Option Json.Fields

inductive Request where
  | targets (source : Source)
  | openSession (target : Target)
  | call (method : Method) (path : String) (payload : Json.Fields)
  | close

/-- Schemas, the answer of Proxmox, or the exception that is raised. -/
abbrev Reply : Request → Type
  | .targets _ => Except Exn (List Target)
  | .openSession _ | .close => Except Exn Unit
  | .call .. => Except Exn Json

abbrev Route (α : Type) := Prog Request Reply (Except Exn α)

def ask (q : Request) : Prog Request Reply (Reply q) := .ask q .ret

def raise {α : Type} (e : Exn) : Route α := .ret (.error e)

/-- One selector of `resolve_proxmox_target_session`. -/
def selectBy (field : String) (value : String) (get : Target → Option String)
    (targets : List Target) : Except Exn Target :=
  match targets.find? fun t => get t = some value with
  | some target => .ok target
  | none => .error (.proxbox
      ("No result found for Proxmox Sessions based on the provided " ++ field))

/-- `resolve_proxmox_target_session`, up to the session. -/
def selectTarget (args : Arguments) (targets : List Target) : Except Exn Target :=
  match args.targetIpAddress, args.targetDomain, args.targetName with
  | some value, _, _ => selectBy "ip_address" value (·.ipAddress) targets
  | none, some value, _ => selectBy "domain" value (·.domain) targets
  | none, none, some value => selectBy "name" value (·.name) targets
  | none, none, none =>
    match targets with
    | [] => .error (.proxbox "No Proxmox endpoints found for generated proxy route.")
    | [target] => .ok target
    | _ => .error (.proxbox
        "Multiple Proxmox endpoints configured; provide name, domain, or ip_address.")

def resolveProxmoxTargetSession (args : Arguments) : Route Target :=
  Prog.andThen (ask (.targets args.source)) fun targets =>
  Prog.andThen (.ret (selectTarget args targets)) fun target =>
  Prog.andThen (ask (.openSession target)) fun _ => .ret (.ok target)

/-- `_render_proxmox_path`. -/
def renderProxmoxPath (template : String) (pathValues : List (String × String)) :
    Except Exn String :=
  pathValues.foldlM (fun rendered (name, value) =>
    if (value.splitOn "..").length > 1 ∨ value.toList.head? = some '/' ∨
        value.toList.head? = some '\\' then
      .error (.exception "ValueError" ("Invalid path parameter value for " ++ name))
    else .ok (rendered.replace ("\x7b" ++ name ++ "\x7d") value)) template

/-- What the call is made with. -/
def payloadOf (op : Operation) (args : Arguments) : Json.Fields :=
  if op.method = .get then args.queryValues
  else Dict.update (Dict.update [] (args.requestBody.getD [])) args.queryValues

/-- The calls of a generated endpoint on the session of its target. -/
def forward (op : Operation) (args : Arguments) : Route Json :=
  Prog.andThen (.ret (renderProxmoxPath op.openapiPath args.pathValues)) fun path =>
    ask (.call op.method (String.ofList (path.toList.dropWhile (· = '/'))) (payloadOf op args))

/-- An exception of a generated endpoint, as it is raised. -/
def wrapped (op : Operation) (e : Exn) : Exn :=
  if e.isException ∧ !e.isProxbox then
    .proxbox ("Generated Proxmox proxy request failed for " ++ op.method.name ++ " " ++
      op.openapiPath ++ ".")
  else e

/-- `generated_endpoint`, without the check of the response by its model. -/
def generatedEndpoint (op : Operation) (args : Arguments) : Route Json :=
  Prog.bind (resolveProxmoxTargetSession args) fun
    | .error e => raise (wrapped op e)
    | .ok _ =>
      Prog.lastly
        (Prog.rescue (forward op args) fun e => raise (wrapped op e))
        (ask .close)

end ProxboxApi.Proxy
