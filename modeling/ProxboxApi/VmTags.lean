import ProxboxApi.VerbHandlers

/-! The routes that tag and untag a VM that is pending deletion. -/

namespace ProxboxApi.VmTags

open Requests
open Verbs (Exn Endpoint)

inductive VmKind where
  | qemu
  | lxc
  deriving DecidableEq, Repr

/-- `TagPendingDeletionBody`. -/
structure TagPendingDeletionBody where
  vmid : ℤ
  node : String
  kind : VmKind
  tag : String

inductive Action where
  | add
  | remove
  deriving DecidableEq, Repr

/-- `parse_proxmox_tags`. -/
def parseProxmoxTags (py : Python) (raw : Option String) : List String :=
  let names := ((raw.getD "").toList.splitOn ';').map fun chunk =>
    py.lower (Text.strip (String.ofList chunk))
  (names.filter (· ≠ "")).foldl (fun out name => if name ∈ out then out else out ++ [name]) []

/-- `tags_to_config`. -/
def tagsToConfig (tags : List String) : String := ";".intercalate tags

/-- The tags to set, if the operation changes them. -/
def updatedTags (action : Action) (tag : String) (current : List String) : Option (List String) :=
  match action with
  | .add => if tag ∈ current then none else some (current ++ [tag])
  | .remove => if tag ∈ current then some (current.filter (· ≠ tag)) else none

inductive Request where
  | endpoint (id : ℤ)
  | endpoints
  | openSession (endpoint : Endpoint)
  | config (kind : VmKind) (node : String) (vmid : ℤ)
  | putTags (kind : VmKind) (node : String) (vmid : ℤ) (tags : String)

/-- Rows, the raw tags of a configuration, or the exception that is raised. -/
abbrev Reply : Request → Type
  | .endpoint _ => Except Exn (Option Endpoint)
  | .endpoints => Except Exn (List Endpoint)
  | .openSession _ | .putTags .. => Except Exn Unit
  | .config .. => Except Exn (Option String)

abbrev Route (α : Type) := Prog Request Reply (Except Exn α)

def ask (q : Request) : Prog Request Reply (Reply q) := .ask q .ret

def pure {α : Type} (a : α) : Route α := .ret (.ok a)

def raise {α : Type} (e : Exn) : Route α := .ret (.error e)

/-- A `JSONResponse`. -/
structure Refusal where
  statusCode : ℕ
  reason : String
  deriving DecidableEq, Repr

/-- `_gate`, of an `endpoint_id`. -/
def gate (id : ℤ) : Route (Except Refusal Endpoint) :=
  Prog.andThen (ask (.endpoint id)) fun
    | none => pure (.error ⟨403, "endpoint_not_found"⟩)
    | some endpoint =>
      if endpoint.allowWrites then pure (.ok endpoint)
      else pure (.error ⟨403, "endpoint_writes_disabled"⟩)

/-- `_resolve_endpoint`; the rows are those of the table. -/
def resolveEndpoint : Option ℤ → Route (Except Refusal Endpoint)
  | some id => gate id
  | none => Prog.andThen (ask .endpoints) fun rows =>
    match rows.filter (·.allowWrites) with
    | [] => pure (.error ⟨403, "no_write_enabled_endpoint"⟩)
    | [endpoint] => pure (.ok endpoint)
    | _ => pure (.error ⟨422, "ambiguous_endpoint"⟩)

/-- The body of the `try` of `_apply_tag_operation`: the tags after it. -/
def setTags (py : Python) (endpoint : Endpoint) (body : TagPendingDeletionBody) (action : Action) :
    Route (List String) :=
  Prog.andThen (ask (.openSession endpoint)) fun _ =>
  Prog.andThen (ask (.config body.kind body.node body.vmid)) fun raw =>
    let current := parseProxmoxTags py raw
    match updatedTags action body.tag current with
    | none => pure current
    | some tags =>
      Prog.andThen (ask (.putTags body.kind body.node body.vmid (tagsToConfig tags))) fun _ =>
        pure tags

/-- `_apply_tag_operation`: a refusal, or the tags after it. -/
def applyTagOperation (py : Python) (body : TagPendingDeletionBody) (endpointId : Option ℤ)
    (action : Action) : Route (Except Refusal (List String)) :=
  Prog.andThen (resolveEndpoint endpointId) fun
    | .error refusal => pure (.error refusal)
    | .ok endpoint =>
      Prog.rescue
        (Prog.andThen (setTags py endpoint body action) fun tags => pure (.ok tags))
        fun e =>
          if e.isException then
            raise (.exception "HTTPException" ("502: Proxmox API call failed: " ++ e.message))
          else raise e

def tagPendingDeletion (py : Python) (body : TagPendingDeletionBody) (endpointId : Option ℤ) :=
  applyTagOperation py body endpointId .add

def untagPendingDeletion (py : Python) (body : TagPendingDeletionBody) (endpointId : Option ℤ) :=
  applyTagOperation py body endpointId .remove

end ProxboxApi.VmTags
