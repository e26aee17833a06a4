import ProxboxApi.VmDispatch
import ProxboxApi.TaskGroup

/-! `_dispatch_vm_operation_queue`: the operations run concurrently under the write semaphore, and
each one records its VM as resolved or as failed in the maps that they share. -/

namespace ProxboxApi.VmDispatch

open Requests
open VmQueue (field Record PreparedVMState Method NetBoxVMOperation relationId
  extractProxmoxEndpointId normalizeProxmoxVmType)

/-- An `Exception`: whether it is a `ProxboxException`, and the disk total that its text asks for. -/
structure Exn where
  proxbox : Bool
  aggregateDisk : Option ℤ

/-- The calls that wait for NetBox: `resolve_virtual_machine_by_sync_state`,
`rest_reconcile_async` of a record, `rest_create_async`, `rest_first_async` and
`rest_patch_async`. -/
inductive Request where
  | resolve (vmid : ℤ) (endpointId clusterId : Option ℤ) (fallbackQuery : Option Json.Fields)
  | reconcile (lookup payload : Json.Fields) (existing : Record)
  | create (payload lookup : Json.Fields)
  | first (query : Json.Fields)
  | patch (recordId : ℤ) (payload : Json.Fields)

/-- What the calls return or raise; a PATCH may return no dictionary, or an empty one. -/
abbrev Reply : Request → Type
  | .resolve .. | .first _ | .patch .. => Except Exn (Option Record)
  | .reconcile .. | .create .. => Except Exn Record

/-- Every call raises. -/
def unavailable : (q : Request) → Reply q
  | .resolve .. | .first _ | .patch .. | .reconcile .. | .create .. => .error ⟨true, none⟩

/-- What an operation comes to: a record, nothing, or a failure. -/
abbrev Outcome := Except Unit (Option Record)

/-- An operation of the queue, with the lookup of its prepared VM. -/
structure QueuedOperation extends NetBoxVMOperation where
  lookup : Json.Fields

abbrev Key := String × ℤ × String

variable (py : Python)

/-- `int(prepared.resource.get("vmid", 0) or 0)`; `none` is an exception. -/
def preparedVmid (p : PreparedVMState) : Option ℤ :=
  let vmid := field "vmid" p.resource
  py.int (if Python.truthy vmid then vmid else .int 0)

/-- `prepared_vm_result_key`. -/
def preparedVmResultKey (p : PreparedVMState) : Option Key :=
  (preparedVmid py p).map fun vmid =>
    (p.clusterName, vmid, (normalizeProxmoxVmType py (.str p.vmType)).getD "")

/-- The custom-field flags. -/
structure FieldFlags where
  overwriteVmCustomFields : Bool
  customFieldsEnabled : Bool

variable (flags : FieldFlags)

def FieldFlags.payload (payload : Json.Fields) : Json.Fields :=
  legacyCustomFieldsPayload flags.overwriteVmCustomFields flags.customFieldsEnabled payload

/-- `legacy_custom_field_fallback_query`. -/
def FieldFlags.fallbackQuery (query : Json.Fields) : Option Json.Fields :=
  if flags.customFieldsEnabled then some query else none

abbrev Dispatch := Prog Request Reply Outcome

def failed : Dispatch := .ret (.error ())

def resolved (record : Record) : Dispatch := .ret (.ok (some record))

/-- The query after a failed creation. -/
def firstQuery (lookup : Json.Fields) : Json.Fields := Dict.set "limit" (.int 2) lookup

/-- The creation of a VM that the identity does not resolve to. -/
def createVm (op : QueuedOperation) : Dispatch :=
  .ask (.create (flags.payload op.prepared.desiredPayload) op.lookup) fun
    | .ok record => resolved record
    | .error e =>
      if !e.proxbox then failed
      else match flags.fallbackQuery op.lookup with
        | none => failed
        | some query => .ask (.first (firstQuery query)) fun
          | .ok (some record) => resolved record
          | _ => failed

/-- A CREATE operation. -/
def runCreate (op : QueuedOperation) (vmid : ℤ) : Dispatch :=
  match relationId py (field "cluster" op.prepared.desiredPayload) with
  | none => failed
  | some clusterId =>
    .ask (.resolve vmid (extractProxmoxEndpointId py op.prepared.desiredPayload) clusterId
        (flags.fallbackQuery op.lookup)) fun
      | .error _ => failed
      | .ok none => createVm flags op
      | .ok (some existing) =>
        .ask (.reconcile op.lookup (flags.payload op.prepared.desiredPayload) existing) fun
          | .error _ => failed
          | .ok record => resolved record

/-- The record of an UPDATE that NetBox accepts: its answer, or else the record with the patch. -/
def patchedRecord (existing patch : Json.Fields) (recordId : ℤ) : Option Record → Record
  | some record => record
  | none => Dict.set "id" (.int recordId) (Dict.update existing patch)

/-- A PATCH by `_patch_vm_with_disk_aggregate_retry`, and what follows. -/
def runPatch (existing patch : Json.Fields) (recordId : ℤ) : Dispatch :=
  .ask (.patch recordId patch) fun
    | .ok answer => resolved (patchedRecord existing patch recordId answer)
    | .error e => match if e.proxbox then e.aggregateDisk else none with
      | none => failed
      | some disk => .ask (.patch recordId (Dict.set "disk" (.int disk) patch)) fun
        | .ok answer => resolved (patchedRecord existing patch recordId answer)
        | .error _ => failed

/-- An UPDATE operation. -/
def runUpdate (op : QueuedOperation) : Dispatch :=
  match op.existingRecord with
  | none => failed
  | some existing =>
    match relationId py (field "id" existing) with
    | some (some recordId) =>
      let patch := flags.payload op.patchPayload
      if patch.isEmpty then resolved existing else runPatch existing patch recordId
    | _ => failed

/-- `_run_single`. -/
def runSingle (op : QueuedOperation) : Dispatch :=
  -- without a VM id the task ends before it has a key, and writes nothing
  match preparedVmid py op.prepared with
  | none => failed
  | some vmid => match op.method with
    | .get => .ret (.ok op.existingRecord)
    | .create => runCreate py flags op vmid
    | .update => runUpdate py flags op

/-- `resolved_records` and `failed_keys`. -/
structure Maps where
  resolved : List (Key × Record)
  failed : List Key

/-- What an operation writes in the maps. -/
def Maps.record (key : Key) : Outcome → Maps → Maps
  | .ok (some record), maps => { maps with resolved := Dict.set key record maps.resolved }
  | .ok none, maps => maps
  | .error _, maps =>
    ⟨Dict.erase key maps.resolved, if key ∈ maps.failed then maps.failed else key :: maps.failed⟩

abbrev System := TaskGroup Request Reply Outcome Maps

/-- The start of the dispatch. -/
def start (ops : List QueuedOperation) : System :=
  TaskGroup.start (ops.map (runSingle py flags)) ⟨[], []⟩

/-- The key of the operation at a place of the queue. -/
def keyAt (ops : List QueuedOperation) (i : ℕ) : Option Key :=
  ops[i]?.bind fun op => preparedVmResultKey py op.prepared

/-- The end of the operation at a place of the queue. -/
def finish (ops : List QueuedOperation) (i : ℕ) (outcome : Outcome) (maps : Maps) : Maps :=
  match keyAt py ops i with
  | none => maps
  | some key => maps.record key outcome

/-- The keys of the prepared VMs, pairwise distinct. -/
structure DistinctKeys (ops : List QueuedOperation) (keys : List Key) : Prop where
  keys_eq : ops.map (fun op => preparedVmResultKey py op.prepared) = keys.map some
  nodup : keys.Nodup

/-- What the maps say of a VM. -/
def Maps.entry (maps : Maps) (key : Key) : Option Record × Bool :=
  (Dict.get key maps.resolved, decide (key ∈ maps.failed))

/-- The entry of an operation that is not done, or by what it came to. -/
def entryOf : Option Outcome → Option Record × Bool
  | none | some (.ok none) => (none, false)
  | some (.ok (some record)) => (some record, false)
  | some (.error _) => (none, true)

/-- A call about the VM of an operation. -/
def About (op : QueuedOperation) : Request → Prop
  | .resolve vmid endpointId clusterId fallbackQuery => preparedVmid py op.prepared = some vmid ∧
      endpointId = extractProxmoxEndpointId py op.prepared.desiredPayload ∧
      relationId py (field "cluster" op.prepared.desiredPayload) = some clusterId ∧
      fallbackQuery = flags.fallbackQuery op.lookup
  | .reconcile lookup payload _ =>
      lookup = op.lookup ∧ payload = flags.payload op.prepared.desiredPayload
  | .create payload lookup =>
      lookup = op.lookup ∧ payload = flags.payload op.prepared.desiredPayload
  | .first query => query = firstQuery op.lookup
  | .patch recordId _ => ∃ existing, op.existingRecord = some existing ∧
      relationId py (field "id" existing) = some (some recordId)

/-- The answer of a call is a record. -/
def Gives : (q : Request) → Reply q → Record → Prop
  | .resolve .., _, _ => False
  | .reconcile .., reply, record | .create .., reply, record => reply = .ok record
  | .first _, reply, record | .patch .., reply, record => reply = .ok (some record)

/-- A record of an operation's own VM: the one that its VM has, as it is or with the patch, or the
answer to one of its calls. -/
def Belongs (op : QueuedOperation) (log : List (Prog.Exchange Request Reply)) (record : Record) :
    Prop :=
  op.existingRecord = some record ∨
    (∃ existing recordId, op.existingRecord = some existing ∧
      relationId py (field "id" existing) = some (some recordId) ∧
      record = patchedRecord existing (flags.payload op.patchPayload) recordId none) ∨
    ∃ x ∈ log, Gives x.1 x.2 record

/-- What an operation comes to: a record of its own VM or a failure; nothing only for a VM that is
left alone and has no record. -/
structure Settled (op : QueuedOperation) (log : List (Prog.Exchange Request Reply))
    (outcome : Outcome) : Prop where
  record : ∀ record, outcome = .ok (some record) → Belongs py flags op log record
  nothing : outcome = .ok none → op.method = .get ∧ op.existingRecord = none

/-- What a task holds of the maps: the entry of its own key. -/
def Holds (ops : List QueuedOperation) (i : ℕ) (outcome : Option Outcome) (maps : Maps) : Prop :=
  ∀ key, keyAt py ops i = some key → maps.entry key = entryOf outcome

section Single

variable {py flags} {op : QueuedOperation}

/-- Every call of an operation is about its VM, and the operation comes to what `Settled` says. -/
abbrev Sound (py : Python) (flags : FieldFlags) (op : QueuedOperation)
    (log : List (Prog.Exchange Request Reply)) (p : Dispatch) : Prop :=
  Prog.Always (fun _ _ => True) (fun _ q => About py flags op q) (Settled py flags op) log p

end Single

section Maps

variable {py flags} {maps : Maps} {key : Key} {ops : List QueuedOperation} {keys : List Key}

end Maps

section Runs

variable {py flags} {ops : List QueuedOperation} {keys : List Key} {concurrency : ℕ} {s : System}

/-- Guest 100, which NetBox does not have, and guest 101, which it has as it is. -/
def twoGuests : List QueuedOperation :=
  [⟨⟨.create, ⟨"lab", [("vmid", .int 100)], [("name", .str "db"), ("cluster", .int 1)], "qemu"⟩,
      none, []⟩, []⟩,
    ⟨⟨.get, ⟨"lab", [("vmid", .int 101)], [("name", .str "web"), ("cluster", .int 1)], "qemu"⟩,
      some [("id", .int 7)], []⟩, []⟩]

end Runs

end ProxboxApi.VmDispatch
