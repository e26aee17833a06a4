import ProxboxApi.Attempts
import ProxboxApi.Python
import ProxboxApi.VmQueue

/-! The requests of cloud provisioning, and the lease of a customer address: `allocate_ip`,
`release_ip` and the set-up of the cloud network. -/

namespace ProxboxApi.CloudProvision

open Requests
open VmQueue (field)

/-- An exception: `HTTPException`, `ProxmoxAPIError`, another `Exception` (with what
`_is_connection_refused_error` says of it), `CancelledError`, or `GeneratorExit`. -/
inductive Exn where
  | http
  | proxmoxApi
  | exception (refused : Bool)
  | cancelled
  | generatorExit
  deriving DecidableEq, Repr

/-- `isinstance(error, Exception)`. -/
def Exn.isException : Exn → Bool
  | .http | .proxmoxApi | .exception _ => true
  | .cancelled | .generatorExit => false

/-- A row of NetBox's IP addresses. -/
structure IpRow where
  id : ℤ
  address : String
  deriving DecidableEq, Repr

/-- A POST to `available-ips`: applied and answered by a JSON object, applied with its answer lost,
or not applied. -/
inductive AllocateReply where
  | created (row : IpRow) (body : Json.Fields)
  | lost (row : IpRow) (e : Exn)
  | failed (e : Exn)

def AllocateReply.result : AllocateReply → Except Exn Json.Fields
  | .created _ body => .ok body
  | .lost _ e | .failed e => .error e

/-- The row that the POST has created. -/
def AllocateReply.row : AllocateReply → Option IpRow
  | .created row _ | .lost row _ => some row
  | .failed _ => none

/-- A write: whether it takes effect in the end, by its task if it has one, and its answer. -/
structure Write (α : Type) where
  applied : Bool
  result : Except Exn α

structure TaskStatus where
  status : Option String
  exitstatus : Option String

/-- The statuses that the polls of a task read in turn, and the exception that ends the wait if
none of them does. -/
structure Polls where
  seen : List (Except Exn TaskStatus)
  ending : Exn

/-- A resource of `cluster/resources`. -/
structure Resource where
  vmid : Option ℤ
  node : Option String

/-- An event of the stream, by what it reports. -/
inductive Event where
  | terminalLine
  | provisionStep (step status : String)
  | complete (ok : Bool)
  deriving DecidableEq, Repr

/-- What cloud-init is configured with: the address, and the slot of a new cloud-init drive. -/
structure CiArgs where
  ipconfig0 : Option String
  cloudinitSlot : Option String
  deriving DecidableEq, Repr

inductive Request where
  | netboxSession
  | allocate (prefixId : ℤ)
  | pause
  | release (ipId : ℤ)
  | openSession
  | closeSession
  | clusterResources
  | templateConfig (node : String) (templateVmid : ℤ)
  | clone (node : String) (templateVmid newVmid : ℤ) (target : String)
  | waitTask (node upid : String)
  | qemuConfig (node : String) (vmid : ℤ)
  | configure (node : String) (vmid : ℤ) (args : CiArgs)
  | resize (node : String) (vmid : ℤ) (size : String)
  | start (node : String) (vmid : ℤ)
  | journal
  | bindIp (ipId newVmid : ℤ)
  | nextid
  | createLxc (node : String) (params : Json.Fields)
  | startLxc (node : String) (vmid : ℤ)
  | emit (event : Event)

/-- Answers, or the exception that ends the await: an event that is yielded may be answered by the
cancellation or the closing of the generator. -/
abbrev Reply : Request → Type
  | .allocate _ => AllocateReply
  | .release _ => Write Unit
  | .clusterResources => Except Exn (List Resource)
  | .clone .. | .qemuConfig .. | .resize .. | .start .. | .nextid | .startLxc .. => Except Exn Json
  | .configure .. | .createLxc .. => Write Json
  | .waitTask .. => Polls
  | .netboxSession | .pause | .openSession | .closeSession | .templateConfig .. | .journal
  | .bindIp .. | .emit _ => Except Exn Unit

structure Lease where
  ipId : Option ℤ
  deriving DecidableEq, Repr

/-- The variables that the handlers and the clean-up of a run read: its lease, whether the Proxmox
session is open, and whether the lease is settled. -/
structure Locals where
  lease : Option Lease
  opened : Bool
  leaseSettled : Bool

abbrev Act (α : Type) := Attempt Request Reply Locals Exn α

structure CloudNetworkConfig where
  prefixId : Option ℤ
  bridge : String
  vlanTag : Option ℤ
  gateway : String

/-- The runtime settings, and what `ipaddress` makes of texts: whether it is an address, and the
address and prefix length of an interface. -/
structure Settings where
  py : Python
  isIpAddress : String → Bool
  ipInterface : String → Option (String × ℕ)
  cloudNetwork : CloudNetworkConfig
  maxRetries : ℕ
  mockProxmox : Bool

variable (cfg : Settings)

/-- `validate_cloud_network_configured`. -/
def cloudNetworkConfigured (network : CloudNetworkConfig) : Bool :=
  (match network.prefixId with
    | some prefixId => 1 ≤ prefixId
    | none => false) &&
    Text.strip network.bridge ≠ "" && Text.strip network.gateway ≠ "" &&
    cfg.isIpAddress network.gateway

/-- `_require_resolved_cloud_network`. -/
def requireResolvedCloudNetwork : Act CloudNetworkConfig :=
  if cloudNetworkConfigured cfg cfg.cloudNetwork then Attempt.ret cfg.cloudNetwork
  else Attempt.throw .http

structure AllocatedIPAddress where
  id : Option ℤ
  address : String
  cidr : String
  deriving DecidableEq, Repr

/-- The address and the CIDR of a text that is not empty. -/
def normalizeAddress (raw : String) : String × String :=
  match cfg.ipInterface raw with
  | some (ip, length) => (ip, ip ++ "/" ++ toString length)
  | none => (String.ofList (raw.toList.takeWhile (· ≠ '/')), raw)

/-- `_normalize_allocated_address`; `none` is its `ValueError`. -/
def normalizeAllocatedAddress (record : Json.Fields) : Option AllocatedIPAddress :=
  let id := if (field "id" record).isNull then none else cfg.py.int (field "id" record)
  let raw := field "address" record
  let address := Text.strip (if Python.truthy raw then cfg.py.str raw else "")
  if address = "" then none
  else
    let (ip, cidr) := normalizeAddress cfg address
    some ⟨id, ip, cidr⟩

/-- `rest_create_async` on `available-ips`, without a lookup, with some attempts left after this
one. -/
def restCreate (prefixId : ℤ) : ℕ → Act Json.Fields
  | 0 => Attempt.ask (.allocate prefixId) AllocateReply.result
  | left + 1 => (Attempt.ask (.allocate prefixId) AllocateReply.result).handle fun e =>
    if e = .exception true then
      (Attempt.ask .pause id).bind fun _ => restCreate prefixId left
    else Attempt.throw e

/-- `allocate_ip`. -/
def allocateIp (prefixId : ℤ) : Act AllocatedIPAddress :=
  (restCreate prefixId cfg.maxRetries).bind fun record =>
    match normalizeAllocatedAddress cfg record with
    | some allocated => Attempt.ret allocated
    | none => Attempt.throw (.exception false)

/-- An operation whose exceptions are logged only. -/
def bestEffort (p : Act Unit) : Act Unit :=
  p.handle fun e => if e.isException then Attempt.ret () else Attempt.throw e

/-- `_release_cloud_network_lease`, and `release_ip`. -/
def releaseCloudNetworkLease (lease : Option Lease) : Act Unit :=
  match lease.bind Lease.ipId with
  | none => Attempt.ret ()
  | some ipId => bestEffort (Attempt.ask (.release ipId) Write.result)

end ProxboxApi.CloudProvision
