import ProxboxApi.CloudProvision

/-! What the runs of the provision programs do with the addresses they allocate: the rules of their
steps, from what the exchanges so far say of the lease. -/

namespace ProxboxApi.CloudProvision

open Requests
open VmQueue (field)

variable (cfg : Settings)

abbrev Exchange := Prog.Exchange Request Reply

abbrev Log := List Exchange

/-- The CIDR of an address, as it is leased. -/
def IpRow.cidr (row : IpRow) : String := (normalizeAddress cfg (Text.strip row.address)).2

/-- The rows that the POSTs to `available-ips` have created. -/
def allocatedRows (log : Log) : List IpRow :=
  log.filterMap fun
    | ⟨.allocate _, reply⟩ => reply.row
    | _ => none

/-- A row that is created, and not answered with. -/
def stray : Exchange → Bool
  | ⟨.allocate _, .lost _ _⟩ => true
  | _ => false

def isCreated : Exchange → Bool
  | ⟨.allocate _, .created _ _⟩ => true
  | _ => false

def isRelease : Exchange → Bool
  | ⟨.release _, _⟩ => true
  | _ => false

/-- A DELETE of an address that takes effect. -/
def deletes : Exchange → Bool
  | ⟨.release _, reply⟩ => reply.applied
  | _ => false

/-- A DELETE of an address that NetBox does not carry out. -/
def refusesDelete : Exchange → Bool
  | ⟨.release _, reply⟩ => !reply.applied
  | _ => false

/-- A write of a guest's network configuration that takes effect. -/
def applied : Exchange → Bool
  | ⟨.configure .., reply⟩ => reply.applied
  | ⟨.createLxc .., reply⟩ => reply.applied
  | _ => false

/-- The guest that the request writes is given the address. -/
def CarriesAddress (cidr : String) : Request → Prop
  | .configure _ _ args => ∃ gateway, args.ipconfig0 = some ("ip=" ++ cidr ++ ",gw=" ++ gateway)
  | .createLxc _ params => ∃ front gateway,
      field "net0" params = .str (front ++ ",ip=" ++ cidr ++ ",gw=" ++ gateway)
  | _ => False

def writesGuest : Request → Bool
  | .configure .. | .createLxc .. => true
  | _ => false

def Deleted (log : Log) (row : IpRow) : Prop :=
  ∃ x ∈ log, deletes x = true ∧ x.1 = .release row.id

def Carried (log : Log) (row : IpRow) : Prop :=
  ∃ x ∈ log, applied x = true ∧ CarriesAddress (row.cidr cfg) x.1

/-- Each address that the run has allocated is still there exactly if a guest carries it. -/
def Settled (log : Log) : Prop := ∀ row ∈ allocatedRows log, ¬ Deleted log row ↔ Carried cfg log row

/-- NetBox answers a POST with the row it has created, and a connection that was refused has not
carried one. -/
def Allowed : (q : Request) → Reply q → Prop
  | .allocate _, .created row body => field "id" body = .int row.id ∧
      field "address" body = .str row.address ∧ Text.strip row.address ≠ ""
  | .allocate _, .lost _ e => e ≠ .exception true
  | _, _ => True

def raises {α : Type} (counts : Exn → Bool) : Except Exn α → Bool
  | .ok _ => false
  | .error e => counts e

/-- The configuration that is read has no slot for a cloud-init drive. -/
def noSlot (reply : Except Exn Json) : Bool :=
  match qemuConfigResult reply with
  | .ok config => (cloudinitSlot cfg config).isNone
  | .error _ => false

/-- A reply that ends the provisioning before it is done, by an exception that counts: a session
that cannot be opened, a write that is refused, a task that fails or is waited for too long, an
event that cannot be yielded.  Best-effort calls count only where they are cut off. -/
def rejects (counts : Exn → Bool) : Exchange → Bool
  | ⟨.openSession, reply⟩ => raises counts reply
  | ⟨.clusterResources, reply⟩ => raises (fun e => e ≠ .proxmoxApi && counts e) reply
  | ⟨.templateConfig .., reply⟩ => raises counts reply
  | ⟨.clone .., reply⟩ => raises counts reply
  | ⟨.waitTask .., reply⟩ => raises counts reply.result
  | ⟨.qemuConfig .., reply⟩ =>
    raises (fun e => !e.isException && counts e) reply || noSlot cfg reply
  | ⟨.configure .., reply⟩ => raises counts reply.result
  | ⟨.resize .., reply⟩ => raises counts reply
  | ⟨.start .., reply⟩ => raises counts reply
  | ⟨.journal, reply⟩ => raises (fun e => !e.isException && counts e) reply
  | ⟨.bindIp .., reply⟩ => raises (fun e => !e.isException && counts e) reply
  | ⟨.nextid, reply⟩ => raises counts (vmidResult cfg reply)
  | ⟨.createLxc .., reply⟩ => raises counts reply.result
  | ⟨.startLxc .., reply⟩ => raises (fun e => !e.isException && counts e) reply
  | ⟨.emit (.complete _), _⟩ => false
  | ⟨.emit _, reply⟩ => raises counts reply
  | _ => false

/-- The exchanges of a run that has leased the row, or that leases none: whether a reply has
rejected the provisioning, and whether the release has been asked for. -/
structure At (counts : Exn → Bool) (row : Option IpRow) (rejected released : Bool) (log : Log) :
    Prop where
  rows : allocatedRows log = row.toList
  strays : log.any stray = false
  created : log.any isCreated = row.isSome
  guests : ∀ x ∈ log, writesGuest x.1 = true → ∀ r, row = some r → CarriesAddress (r.cidr cfg) x.1
  releases : ∀ x ∈ log, ∀ id, x.1 = .release id → ∀ r, row = some r → id = r.id
  rejected : log.any (rejects cfg counts) = rejected
  released : log.any isRelease = released
  unreleased : row = none → log.any isRelease = false

/-- A request that neither allocates nor releases an address. -/
def plain : Request → Bool
  | .allocate _ | .release _ => false
  | _ => true

variable {cfg} {counts : Exn → Bool} {row : Option IpRow} {rejected released : Bool} {log : Log}

theorem At.snoc (h : At cfg counts row rejected released log) {q : Request} (reply : Reply q)
    (hq : plain q = true) (hguest : writesGuest q = true →
      ∀ r, row = some r → CarriesAddress (r.cidr cfg) q) :
    At cfg counts row (rejected || rejects cfg counts ⟨q, reply⟩) released (log ++ [⟨q, reply⟩]) := by
  have hrow : allocatedRows [⟨q, reply⟩] = [] := by
    cases q with
    | allocate => simp [plain] at hq
    | _ => rfl
  have hstray : stray ⟨q, reply⟩ = false := by
    cases q with
    | allocate => simp [plain] at hq
    | _ => rfl
  have hcreated : isCreated ⟨q, reply⟩ = false := by
    cases q with
    | allocate => simp [plain] at hq
    | _ => rfl
  have hrelease : isRelease ⟨q, reply⟩ = false := by
    cases q with
    | release => simp [plain] at hq
    | _ => rfl
  constructor
  · have hrows := h.rows
    unfold allocatedRows at hrows hrow ⊢
    rw [List.filterMap_append, hrows, hrow, List.append_nil]
  · simp [h.strays, hstray]
  · simp [h.created, hcreated]
  · intro x hx hwrites r hr
    rcases List.mem_append.mp hx with hx | hx
    · exact h.guests x hx hwrites r hr
    · rw [List.mem_singleton.mp hx] at hwrites ⊢
      exact hguest hwrites r hr
  · intro x hx id hid r hr
    rcases List.mem_append.mp hx with hx | hx
    · exact h.releases x hx id hid r hr
    · rw [List.mem_singleton.mp hx] at hid
      cases hid
      simp [plain] at hq
  · simp [h.rejected]
  · simp [h.released, hrelease]
  · intro hrow
    simp [h.unreleased hrow, hrelease]

theorem At.release {r : IpRow} (h : At cfg counts (some r) rejected released log)
    {reply : Reply (.release r.id)} :
    At cfg counts (some r) rejected true (log ++ [⟨.release r.id, reply⟩]) := by
  constructor
  · have hrows := h.rows
    unfold allocatedRows at hrows ⊢
    rw [List.filterMap_append, hrows]
    rfl
  · simp [h.strays, stray]
  · simp [h.created, isCreated]
  · intro x hx hwrites r' hr
    rcases List.mem_append.mp hx with hx | hx
    · exact h.guests x hx hwrites r' hr
    · rw [List.mem_singleton.mp hx] at hwrites
      cases hwrites
  · intro x hx id hid r' hr
    rcases List.mem_append.mp hx with hx | hx
    · exact h.releases x hx id hid r' hr
    · rw [List.mem_singleton.mp hx] at hid
      cases hid
      rw [← Option.some.inj hr]
  · simp [h.rejected, rejects]
  · simp [isRelease]
  · rintro ⟨⟩

def leaseOf (row : Option IpRow) : Option Lease := row.map fun r => ⟨some r.id⟩

/-- The lease of a run that goes on. -/
def Leases (row : Option IpRow) (s : Locals) : Prop :=
  s.lease = leaseOf row ∧ s.leaseSettled = false

variable (cfg) in
/-- So far nothing is rejected, and nothing released. -/
def Holding (counts : Exn → Bool) (row : Option IpRow) (log : Log) (s : Locals) : Prop :=
  At cfg counts row false false log ∧ Leases row s

variable (cfg) in
/-- An exception is on its way, and nothing is released yet. -/
def Failing (counts : Exn → Bool) (row : Option IpRow) (log : Log) (e : Exn) (s : Locals) : Prop :=
  At cfg counts row (counts e) false log ∧ Leases row s

/-- An operation of the provisioning: where it raises an exception that counts, a reply has
rejected it. -/
def Provides {α : Type} (cfg : Settings) (counts : Exn → Bool) (row : Option IpRow)
    (p : Act α) : Prop :=
  Attempt.Triple Allowed (Holding cfg counts row) p (fun log _ s => Holding cfg counts row log s)
    (Failing cfg counts row)

variable {α β : Type}

theorem Provides.ret (a : α) : Provides cfg counts row (Attempt.ret a) :=
  Attempt.Triple.ret fun _ _ h => h

theorem Provides.bind {p : Act α} {f : α → Act β} (hp : Provides cfg counts row p)
    (hf : ∀ a, Provides cfg counts row (f a)) : Provides cfg counts row (p.bind f) :=
  Attempt.Triple.bind hp hf

/-- A request whose reply rejects the provisioning where it raises. -/
theorem Provides.ask {q : Request} {result : Reply q → Except Exn α} (hq : plain q = true)
    (hguest : writesGuest q = true → ∀ r, row = some r → CarriesAddress (r.cidr cfg) q)
    (hrejects : ∀ reply, rejects cfg counts ⟨q, reply⟩ = raises counts (result reply)) :
    Provides cfg counts row (Attempt.ask q result) := by
  refine Attempt.Triple.ask fun log s reply h _ => ?_
  have hafter := h.1.snoc reply hq hguest
  rw [Bool.false_or, hrejects] at hafter
  cases hresult : result reply with
  | ok a =>
    rw [hresult] at hafter
    exact ⟨hafter, h.2⟩
  | error e =>
    rw [hresult] at hafter
    exact ⟨hafter, h.2⟩

/-- An operation that is only ever cut off. -/
def BestEffort (cfg : Settings) (counts : Exn → Bool) (row : Option IpRow) (p : Act Unit) : Prop :=
  Attempt.Triple Allowed (Holding cfg counts row) p (fun log _ s => Holding cfg counts row log s)
    fun log e s => Failing cfg counts row log e s ∧ e.isException = false

theorem BestEffort.provides {p : Act Unit} (h : BestEffort cfg counts row p) :
    Provides cfg counts row p :=
  Attempt.Triple.mono h (fun _ _ h => h) (fun _ _ _ h => h) fun _ _ _ h => h.1

theorem BestEffort.ret : BestEffort cfg counts row (Attempt.ret ()) :=
  Attempt.Triple.ret fun _ _ h => h

theorem BestEffort.ask {q : Request} {result : Reply q → Except Exn Unit}
    (hq : plain q = true) (hguest : writesGuest q = false)
    (hrejects : ∀ reply, rejects cfg counts ⟨q, reply⟩ =
      raises (fun e => !e.isException && counts e) (result reply)) :
    BestEffort cfg counts row (bestEffort (Attempt.ask q result)) := by
  have hask : Attempt.Triple Allowed (Holding cfg counts row) (Attempt.ask q result)
      (fun log _ s => Holding cfg counts row log s) (fun log e s =>
        At cfg counts row (!e.isException && counts e) false log ∧ Leases row s) := by
    refine Attempt.Triple.ask fun log s reply h _ => ?_
    have hafter := h.1.snoc reply hq (by simp [hguest])
    rw [Bool.false_or, hrejects] at hafter
    cases hresult : result reply with
    | ok a =>
      rw [hresult] at hafter
      exact ⟨hafter, h.2⟩
    | error e =>
      rw [hresult] at hafter
      exact ⟨hafter, h.2⟩
  refine Attempt.Triple.handle _ hask fun e => ?_
  cases he : e.isException with
  | true =>
    rw [if_pos rfl]
    exact Attempt.Triple.ret fun log s h => by simpa [Holding] using h
  | false =>
    rw [if_neg (by simp)]
    exact Attempt.Triple.throw fun log s h => ⟨by simpa [Failing] using h, he⟩

section Operations

variable (hexception : ∀ e, e.isException = true → counts e = true)
include hexception

omit hexception in
theorem Provides.waitForTask (node : String) (task : Option String) :
    Provides cfg counts row (waitForTask cfg node task) := by
  unfold CloudProvision.waitForTask
  cases task with
  | none => exact Provides.ret ()
  | some upid =>
    dsimp only
    split
    · exact Provides.ask rfl (by simp [writesGuest]) fun _ => rfl
    · exact Provides.ret ()

/-- An exception that is replaced by an `HTTPException` counts as before. -/
theorem counts_wrapped (e : Exn) : counts (if e.isException then .http else e) = counts e := by
  split
  · rename_i he
    rw [hexception _ he, hexception _ (show Exn.http.isException = true from rfl)]
  · rfl

theorem Provides.cloneTemplateVm (req : CloudVMProvisionRequest) :
    Provides cfg counts row (cloneTemplateVm cfg req) := by
  unfold CloudProvision.cloneTemplateVm
  refine Provides.bind ?_ fun resolved => Provides.bind ?_ fun node => Provides.bind ?_ fun answer =>
    Provides.bind (Provides.waitForTask _ _) fun _ => Provides.ret _
  · refine Provides.ask rfl (by simp [writesGuest]) fun reply => ?_
    cases reply with
    | ok resources => rfl
    | error e => cases e <;> simp [rejects, raises, nodeResult]
  · cases resolved with
    | some node => exact Provides.ret node
    | none =>
      refine Provides.ask rfl (by simp [writesGuest]) fun reply => ?_
      cases reply with
      | ok u => rfl
      | error e => exact (counts_wrapped hexception e).symm
  · exact Provides.ask rfl (by simp [writesGuest]) fun _ => rfl

omit hexception in
/-- The configuration that is read rejects the provisioning where it has no slot, or is cut off. -/
theorem rejects_qemuConfig (node : String) (vmid : ℤ) (reply : Except Exn Json) :
    rejects cfg counts ⟨.qemuConfig node vmid, reply⟩ = match qemuConfigResult reply with
      | .ok config => (cloudinitSlot cfg config).isNone
      | .error e => counts e := by
  unfold rejects noSlot
  cases reply with
  | ok answer => cases answer <;> simp [raises, qemuConfigResult]
  | error e => cases he : e.isException <;> simp [raises, qemuConfigResult, he]

/-- The request gives the guest the leased address. -/
def Assigns (cfg : Settings) (row : Option IpRow) (req : CloudVMProvisionRequest) : Prop :=
  ∀ r, row = some r → ∃ gateway : String, gateway ≠ "" ∧
    req.network = some [("ip", .str (r.cidr cfg)), ("gw", .str gateway)]

theorem Provides.configureCloudInitVm {req : CloudVMProvisionRequest} (hreq : Assigns cfg row req) :
    Provides cfg counts row (configureCloudInitVm cfg req) := by
  unfold CloudProvision.configureCloudInitVm getQemuConfigBestEffort
  refine Attempt.Triple.after (fun log config s =>
    At cfg counts row (cloudinitSlot cfg config).isNone false log ∧ Leases row s) ?_ fun config => ?_
  · refine Attempt.Triple.ask fun log s reply h _ => ?_
    have hafter := h.1.snoc (q := .qemuConfig req.targetNode req.newVmid) reply rfl
      (by simp [writesGuest])
    rw [Bool.false_or, rejects_qemuConfig] at hafter
    cases hresult : qemuConfigResult reply with
    | ok config =>
      rw [hresult] at hafter
      exact ⟨hafter, h.2⟩
    | error e =>
      rw [hresult] at hafter
      exact ⟨hafter, h.2⟩
  · cases hslot : cloudinitSlot cfg config with
    | none =>
      refine Attempt.Triple.throw fun log s h => ⟨?_, h.2⟩
      rw [hexception _ (show Exn.http.isException = true from rfl)]
      exact h.1
    | some slot =>
      refine Provides.bind (Provides.ask rfl ?_ fun _ => rfl) fun answer => Provides.ret _
      intro _ r hr
      obtain ⟨gateway, hgateway, hnetwork⟩ := hreq r hr
      refine ⟨gateway, ?_⟩
      rw [hnetwork]
      simp [buildIpconfig0, field, Dict.get, Json.isNull, Python.str, Python.truthy, hgateway,
        String.append_assoc]

omit hexception in
theorem Provides.resizeVmDisk (req : CloudVMProvisionRequest) :
    Provides cfg counts row (resizeVmDisk cfg req) := by
  unfold CloudProvision.resizeVmDisk
  cases req.diskGb with
  | none => exact Provides.ret none
  | some size =>
    exact Provides.bind (Provides.ask rfl (by simp [writesGuest]) fun _ => rfl) fun _ =>
      Provides.ret _

omit hexception in
theorem Provides.startVmAfterProvision (req : CloudVMProvisionRequest) :
    Provides cfg counts row (startVmAfterProvision cfg req) := by
  unfold CloudProvision.startVmAfterProvision
  split
  · exact Provides.bind (Provides.ask rfl (by simp [writesGuest]) fun _ => rfl) fun _ =>
      Provides.ret _
  · exact Provides.ret none

omit hexception in
theorem BestEffort.journalProvisionBestEffort :
    BestEffort cfg counts row (journalProvisionBestEffort cfg) := by
  unfold CloudProvision.journalProvisionBestEffort
  split
  · exact BestEffort.ret
  · exact BestEffort.ask rfl rfl fun _ => rfl

omit hexception in
theorem BestEffort.bindAllocatedIpToVmBestEffort (req : CloudVMProvisionRequest)
    (lease : Option Lease) :
    BestEffort cfg counts row (bindAllocatedIpToVmBestEffort req lease) := by
  unfold CloudProvision.bindAllocatedIpToVmBestEffort
  split
  · exact BestEffort.ret
  · exact BestEffort.ask rfl rfl fun _ => rfl

end Operations

/-- The run is over for its lease: the release has been asked for exactly if a reply has rejected
the provisioning. -/
def Ended (cfg : Settings) (counts : Exn → Bool) (row : Option IpRow) (log : Log) : Prop :=
  ∃ rejected released, At cfg counts row rejected released log ∧
    (row.isSome = true → rejected = released)

variable (cfg counts) in
/-- The release of the lease of a run that is rejected. -/
theorem release_triple (rejected : Bool) (pre : Locals → Prop) :
    Attempt.Triple Allowed
      (fun log s => (∃ released, At cfg counts row rejected released log) ∧ pre s)
      (releaseCloudNetworkLease (leaseOf row))
      (fun log _ s => (∃ released, At cfg counts row rejected released log ∧
        (row.isSome = true → released = true)) ∧ pre s)
      (fun log e s => (∃ released, At cfg counts row rejected released log ∧
        (row.isSome = true → released = true)) ∧ pre s ∧ e.isException = false) := by
  cases row with
  | none =>
    refine Attempt.Triple.ret fun log s h => ?_
    obtain ⟨⟨released, hat⟩, hs⟩ := h
    exact ⟨⟨released, hat, by simp⟩, hs⟩
  | some r =>
    refine Attempt.Triple.handle (fun log _ s =>
      At cfg counts (some r) rejected true log ∧ pre s) ?_ fun e => ?_
    · refine Attempt.Triple.ask fun log s reply h _ => ?_
      obtain ⟨⟨released, hat⟩, hs⟩ := h
      cases hresult : reply.result with
      | ok u => exact ⟨⟨true, hat.release, fun _ => rfl⟩, hs⟩
      | error e => exact ⟨hat.release, hs⟩
    · cases he : e.isException with
      | true =>
        rw [if_pos rfl]
        exact Attempt.Triple.ret fun log s h => ⟨⟨true, h.1, fun _ => rfl⟩, h.2⟩
      | false =>
        rw [if_neg (by simp)]
        exact Attempt.Triple.throw fun log s h => ⟨⟨true, h.1, fun _ => rfl⟩, h.2, he⟩

end ProxboxApi.CloudProvision
