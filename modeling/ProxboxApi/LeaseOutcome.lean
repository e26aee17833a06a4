import ProxboxApi.LeaseSettlement

/-! Exactly when a run of cloud provisioning leaves each address that it allocates to a guest that
carries it, or deletes it again. -/

namespace ProxboxApi.CloudProvision

open Requests
open VmQueue (field)

inductive Route where
  | vm (req : CloudVMProvisionRequest)
  | stream (req : CloudVMProvisionRequest)
  | lxc (req : CloudLXCProvisionRequest)

def Route.provision (cfg : Settings) : Route → Act Unit
  | .vm req => (provisionVm cfg req).bind fun _ => Attempt.ret ()
  | .stream req => provisionStreamGenerator cfg req
  | .lxc req => (provisionLxc cfg req).bind fun _ => Attempt.ret ()

/-- The exceptions that make a route release its lease: a cancelled request keeps it, a cancelled
stream does not. -/
def Route.counts : Route → Exn → Bool
  | .vm _ | .lxc _ => Exn.isException
  | .stream _ => every

variable {cfg : Settings} {counts : Exn → Bool} {row : Option IpRow} {log : Log}

/-- NetBox carries out none of the DELETEs that it is asked for. -/
def blocked (log : Log) : Bool := log.any refusesDelete && !log.any deletes

/-- What the replies of a run must be: no POST that creates an address fails, and where one is
leased the write of the guest takes effect exactly if no reply rejects the provisioning, or one does
and NetBox carries out no DELETE. -/
structure LeaseMeets (cfg : Settings) (counts : Exn → Bool) (log : Log) : Prop where
  strays : log.any stray = false
  leased : log.any isCreated = true →
    log.any applied = !(log.any (rejects cfg counts) && !blocked log)

theorem deleted_iff {rejected released : Bool} {r : IpRow}
    (h : At cfg counts (some r) rejected released log) :
    Deleted log r ↔ log.any deletes = true := by
  rw [List.any_eq_true]
  constructor
  · rintro ⟨x, hx, hdeletes, _⟩
    exact ⟨x, hx, hdeletes⟩
  · rintro ⟨x, hx, hdeletes⟩
    refine ⟨x, hx, hdeletes, ?_⟩
    obtain ⟨q, reply⟩ := x
    cases q with
    | release id => rw [h.releases _ hx id rfl r rfl]
    | _ => cases hdeletes

theorem carried_iff {rejected released : Bool} {r : IpRow}
    (h : At cfg counts (some r) rejected released log) :
    Carried cfg log r ↔ log.any applied = true := by
  rw [List.any_eq_true]
  constructor
  · rintro ⟨x, hx, happlied, _⟩
    exact ⟨x, hx, happlied⟩
  · rintro ⟨x, hx, happlied⟩
    refine ⟨x, hx, happlied, h.guests x hx ?_ r rfl⟩
    obtain ⟨q, reply⟩ := x
    cases q with
    | configure => rfl
    | createLxc => rfl
    | _ => cases happlied

/-- Nothing is deleted that was not to be released. -/
theorem deletes_le (h : log.any deletes = true) : log.any isRelease = true := by
  obtain ⟨x, hx, hdeletes⟩ := List.any_eq_true.mp h
  refine List.any_eq_true.mpr ⟨x, hx, ?_⟩
  obtain ⟨q, reply⟩ := x
  cases q with
  | release => rfl
  | _ => cases hdeletes

/-- A DELETE takes effect or not. -/
theorem any_isRelease (log : Log) :
    log.any isRelease = (log.any deletes || log.any refusesDelete) := by
  have hone : ∀ x, isRelease x = (deletes x || refusesDelete x) := by
    rintro ⟨q, reply⟩
    cases q with
    | release id =>
      change true = (reply.applied || !reply.applied)
      rw [Bool.or_not_self]
    | _ => rfl
  induction log with
  | nil => rfl
  | cons x log ih =>
    rw [List.any_cons, List.any_cons, List.any_cons, ih, hone]
    cases deletes x <;> cases refusesDelete x <;> simp

/-- The release of a lease is asked for exactly if a reply rejects the provisioning. -/
theorem Ended.release_iff (h : Ended cfg counts row log) :
    log.any isRelease = (log.any isCreated && log.any (rejects cfg counts)) := by
  obtain ⟨rejected, released, hat, heq⟩ := h
  rw [hat.created, hat.rejected]
  cases row with
  | none => exact hat.unreleased rfl
  | some r =>
    rw [hat.released, ← heq rfl]
    rfl

theorem Ended.settled_iff (h : Ended cfg counts row log) :
    Settled cfg log ↔ LeaseMeets cfg counts log := by
  have hrelease := h.release_iff
  obtain ⟨rejected, released, hat, heq⟩ := h
  unfold Settled
  rw [hat.rows]
  cases row with
  | none =>
    refine ⟨fun _ => ⟨hat.strays, ?_⟩, fun _ r hr => by simp at hr⟩
    rw [hat.created]
    rintro ⟨⟩
  | some r =>
    have hsingle : (∀ row ∈ (some r).toList, (¬ Deleted log row ↔ Carried cfg log row)) ↔
        (¬ Deleted log r ↔ Carried cfg log r) := by simp
    rw [hsingle, deleted_iff hat, carried_iff hat]
    -- The release is asked for, so that the lease is deleted or blocked.
    have hdeletes : log.any deletes = (log.any (rejects cfg counts) && !blocked log) := by
      rw [hat.created, Option.isSome_some, Bool.true_and, any_isRelease] at hrelease
      rw [← hrelease]
      unfold blocked
      cases log.any deletes <;> cases log.any refusesDelete <;> rfl
    constructor
    · intro h
      refine ⟨hat.strays, fun _ => ?_⟩
      rw [← hdeletes]
      cases hd : log.any deletes with
      | false => exact h.mp (by simp [hd])
      | true =>
        by_contra hne
        exact h.mpr (by simpa using hne) hd
    · intro h
      have happlied := h.leased hat.created
      rw [← hdeletes] at happlied
      rw [happlied]
      cases log.any deletes <;> simp

theorem mem_allocatedRows {r : IpRow} : r ∈ allocatedRows log ↔
    ∃ prefixId reply, (⟨.allocate prefixId, reply⟩ : Exchange) ∈ log ∧ reply.row = some r := by
  unfold allocatedRows
  rw [List.mem_filterMap]
  constructor
  · rintro ⟨⟨q, reply⟩, hx, hrow⟩
    cases q with
    | allocate prefixId => exact ⟨prefixId, reply, hx, hrow⟩
    | _ => cases hrow
  · rintro ⟨prefixId, reply, hx, hrow⟩
    exact ⟨_, hx, hrow⟩

theorem Unleased.settled_iff (h : Unleased log) :
    Settled cfg log ↔ LeaseMeets cfg counts log := by
  constructor
  · intro hsettled
    refine ⟨List.any_eq_false.mpr fun x hx hstray => ?_, ?_⟩
    · obtain ⟨q, reply⟩ := x
      cases q with
      | allocate prefixId =>
        cases reply with
        | lost r e =>
          have hrow : r ∈ allocatedRows log := mem_allocatedRows.mpr ⟨prefixId, _, hx, rfl⟩
          -- a row that is neither deleted nor carried
          obtain ⟨y, hy, happlied, -⟩ := (hsettled r hrow).mp fun ⟨y, hy, hdeletes, _⟩ => by
            have hreleased := deletes_le (List.any_eq_true.mpr ⟨y, hy, hdeletes⟩)
            rw [h.released] at hreleased
            cases hreleased
          have hguest := h.guests y hy
          obtain ⟨q, reply⟩ := y
          cases q with
          | configure => cases hguest
          | createLxc => cases hguest
          | _ => cases happlied
        | created r body => cases hstray
        | failed e => cases hstray
      | _ => cases hstray
    · rw [h.created]
      rintro ⟨⟩
  · intro hmeets r hr
    obtain ⟨prefixId, reply, hx, hrow⟩ := mem_allocatedRows.mp hr
    cases reply with
    | created r' body =>
      have hcreated := List.any_eq_true.mpr ⟨_, hx, show isCreated _ = true from rfl⟩
      rw [h.created] at hcreated
      cases hcreated
    | lost r' e =>
      have hstray := List.any_eq_true.mpr ⟨_, hx, show stray _ = true from rfl⟩
      rw [hmeets.strays] at hstray
      cases hstray
    | failed e => cases hrow

theorem Route.done (route : Route) : Attempt.Triple Allowed
    (fun log s => log = [] ∧ s = Locals.initial) (route.provision cfg)
    (fun log _ _ => Done cfg route.counts log) (fun log _ _ => Done cfg route.counts log) := by
  cases route with
  | vm req => exact Attempt.Triple.bind (provisionVm_done req) fun _ =>
      Attempt.Triple.ret fun _ _ h => h
  | stream req => exact provisionStream_done req
  | lxc req => exact Attempt.Triple.bind (provisionLxc_done req) fun _ =>
      Attempt.Triple.ret fun _ _ h => h

/-- A run asks for the release of its lease exactly if a reply rejects the provisioning, and each
address that it allocates is settled exactly if the replies are such that the leased one is written
to a guest or deleted, and no POST that creates one fails. -/
theorem leases_settle_iff (cfg : Settings) (route : Route) {log : Log}
    {final : Except Exn Unit × Locals}
    (hruns : Prog.Runs (route.provision cfg Locals.initial) log final)
    (hallows : ∀ x ∈ log, Allowed x.1 x.2) :
    log.any isRelease = (log.any isCreated && log.any (rejects cfg route.counts)) ∧
      (Settled cfg log ↔ LeaseMeets cfg route.counts log) := by
  obtain ⟨r, s⟩ := final
  have hends := route.done.of_runs hruns hallows ⟨rfl, rfl⟩
  have hdone : Done cfg route.counts log := by
    cases r with
    | ok u => exact hends.1 u rfl
    | error e => exact hends.2 e rfl
  rcases hdone with ⟨row, hended⟩ | hunleased
  · exact ⟨hended.release_iff, hended.settled_iff⟩
  · refine ⟨?_, hunleased.settled_iff⟩
    rw [hunleased.released, hunleased.created]
    rfl

def customerSettings : Settings where
  py := .ascii
  isIpAddress text := text = "10.0.0.1"
  ipInterface text := if text = "10.0.0.5/24" then some ("10.0.0.5", 24) else none
  cloudNetwork := ⟨some 7, "vmbr1", none, "10.0.0.1"⟩
  maxRetries := 3
  mockProxmox := false

/-- Guest 100, cloned from template 900 and started. -/
def customerVm : CloudVMProvisionRequest where
  templateVmid := 900
  newVmid := 100
  targetNode := "pve1"
  network := none
  diskGb := none
  startAfterProvision := true
  enforceCloudNetwork := true

def customerRow : IpRow := ⟨41, "10.0.0.5/24"⟩

/-- The start of the guest is refused, and everything else goes well. -/
def refuseStart : (q : Request) → Reply q
  | .allocate _ => .created customerRow [("id", .int 41), ("address", .str "10.0.0.5/24")]
  | .release _ => ⟨true, .ok ()⟩
  | .clusterResources => .ok [⟨some 900, some "pve1"⟩]
  | .qemuConfig .. => .ok (.obj [("ide2", .str "local:cloudinit")])
  | .start .. => .error (.exception false)
  | .clone .. | .resize .. | .nextid | .startLxc .. => .ok .null
  | .configure .. | .createLxc .. => ⟨true, .ok .null⟩
  | .waitTask .. => ⟨[], .exception false⟩
  | .netboxSession | .pause | .openSession | .closeSession | .templateConfig .. | .journal
  | .bindIp .. | .emit _ => .ok ()

def refusedRun : Log × (Except Exn Unit × Locals) :=
  ((Route.vm customerVm).provision customerSettings Locals.initial).trace refuseStart

theorem allowed_refuseStart (q : Request) : Allowed q (refuseStart q) := by
  cases q with
  | allocate => exact ⟨rfl, rfl, by decide +kernel⟩
  | _ => trivial

theorem leases_settle_iff_refused :
    refusedRun.1.any isRelease = (refusedRun.1.any isCreated &&
        refusedRun.1.any (rejects customerSettings Exn.isException)) ∧
      (Settled customerSettings refusedRun.1 ↔
        LeaseMeets customerSettings Exn.isException refusedRun.1) :=
  leases_settle_iff customerSettings (.vm customerVm) (Prog.runs_trace refuseStart _)
    (Prog.allowed_trace allowed_refuseStart _)

def releases (rowId : ℤ) : Request → Bool
  | .release id => id == rowId
  | _ => false

def configures (ipconfig0 : String) : Request → Bool
  | .configure _ _ args => args.ipconfig0 == some ipconfig0
  | _ => false

/-- The guest whose start is refused carries the address that is deleted. -/
theorem carried_address_deleted : ∃ route log final,
    Prog.Runs (Route.provision customerSettings route Locals.initial) log final ∧
      (∀ x ∈ log, Allowed x.1 x.2) ∧ ¬ Settled customerSettings log := by
  refine ⟨.vm customerVm, refusedRun.1, refusedRun.2,
    Prog.runs_trace refuseStart _, Prog.allowed_trace allowed_refuseStart _, fun h => ?_⟩
  have hrow : customerRow ∈ allocatedRows refusedRun.1 := by decide +kernel
  have hcidr : customerRow.cidr customerSettings = "10.0.0.5/24" := by decide +kernel
  have hdeletes : refusedRun.1.any (fun x => deletes x && releases 41 x.1) = true := by
    decide +kernel
  have hcarries : refusedRun.1.any (fun x =>
      applied x && configures "ip=10.0.0.5/24,gw=10.0.0.1" x.1) = true := by decide +kernel
  refine (h customerRow hrow).mpr ?_ ?_
  · obtain ⟨⟨q, reply⟩, hx, hcarry⟩ := List.any_eq_true.mp hcarries
    rw [Bool.and_eq_true] at hcarry
    refine ⟨_, hx, hcarry.1, ?_⟩
    rw [hcidr]
    cases q with
    | configure node vmid args => exact ⟨"10.0.0.1", by simpa [configures] using hcarry.2⟩
    | _ => cases hcarry.2
  · obtain ⟨⟨q, reply⟩, hx, hdelete⟩ := List.any_eq_true.mp hdeletes
    rw [Bool.and_eq_true] at hdelete
    refine ⟨_, hx, hdelete.1, ?_⟩
    cases q with
    | release id => rw [show id = 41 by simpa [releases] using hdelete.2]; rfl
    | _ => cases hdelete.2

end ProxboxApi.CloudProvision
