import ProxboxApi.LeaseRuns

/-! When a leased address is settled: the runs of `provision_vm`, of the stream and of
`provision_lxc`. -/

namespace ProxboxApi.CloudProvision

open Requests
open VmQueue (field)

variable {cfg : Settings} {counts : Exn → Bool} {row : Option IpRow} {log : Log} {α : Type}

/-- No address is leased, and no guest written: a POST may have created one all the same. -/
structure Unleased (log : Log) : Prop where
  created : log.any isCreated = false
  released : log.any isRelease = false
  guests : ∀ x ∈ log, writesGuest x.1 = false

/-- Nothing has happened to any address yet. -/
structure Clean (cfg : Settings) (counts : Exn → Bool) (log : Log) : Prop extends Unleased log where
  rows : allocatedRows log = []
  strays : log.any stray = false
  rejected : log.any (rejects cfg counts) = false

theorem Clean.nil : Clean cfg counts [] := by
  constructor
  · constructor <;> simp
  · rfl
  · rfl
  · rfl

theorem Clean.at (h : Clean cfg counts log) : At cfg counts none false false log where
  rows := h.rows
  strays := h.strays
  created := h.created
  guests := by simp
  releases := by simp
  rejected := h.rejected
  released := h.released
  unreleased _ := h.released

theorem Unleased.snoc (h : Unleased log) {x : Exchange} (hcreated : isCreated x = false)
    (hreleased : isRelease x = false) (hguest : writesGuest x.1 = false) :
    Unleased (log ++ [x]) := by
  constructor
  · simp [h.created, hcreated]
  · simp [h.released, hreleased]
  · intro y hy
    rcases List.mem_append.mp hy with hy | hy
    · exact h.guests y hy
    · rw [List.mem_singleton.mp hy]
      exact hguest

theorem Clean.snoc (h : Clean cfg counts log) {x : Exchange} (hunleased : Unleased (log ++ [x]))
    (hrow : allocatedRows [x] = []) (hstray : stray x = false)
    (hrejects : rejects cfg counts x = false) : Clean cfg counts (log ++ [x]) := by
  have hrows := h.rows
  refine { hunleased with rows := ?_, strays := ?_, rejected := ?_ }
  · unfold allocatedRows at hrows hrow ⊢
    rw [List.filterMap_append, hrows, hrow, List.append_nil]
  · simp [h.strays, hstray]
  · simp [h.rejected, hrejects]

/-- The variables at the start of a run. -/
def Locals.initial : Locals := ⟨none, false, false⟩

/-- What a POST to `available-ips` leaves. -/
def Allocated (cfg : Settings) (counts : Exn → Bool) (log : Log) (record : Json.Fields)
    (s : Locals) : Prop :=
  ∃ r, At cfg counts (some r) false false log ∧ s = Locals.initial ∧
    field "id" record = .int r.id ∧ field "address" record = .str r.address ∧
    Text.strip r.address ≠ ""

theorem allocate_triple (prefixId : ℤ) : Attempt.Triple Allowed
    (fun log s => Clean cfg counts log ∧ s = Locals.initial)
    (Attempt.ask (.allocate prefixId) AllocateReply.result)
    (fun log record s => Allocated cfg counts log record s)
    (fun log e s => (Unleased log ∧ (e = .exception true → Clean cfg counts log)) ∧
      s = Locals.initial) := by
  refine Attempt.Triple.ask fun log s reply h hallowed => ?_
  obtain ⟨hclean, rfl⟩ := h
  cases reply with
  | created r body =>
    refine ⟨r, ?_, rfl, hallowed⟩
    have hrows := hclean.rows
    constructor
    · unfold allocatedRows at hrows ⊢
      rw [List.filterMap_append, hrows]
      rfl
    · simp [hclean.strays, stray]
    · simp [isCreated]
    · intro x hx hwrites
      rcases List.mem_append.mp hx with hx | hx
      · rw [hclean.guests x hx] at hwrites
        cases hwrites
      · rw [List.mem_singleton.mp hx] at hwrites
        cases hwrites
    · intro x hx id hid
      rcases List.mem_append.mp hx with hx | hx
      · have hrelease := List.any_eq_false.mp hclean.released x hx
        obtain ⟨q, reply⟩ := x
        dsimp only at hid
        subst hid
        exact absurd rfl hrelease
      · rw [List.mem_singleton.mp hx] at hid
        cases hid
    · simp [hclean.rejected, rejects]
    · simp [hclean.released, isRelease]
    · rintro ⟨⟩
  | lost r e =>
    refine ⟨⟨hclean.toUnleased.snoc rfl rfl rfl, ?_⟩, rfl⟩
    intro he
    exact absurd he hallowed
  | failed e =>
    have hunleased := hclean.toUnleased.snoc (x := ⟨.allocate prefixId, .failed e⟩)
      rfl rfl rfl
    exact ⟨⟨hunleased, fun _ => hclean.snoc hunleased rfl rfl rfl⟩, rfl⟩

/-- A request before the lease that says nothing of addresses. -/
theorem clean_ask {q : Request} {result : Reply q → Except Exn Unit} (hq : plain q = true)
    (hguest : writesGuest q = false) (hrejects : ∀ reply, rejects cfg counts ⟨q, reply⟩ = false) :
    Attempt.Triple Allowed (fun log s => Clean cfg counts log ∧ s = Locals.initial)
      (Attempt.ask q result) (fun log _ s => Clean cfg counts log ∧ s = Locals.initial)
      (fun log _ s => Unleased log ∧ s = Locals.initial) := by
  refine Attempt.Triple.ask fun log s reply h _ => ?_
  have hunleased : Unleased (log ++ [⟨q, reply⟩]) := by
    refine h.1.toUnleased.snoc ?_ ?_ hguest
    · cases q with
      | allocate => simp [plain] at hq
      | _ => rfl
    · cases q with
      | release => simp [plain] at hq
      | _ => rfl
  have hclean : Clean cfg counts (log ++ [⟨q, reply⟩]) := by
    refine h.1.snoc hunleased ?_ ?_ (hrejects reply)
    · cases q with
      | allocate => simp [plain] at hq
      | _ => rfl
    · cases q with
      | allocate => simp [plain] at hq
      | _ => rfl
  cases result reply with
  | ok u => exact ⟨hclean, h.2⟩
  | error e => exact ⟨hunleased, h.2⟩

/-- The POST is tried again only where none was applied. -/
theorem restCreate_triple (prefixId : ℤ) (left : ℕ) : Attempt.Triple Allowed
    (fun log s => Clean cfg counts log ∧ s = Locals.initial) (restCreate prefixId left)
    (fun log record s => Allocated cfg counts log record s)
    (fun log _ s => Unleased log ∧ s = Locals.initial) := by
  induction left with
  | zero =>
    exact (allocate_triple prefixId).mono (fun _ _ h => h) (fun _ _ _ h => h)
      fun _ _ _ h => ⟨h.1.1, h.2⟩
  | succ left ih =>
    refine Attempt.Triple.handle _ (allocate_triple prefixId) fun e => ?_
    split
    · rename_i he
      refine (Attempt.Triple.bind (clean_ask rfl rfl fun _ => rfl) fun _ => ih).mono ?_
        (fun _ _ _ h => h) fun _ _ _ h => h
      exact fun log s h => ⟨h.1.2 he, h.2⟩
    · exact Attempt.Triple.throw fun log s h => ⟨h.1.1, h.2⟩

variable (cfg) in
theorem normalizeAllocatedAddress_of_row {record : Json.Fields} {r : IpRow}
    (hid : field "id" record = .int r.id) (haddress : field "address" record = .str r.address)
    (hstrip : Text.strip r.address ≠ "") : ∃ ip,
      normalizeAllocatedAddress cfg record = some ⟨some r.id, ip, r.cidr cfg⟩ := by
  have htruthy : Python.truthy (.str r.address) = true := by
    simp only [Python.truthy, decide_eq_true_eq]
    rintro hempty
    rw [hempty] at hstrip
    exact hstrip rfl
  refine ⟨(normalizeAddress cfg (Text.strip r.address)).1, ?_⟩
  unfold normalizeAllocatedAddress
  rw [hid, haddress]
  simp only [htruthy, if_true, Json.isNull, Python.int]
  rw [if_neg]
  · rfl
  · exact hstrip

theorem allocateIp_triple (prefixId : ℤ) : Attempt.Triple Allowed
    (fun log s => Clean cfg counts log ∧ s = Locals.initial) (allocateIp cfg prefixId)
    (fun log allocated s => ∃ r, At cfg counts (some r) false false log ∧ s = Locals.initial ∧
      allocated.id = some r.id ∧ allocated.cidr = r.cidr cfg)
    (fun log _ s => Unleased log ∧ s = Locals.initial) := by
  refine Attempt.Triple.bind (restCreate_triple prefixId _) fun record => ?_
  generalize hnormalized : normalizeAllocatedAddress cfg record = normalized
  refine Attempt.Triple.exists fun r => ?_
  rintro log s ⟨hat, rfl, hid, haddress, hstrip⟩
  obtain ⟨ip, hip⟩ := normalizeAllocatedAddress_of_row cfg hid haddress hstrip
  rw [hip] at hnormalized
  subst hnormalized
  exact ⟨r, hat, rfl, rfl, rfl⟩

variable (cfg counts) in
theorem requireResolvedCloudNetwork_triple : Attempt.Triple Allowed
    (fun log s => Clean cfg counts log ∧ s = Locals.initial) (requireResolvedCloudNetwork cfg)
    (fun log network s => network.gateway ≠ "" ∧ Clean cfg counts log ∧ s = Locals.initial)
    (fun log _ s => Unleased log ∧ s = Locals.initial) := by
  unfold requireResolvedCloudNetwork
  split
  · rename_i hconfigured
    refine Attempt.Triple.ret fun log s h => ⟨?_, h⟩
    intro hempty
    unfold cloudNetworkConfigured at hconfigured
    rw [hempty] at hconfigured
    have hstrip : Text.strip "" = "" := rfl
    simp [hstrip] at hconfigured
  · exact Attempt.Triple.throw fun log s h => ⟨h.1.toUnleased, h.2⟩

/-- The request as it is provisioned, with the lease of the address it is given. -/
def Prepared (cfg : Settings) (counts : Exn → Bool) (log : Log)
    (p : CloudVMProvisionRequest × Option Lease) (s : Locals) : Prop :=
  ∃ row, At cfg counts row false false log ∧ s = Locals.initial ∧ p.2 = leaseOf row ∧
    Assigns cfg row p.1

variable (counts) in
theorem prepareQemu_triple (req : CloudVMProvisionRequest) : Attempt.Triple Allowed
    (fun log s => log = [] ∧ s = Locals.initial) (prepareQemuCloudNetworkRequest cfg req)
    (fun log p s => Prepared cfg counts log p s) (fun log _ s => Unleased log ∧ s = Locals.initial) := by
  unfold prepareQemuCloudNetworkRequest
  split
  · refine Attempt.Triple.ret fun log s h => ?_
    obtain ⟨rfl, hs⟩ := h
    refine ⟨none, Clean.nil.at, hs, rfl, ?_⟩
    rintro r ⟨⟩
  · refine (Attempt.Triple.bind (requireResolvedCloudNetwork_triple cfg counts) fun network =>
      Attempt.Triple.of_pre fun hgateway => ?_).mono ?_ (fun _ _ _ h => h) fun _ _ _ h => h
    · cases network.prefixId with
      | none => exact Attempt.Triple.throw fun log s h => ⟨h.1.toUnleased, h.2⟩
      | some prefixId =>
        refine Attempt.Triple.bind (clean_ask rfl rfl fun _ => rfl) fun _ =>
          Attempt.Triple.bind (allocateIp_triple prefixId) fun allocated =>
            Attempt.Triple.ret fun log s h => ?_
        obtain ⟨r, hat, hs, hid, hcidr⟩ := h
        refine ⟨some r, hat, hs, ?_, ?_⟩
        · simp [leaseOf, hid]
        · rintro r' ⟨⟩
          exact ⟨network.gateway, hgateway, by rw [← hcidr]; rfl⟩
    · rintro log s ⟨rfl, hs⟩
      exact ⟨Clean.nil, hs⟩

theorem assign_lease (p : CloudVMProvisionRequest × Option Lease)
    {err : Log → Exn → Locals → Prop} : Attempt.Triple Allowed
    (fun log s => Prepared cfg counts log p s)
    (Attempt.modify fun locals => { locals with lease := p.2 })
    (fun log _ s => ∃ row, (p.2 = leaseOf row ∧ Assigns cfg row p.1) ∧
      Holding cfg counts row log s) err := by
  refine Attempt.Triple.modify fun log s h => ?_
  obtain ⟨row, hat, rfl, hlease, hassigns⟩ := h
  exact ⟨row, ⟨hlease, hassigns⟩, hat, hlease, rfl⟩

/-- The exchanges of a whole run. -/
def Done (cfg : Settings) (counts : Exn → Bool) (log : Log) : Prop :=
  (∃ row, Ended cfg counts row log) ∨ Unleased log

theorem Ended.of_at {rejected released : Bool} (h : At cfg counts row rejected released log)
    (heq : row.isSome = true → rejected = released) : Done cfg counts log :=
  .inl ⟨row, rejected, released, h, heq⟩

theorem closeSession_done {pre : Locals → Prop} : Attempt.Triple Allowed
    (fun log s => Done cfg counts log ∧ pre s) closeSession (fun log _ _ => Done cfg counts log)
    (fun log _ _ => Done cfg counts log) := by
  refine Attempt.Triple.read fun s => ?_
  split
  · refine Attempt.Triple.ask fun log s reply h _ => ?_
    have hdone : Done cfg counts (log ++ [⟨.closeSession, reply⟩]) := by
      rcases h.1.1 with ⟨row, rejected, released, hat, heq⟩ | hunleased
      · have hafter := hat.snoc (q := .closeSession) reply rfl (by simp [writesGuest])
        refine Ended.of_at hafter fun hrow => ?_
        rw [← heq hrow]
        exact Bool.or_false _
      · exact .inr (hunleased.snoc rfl rfl rfl)
    cases reply with
    | ok u => exact hdone
    | error e => exact hdone
  · exact Attempt.Triple.ret fun log s h => h.1.1

section ProvisionVm

/-- A step of `provision_vm` has failed or was cancelled: its exceptions have released the lease. -/
def Stopped (cfg : Settings) (row : Option IpRow) (log : Log) (e : Exn) (s : Locals) : Prop :=
  Ended cfg Exn.isException row log ∧ s.lease = leaseOf row ∧ (e.isException = true → e = .http)

theorem rollback_triple {op : Act α} (h : Provides cfg Exn.isException row op) :
    Attempt.Triple Allowed (Holding cfg Exn.isException row)
      (runProxmoxStepWithCloudNetworkRollback op (leaseOf row))
      (fun log _ s => Holding cfg Exn.isException row log s) (Stopped cfg row) := by
  refine Attempt.Triple.handle _ h fun e => ?_
  cases he : e.isException with
  | true =>
    rw [if_pos rfl]
    refine (Attempt.Triple.after (fun log _ s => Ended cfg Exn.isException row log ∧
      s.lease = leaseOf row)
      ((release_triple cfg Exn.isException true (Leases row)).mono (fun _ _ h => h) ?_ ?_)
      fun _ => ?_).mono ?_ (fun _ _ _ h => h) fun _ _ _ h => h
    · rintro log u s ⟨⟨released, hat, hreleased⟩, hs⟩
      exact ⟨⟨true, released, hat, fun hrow => (hreleased hrow).symm⟩, hs.1⟩
    · rintro log e' s ⟨⟨released, hat, hreleased⟩, hs, he'⟩
      refine ⟨⟨true, released, hat, fun hrow => (hreleased hrow).symm⟩, hs.1, ?_⟩
      rw [he']
      rintro ⟨⟩
    · exact Attempt.Triple.throw fun log s h => ⟨h.1, h.2, fun _ => rfl⟩
    · rintro log s ⟨hat, hs⟩
      rw [he] at hat
      exact ⟨⟨false, hat⟩, hs⟩
  | false =>
    rw [if_neg (by simp)]
    refine Attempt.Triple.throw fun log s h => ?_
    obtain ⟨hat, hs⟩ := h
    rw [he] at hat
    refine ⟨⟨false, false, hat, fun _ => rfl⟩, hs.1, ?_⟩
    rw [he]
    rintro ⟨⟩

theorem bestEffort_stopped {p : Act Unit} (h : BestEffort cfg Exn.isException row p) :
    Attempt.Triple Allowed (Holding cfg Exn.isException row) p
      (fun log _ s => Holding cfg Exn.isException row log s) (Stopped cfg row) := by
  refine Attempt.Triple.mono h (fun _ _ h => h) (fun _ _ _ h => h) fun log e s h => ?_
  obtain ⟨⟨hat, hs⟩, he⟩ := h
  rw [he] at hat
  refine ⟨⟨false, false, hat, fun _ => rfl⟩, hs.1, ?_⟩
  rw [he]
  rintro ⟨⟩

theorem provisionVmSteps_triple {req : CloudVMProvisionRequest} (hreq : Assigns cfg row req) :
    Attempt.Triple Allowed (Holding cfg Exn.isException row) (provisionVmSteps cfg req (leaseOf row))
      (fun log _ s => Holding cfg Exn.isException row log s) (Stopped cfg row) := by
  unfold provisionVmSteps
  refine Attempt.Triple.bind (rollback_triple (Provides.cloneTemplateVm (fun _ h => h) req))
    fun _ => Attempt.Triple.bind
      (rollback_triple (Provides.configureCloudInitVm (fun _ h => h) hreq)) fun _ =>
    Attempt.Triple.bind (rollback_triple (Provides.waitForTask _ _)) fun _ =>
    Attempt.Triple.bind (rollback_triple (Provides.resizeVmDisk req)) fun _ =>
    Attempt.Triple.bind (rollback_triple (Provides.waitForTask _ _)) fun _ =>
    Attempt.Triple.bind (rollback_triple (Provides.startVmAfterProvision req)) fun _ =>
    Attempt.Triple.bind (bestEffort_stopped BestEffort.journalProvisionBestEffort) fun _ =>
    Attempt.Triple.bind (bestEffort_stopped (BestEffort.bindAllocatedIpToVmBestEffort _ _)) fun _ =>
    Attempt.Triple.ret fun _ _ h => h

theorem assign_opened {err : Log → Exn → Locals → Prop} : Attempt.Triple Allowed
    (Holding cfg counts row) (Attempt.modify fun locals => { locals with opened := true })
    (fun log _ s => Holding cfg counts row log s) err :=
  Attempt.Triple.modify fun _ _ h => h

theorem Holding.done {s : Locals} (h : Holding cfg counts row log s) : Done cfg counts log :=
  Ended.of_at h.1 fun _ => rfl

theorem provisionVm_done (req : CloudVMProvisionRequest) : Attempt.Triple Allowed
    (fun log s => log = [] ∧ s = Locals.initial) (provisionVm cfg req)
    (fun log _ _ => Done cfg Exn.isException log) (fun log _ _ => Done cfg Exn.isException log) := by
  refine Attempt.Triple.ensure (fun log _ _ => Done cfg Exn.isException log)
    (fun log _ _ => Done cfg Exn.isException log) ?_ (fun _ => ?_) fun _ => ?_
  · refine Attempt.Triple.handle (fun log e s => (Unleased log ∧ s = Locals.initial) ∨
      ∃ row, Stopped cfg row log e s) ?_ fun e => ?_
    · refine Attempt.Triple.bind ((prepareQemu_triple Exn.isException req).mono (fun _ _ h => h) (fun _ _ _ h => h)
        fun _ _ _ h => .inl h) fun p => ?_
      obtain ⟨req, lease⟩ := p
      refine Attempt.Triple.bind (assign_lease (req, lease)) fun _ =>
        Attempt.Triple.exists fun row => Attempt.Triple.of_pre fun hprepared => ?_
      obtain ⟨rfl, hassigns⟩ := hprepared
      refine (Attempt.Triple.bind (rollback_triple (Provides.ask rfl (by simp [writesGuest])
        fun _ => rfl)) fun _ => Attempt.Triple.bind assign_opened fun _ =>
          provisionVmSteps_triple hassigns).mono (fun _ _ h => h) (fun _ _ _ h => h.done)
            fun _ _ _ h => .inr ⟨row, h⟩
    · refine Attempt.Triple.read fun s => ?_
      rintro log s' ⟨h | ⟨row, hended, hlease, hhttp⟩, rfl⟩
      · obtain ⟨hunleased, rfl⟩ := h
        split
        · exact .inr hunleased
        · exact .inr hunleased
      · rw [if_neg (fun h => h.2 (hhttp h.1))]
        exact .inl ⟨row, hended⟩
  · exact closeSession_done.mono (fun _ _ h => ⟨h, trivial⟩) (fun _ _ _ h => h) fun _ _ _ h => h
  · exact closeSession_done.mono (fun _ _ h => ⟨h, trivial⟩) (fun _ _ _ h => h) fun _ _ _ h => h

end ProvisionVm

section ProvisionLxc

/-- The network of a container, with the lease of the address it is given. -/
def PreparedLxc (cfg : Settings) (counts : Exn → Bool) (log : Log)
    (p : Option (CloudNetworkConfig × AllocatedIPAddress) × Option Lease) (s : Locals) : Prop :=
  ∃ row, (p.2 = leaseOf row ∧ ∀ r, row = some r → ∃ network allocated,
    p.1 = some (network, allocated) ∧ allocated.cidr = r.cidr cfg) ∧
      At cfg counts row false false log ∧ s = Locals.initial

variable (counts) in
theorem prepareLxc_triple (req : CloudLXCProvisionRequest) : Attempt.Triple Allowed
    (fun log s => log = [] ∧ s = Locals.initial) (prepareLxcCloudNetwork cfg req)
    (fun log p s => PreparedLxc cfg counts log p s)
    (fun log _ s => Unleased log ∧ s = Locals.initial) := by
  unfold prepareLxcCloudNetwork
  split
  · refine Attempt.Triple.ret fun log s h => ?_
    obtain ⟨rfl, hs⟩ := h
    refine ⟨none, ⟨rfl, ?_⟩, Clean.nil.at, hs⟩
    rintro r ⟨⟩
  · refine (Attempt.Triple.bind (requireResolvedCloudNetwork_triple cfg counts) fun network =>
      Attempt.Triple.of_pre fun _ => Attempt.Triple.bind (clean_ask rfl rfl fun _ => rfl)
        fun _ => ?_).mono ?_ (fun _ _ _ h => h) fun _ _ _ h => h
    · cases network.prefixId with
      | none => exact Attempt.Triple.throw fun log s h => ⟨h.1.toUnleased, h.2⟩
      | some prefixId =>
        refine Attempt.Triple.bind (allocateIp_triple prefixId) fun allocated =>
          Attempt.Triple.ret fun log s h => ?_
        obtain ⟨r, hat, hs, hid, hcidr⟩ := h
        refine ⟨some r, ⟨?_, ?_⟩, hat, hs⟩
        · simp [leaseOf, hid]
        · rintro r' ⟨⟩
          exact ⟨network, allocated, rfl, hcidr⟩
    · rintro log s ⟨rfl, hs⟩
      exact ⟨Clean.nil, hs⟩

theorem lxcNet0_eq (network : CloudNetworkConfig) (allocated : AllocatedIPAddress) :
    ∃ front, lxcNet0 network allocated =
      front ++ ",ip=" ++ allocated.cidr ++ ",gw=" ++ network.gateway := by
  have hip : "," ++ ("ip=" ++ allocated.cidr) = ",ip=" ++ allocated.cidr :=
    (String.append_assoc ..).symm
  have hgateway : "," ++ ("gw=" ++ network.gateway) = ",gw=" ++ network.gateway :=
    (String.append_assoc ..).symm
  unfold lxcNet0
  cases network.vlanTag with
  | none =>
    refine ⟨"name=eth0" ++ "," ++ ("bridge=" ++ network.bridge), ?_⟩
    change "name=eth0" ++ "," ++ ("bridge=" ++ network.bridge) ++ "," ++ ("ip=" ++ allocated.cidr) ++
      "," ++ ("gw=" ++ network.gateway) = _
    simp only [String.append_assoc, hip, hgateway]
  | some tag =>
    refine ⟨"name=eth0" ++ "," ++ ("bridge=" ++ network.bridge) ++ "," ++
      ("tag=" ++ toString tag), ?_⟩
    change "name=eth0" ++ "," ++ ("bridge=" ++ network.bridge) ++ "," ++ ("tag=" ++ toString tag) ++
      "," ++ ("ip=" ++ allocated.cidr) ++ "," ++ ("gw=" ++ network.gateway) = _
    simp only [String.append_assoc, hip, hgateway]

theorem field_net0 (req : CloudLXCProvisionRequest) (vmid : ℤ) (network : CloudNetworkConfig)
    (allocated : AllocatedIPAddress) :
    field "net0" (buildLxcCreateParams req vmid (some (network, allocated))) =
      .str (lxcNet0 network allocated) := by
  unfold buildLxcCreateParams
  cases req.memoryMb <;> cases req.cores <;> cases req.password <;> rfl

theorem Provides.provisionLxcOnProxmox {req : CloudLXCProvisionRequest}
    {network : Option (CloudNetworkConfig × AllocatedIPAddress)}
    (hnetwork : ∀ r, row = some r → ∃ net allocated,
      network = some (net, allocated) ∧ allocated.cidr = r.cidr cfg) :
    Provides cfg counts row (provisionLxcOnProxmox cfg req network) := by
  unfold CloudProvision.provisionLxcOnProxmox createLxcContainer
  refine Provides.bind (Provides.ask rfl (by simp [writesGuest]) fun _ => rfl) fun vmid =>
    Provides.bind (Provides.bind (Provides.ask rfl ?_ fun _ => rfl) fun answer =>
      Provides.bind (Provides.waitForTask _ _) fun _ => Provides.ret _) fun createUpid =>
    Provides.bind ?_ fun startUpid => Provides.ret _
  · intro _ r hr
    obtain ⟨net, allocated, rfl, hcidr⟩ := hnetwork r hr
    obtain ⟨front, hfront⟩ := lxcNet0_eq net allocated
    exact ⟨front, net.gateway, by rw [field_net0, hfront, hcidr]⟩
  · unfold startLxcContainer
    split
    · refine Provides.ask rfl (by simp [writesGuest]) fun reply => ?_
      cases reply with
      | ok answer => rfl
      | error e => cases e <;> simp [rejects, raises, startLxcResult, Exn.isException]
    · exact Provides.ret none

theorem released_done : Attempt.Triple Allowed
    (fun log _ => At cfg Exn.isException row true false log)
    ((releaseCloudNetworkLease (leaseOf row)).bind fun _ =>
      (Attempt.throw .http : Act CloudLXCProvisionResponse))
    (fun log _ _ => Done cfg Exn.isException log) (fun log _ _ => Done cfg Exn.isException log) := by
  refine Attempt.Triple.after (fun log _ _ => Done cfg Exn.isException log)
    ((release_triple cfg Exn.isException true fun _ => True).mono ?_ ?_ ?_)
    fun _ => Attempt.Triple.throw fun _ _ h => h
  · exact fun log s hat => ⟨⟨false, hat⟩, trivial⟩
  · rintro log u s ⟨⟨released, hat, hreleased⟩, _⟩
    exact Ended.of_at hat fun hrow => (hreleased hrow).symm
  · rintro log e s ⟨⟨released, hat, hreleased⟩, _⟩
    exact Ended.of_at hat fun hrow => (hreleased hrow).symm

theorem provisionLxc_done (req : CloudLXCProvisionRequest) : Attempt.Triple Allowed
    (fun log s => log = [] ∧ s = Locals.initial) (provisionLxc cfg req)
    (fun log _ _ => Done cfg Exn.isException log) (fun log _ _ => Done cfg Exn.isException log) := by
  refine Attempt.Triple.ensure (fun log _ _ => Done cfg Exn.isException log)
    (fun log _ _ => Done cfg Exn.isException log) ?_ (fun _ => ?_) fun _ => ?_
  · refine Attempt.Triple.handle (fun log e s => (Unleased log ∧ s = Locals.initial) ∨
      ∃ row, Failing cfg Exn.isException row log e s) ?_ fun e => ?_
    · refine Attempt.Triple.bind ((prepareLxc_triple Exn.isException req).mono (fun _ _ h => h)
        (fun _ _ _ h => h) fun _ _ _ h => .inl h) fun p => ?_
      obtain ⟨network, lease⟩ := p
      refine Attempt.Triple.exists fun row => Attempt.Triple.of_pre fun hprepared => ?_
      obtain ⟨rfl, hnetwork⟩ := hprepared
      refine Attempt.Triple.after (fun log _ s => Holding cfg Exn.isException row log s)
        (Attempt.Triple.modify ?_) fun _ => ?_
      · rintro log s ⟨hat, rfl⟩
        exact ⟨hat, rfl, rfl⟩
      · refine (Attempt.Triple.bind (Provides.ask rfl (by simp [writesGuest]) fun _ => rfl)
          fun _ => Attempt.Triple.bind assign_opened fun _ =>
            Provides.provisionLxcOnProxmox hnetwork).mono (fun _ _ h => h)
              (fun _ _ _ h => h.done) fun _ _ _ h => .inr ⟨row, h⟩
    · refine Attempt.Triple.read fun s => ?_
      rintro log s' ⟨h | ⟨row, hat, hlease, hsettled⟩, rfl⟩
      · obtain ⟨hunleased, rfl⟩ := h
        split
        · exact .inr hunleased
        · exact .inr hunleased
      · rw [hlease]
        cases he : e.isException with
        | true =>
          rw [he] at hat
          rw [if_pos rfl]
          exact released_done log s' hat
        | false =>
          rw [he] at hat
          rw [if_neg (by simp)]
          exact Ended.of_at hat fun _ => rfl
  · exact closeSession_done.mono (fun _ _ h => ⟨h, trivial⟩) (fun _ _ _ h => h) fun _ _ _ h => h
  · exact closeSession_done.mono (fun _ _ h => ⟨h, trivial⟩) (fun _ _ _ h => h) fun _ _ _ h => h

end ProvisionLxc

section ProvisionStream

/-- Every exception ends the stream. -/
def every : Exn → Bool := fun _ => true

/-- The lease of the stream, once it is settled or is to be settled. -/
def Due (cfg : Settings) (rejected : Bool) (row : Option IpRow) (log : Log) (s : Locals) : Prop :=
  s.lease = leaseOf row ∧ ∃ released, At cfg every row rejected released log ∧
    (row.isSome = true → (s.leaseSettled = true → rejected = released) ∧
      (s.leaseSettled = false → rejected = true))

theorem Holding.due {s : Locals} (h : Holding cfg every row log s) :
    Due cfg false row log { s with leaseSettled := true } := by
  refine ⟨h.2.1, false, h.1, fun _ => ⟨fun _ => rfl, ?_⟩⟩
  rintro ⟨⟩

theorem Failing.due {e : Exn} {s : Locals} (h : Failing cfg every row log e s) :
    Due cfg true row log s := by
  refine ⟨h.2.1, false, h.1, fun _ => ⟨?_, fun _ => rfl⟩⟩
  rw [h.2.2]
  rintro ⟨⟩

/-- An operation of the stream. -/
theorem Provides.due {op : Act α} (h : Provides cfg every row op) :
    Attempt.Triple Allowed (Holding cfg every row) op
      (fun log _ s => Holding cfg every row log s) fun log _ s => Due cfg true row log s :=
  Attempt.Triple.mono h (fun _ _ h => h) (fun _ _ _ h => h) fun _ _ _ h => h.due

/-- The release of a stream that is rejected, and whose lease is not settled. -/
theorem settle_release {r : IpRow} {s : Locals} (hlease : s.lease = leaseOf (some r)) :
    Attempt.Triple Allowed
      (fun log s' => (∃ released, At cfg every (some r) true released log) ∧ s' = s)
      ((releaseCloudNetworkLease (leaseOf (some r))).bind fun _ =>
        Attempt.modify fun locals => { locals with leaseSettled := true })
      (fun log _ s => Due cfg true (some r) log s ∧ s.leaseSettled = true)
      (fun log _ s => Due cfg true (some r) log s ∧ Ended cfg every (some r) log) := by
  refine Attempt.Triple.bind ((release_triple cfg every true fun s' => s' = s).mono
    (fun _ _ h => h) (fun _ _ _ h => h) ?_) fun _ => Attempt.Triple.modify ?_
  · rintro log e s' ⟨⟨released, hat, hreleased⟩, rfl, _⟩
    exact ⟨⟨hlease, released, hat, fun hrow => ⟨fun _ => (hreleased hrow).symm, fun _ => rfl⟩⟩,
      true, released, hat, fun hrow => (hreleased hrow).symm⟩
  · rintro log s' ⟨⟨released, hat, hreleased⟩, rfl⟩
    refine ⟨⟨hlease, released, hat, fun hrow => ⟨fun _ => (hreleased hrow).symm, ?_⟩⟩, rfl⟩
    rintro ⟨⟩

theorem settle_triple (rejected : Bool) : Attempt.Triple Allowed (Due cfg rejected row)
    settleLeaseRelease
    (fun log _ s => Due cfg rejected row log s ∧ s.leaseSettled = true)
    (fun log _ s => Due cfg rejected row log s ∧ Ended cfg every row log) := by
  refine Attempt.Triple.read fun s => ?_
  rintro log s' ⟨⟨hlease, released, hat, hdue⟩, rfl⟩
  split
  · rename_i hreleases
    rw [hlease] at hreleases ⊢
    obtain ⟨r, rfl⟩ : ∃ r, row = some r := by
      cases row with
      | none => simp [leaseOf] at hreleases
      | some r => exact ⟨r, rfl⟩
    have hsettled : s'.leaseSettled = false := by
      rw [Bool.and_eq_true, Bool.not_eq_true'] at hreleases
      exact hreleases.2
    obtain rfl := (hdue rfl).2 hsettled
    exact settle_release hlease log s' ⟨⟨released, hat⟩, rfl⟩
  · rename_i hnot
    refine ⟨⟨hlease, released, hat, fun hrow => ⟨fun _ => ?_, ?_⟩⟩, rfl⟩
    · cases hsettled : s'.leaseSettled with
      | true => exact (hdue hrow).1 hsettled
      | false =>
        rw [hlease, hsettled] at hnot
        obtain ⟨r, rfl⟩ := Option.isSome_iff_exists.mp hrow
        exact absurd rfl hnot
    · rintro ⟨⟩

/-- An event that is yielded once the provisioning is rejected. -/
theorem emit_rejected (event : Event) : Attempt.Triple Allowed (Due cfg true row) (emit event)
    (fun log _ s => Due cfg true row log s) fun log _ s => Due cfg true row log s := by
  refine Attempt.Triple.ask fun log s reply h _ => ?_
  obtain ⟨hlease, released, hat, hdue⟩ := h
  have hafter := hat.snoc (q := .emit event) reply rfl (by simp [writesGuest])
  rw [Bool.true_or] at hafter
  cases reply with
  | ok u => exact ⟨hlease, released, hafter, hdue⟩
  | error e => exact ⟨hlease, released, hafter, hdue⟩

theorem emit_complete (rejected ok : Bool) : Attempt.Triple Allowed (Due cfg rejected row)
    (emit (.complete ok)) (fun log _ s => Due cfg rejected row log s)
    fun log _ s => Due cfg rejected row log s := by
  refine Attempt.Triple.ask fun log s reply h _ => ?_
  obtain ⟨hlease, released, hat, hdue⟩ := h
  have hafter := hat.snoc (q := .emit (.complete ok)) reply rfl (by simp [writesGuest])
  rw [rejects, Bool.or_false] at hafter
  cases reply with
  | ok u => exact ⟨hlease, released, hafter, hdue⟩
  | error e => exact ⟨hlease, released, hafter, hdue⟩

theorem Provides.emit {event : Event} (h : ∀ ok, event ≠ .complete ok) :
    Provides cfg counts row (emit event) := by
  refine Provides.ask rfl (by simp [writesGuest]) fun reply => ?_
  cases event with
  | complete ok => exact absurd rfl (h ok)
  | terminalLine => rfl
  | provisionStep step status => rfl

/-- A phase leaves the run as it was, or rejected. -/
def PhaseDone (cfg : Settings) (row : Option IpRow) (log : Log) (ok : Bool) (s : Locals) : Prop :=
  if ok then Holding cfg every row log s else Due cfg true row log s

def Phase (cfg : Settings) (row : Option IpRow) (phase : Act Bool) : Prop :=
  Attempt.Triple Allowed (Holding cfg every row) phase (PhaseDone cfg row)
    fun log _ s => Due cfg true row log s

theorem phaseResult_triple {op : Act α} (h : Provides cfg every row op) :
    Attempt.Triple Allowed (Holding cfg every row) (phaseResult op)
      (fun log o s => PhaseDone cfg row log o.isSome s) fun log _ s => Due cfg true row log s := by
  refine Attempt.Triple.handle _ (Attempt.Triple.bind h.due fun a =>
    Attempt.Triple.ret fun _ _ h => h) fun e => ?_
  split
  · exact Attempt.Triple.ret fun _ _ h => h
  · exact Attempt.Triple.throw fun _ _ h => h

theorem Phase.emitPhase (step : String) {op : Act (Option String)} (h : Provides cfg every row op) :
    Phase cfg row (emitPhase step op) := by
  refine Attempt.Triple.bind (Provides.emit (by simp)).due fun _ =>
    Attempt.Triple.bind (Provides.emit (by simp)).due fun _ =>
    Attempt.Triple.bind (phaseResult_triple h) fun result => ?_
  cases result with
  | none =>
    exact Attempt.Triple.bind (emit_rejected _) fun _ => Attempt.Triple.bind (emit_rejected _)
      fun _ => Attempt.Triple.ret fun _ _ h => h
  | some task =>
    exact Attempt.Triple.bind (Provides.emit (by simp)).due fun _ =>
      Attempt.Triple.bind (Provides.emit (by simp)).due fun _ => Attempt.Triple.ret fun _ _ h => h

theorem Phase.skipPhase (step : String) : Phase cfg row (skipPhase step) :=
  Attempt.Triple.bind (Provides.emit (by simp)).due fun _ => Attempt.Triple.ret fun _ _ h => h

theorem Phase.emitPhases {phases : List (Act Bool)} (h : ∀ phase ∈ phases, Phase cfg row phase) :
    Phase cfg row (emitPhases phases) := by
  induction phases with
  | nil => exact Attempt.Triple.ret fun _ _ h => h
  | cons phase phases ih =>
    refine Attempt.Triple.bind (h phase List.mem_cons_self) fun ok => ?_
    cases ok with
    | true => exact ih fun phase hphase => h phase (List.mem_cons_of_mem _ hphase)
    | false => exact Attempt.Triple.ret fun _ _ h => h

theorem streamSteps_triple {req : CloudVMProvisionRequest} (hreq : Assigns cfg row req) :
    Attempt.Triple Allowed (Holding cfg every row) (streamSteps cfg req (leaseOf row))
      (fun log _ s => ∃ rejected, Due cfg rejected row log s)
      fun log _ s => ∃ rejected, Due cfg rejected row log s := by
  have hphases : ∀ phase ∈ [emitCloneTemplateEvents cfg req, emitConfigureCloudInitEvents cfg req,
      emitResizeDiskEvents cfg req, emitStartVmEvents cfg req], Phase cfg row phase := by
    simp only [List.forall_mem_cons, List.not_mem_nil, false_implies, implies_true, and_true]
    refine ⟨Phase.emitPhase _ (Provides.cloneTemplateVm (fun _ _ => rfl) req),
      Phase.emitPhase _ (Provides.configureCloudInitVm (fun _ _ => rfl) hreq), ?_, ?_⟩
    · unfold emitResizeDiskEvents
      split
      · exact Phase.skipPhase _
      · exact Phase.emitPhase _ (Provides.resizeVmDisk req)
    · unfold emitStartVmEvents
      split
      · exact Phase.emitPhase _ (Provides.startVmAfterProvision req)
      · exact Phase.skipPhase _
  have hdue : ∀ {α : Type} {op : Act α}, Provides cfg every row op →
      Attempt.Triple Allowed (Holding cfg every row) op
        (fun log _ s => Holding cfg every row log s)
        fun log _ s => ∃ rejected, Due cfg rejected row log s := fun h =>
    h.due.mono (fun _ _ h => h) (fun _ _ _ h => h) fun _ _ _ h => ⟨true, h⟩
  refine Attempt.Triple.bind (hdue (Provides.emit (by simp))) fun _ =>
    Attempt.Triple.bind ((Phase.emitPhases hphases).mono (fun _ _ h => h) (fun _ _ _ h => h)
      fun _ _ _ h => ⟨true, h⟩) fun ok => ?_
  cases ok with
  | false =>
    exact (settle_triple true).mono (fun _ _ h => h) (fun _ _ _ h => ⟨true, h.1⟩)
      fun _ _ _ h => ⟨true, h.1⟩
  | true =>
    refine Attempt.Triple.bind (hdue (Provides.emit (by simp))) fun _ =>
      Attempt.Triple.bind (hdue BestEffort.journalProvisionBestEffort.provides) fun _ =>
      Attempt.Triple.bind (hdue (BestEffort.bindAllocatedIpToVmBestEffort _ _).provides) fun _ =>
      Attempt.Triple.after (fun log _ s => Due cfg false row log s)
        (Attempt.Triple.modify fun log s h => h.due) fun _ => ?_
    exact (emit_complete false true).mono (fun _ _ h => h) (fun _ _ _ h => ⟨false, h⟩)
      fun _ _ _ h => ⟨false, h⟩

/-- The stream has leased nothing, or its lease is due. -/
def StreamDue (cfg : Settings) (log : Log) (s : Locals) : Prop :=
  (Unleased log ∧ s.lease = none) ∨ ∃ row rejected, Due cfg rejected row log s

theorem streamBody_triple (req : CloudVMProvisionRequest) : Attempt.Triple Allowed
    (fun log s => log = [] ∧ s = Locals.initial) (streamBody cfg req)
    (fun log _ s => StreamDue cfg log s) (fun log _ s => StreamDue cfg log s) := by
  refine Attempt.Triple.bind ((prepareQemu_triple every req).mono (fun _ _ h => h)
    (fun _ _ _ h => h) ?_) fun p => ?_
  · rintro log e s ⟨hunleased, rfl⟩
    exact .inl ⟨hunleased, rfl⟩
  · obtain ⟨req, lease⟩ := p
    refine Attempt.Triple.bind (assign_lease (req, lease)) fun _ =>
      Attempt.Triple.exists fun row => Attempt.Triple.of_pre fun hprepared => ?_
    obtain ⟨rfl, hassigns⟩ := hprepared
    have hdue : ∀ {log : Log} {s : Locals} {rejected : Bool}, Due cfg rejected row log s →
        StreamDue cfg log s := fun h => .inr ⟨row, _, h⟩
    refine Attempt.Triple.bind ((Provides.emit (by simp)).due.mono (fun _ _ h => h)
      (fun _ _ _ h => h) fun _ _ _ h => hdue h) fun _ =>
      Attempt.Triple.bind ((phaseResult_triple (Provides.ask rfl (by simp [writesGuest])
        fun _ => rfl)).mono (fun _ _ h => h) (fun _ _ _ h => h) fun _ _ _ h => hdue h)
        fun opened => ?_
    cases opened with
    | none =>
      exact (Attempt.Triple.bind ((settle_triple true).mono (fun _ _ h => h) (fun _ _ _ h => h.1)
        fun _ _ _ h => h.1) fun _ => Attempt.Triple.bind (emit_rejected _) fun _ =>
          emit_rejected _).mono (fun _ _ h => h) (fun _ _ _ h => hdue h) fun _ _ _ h => hdue h
    | some u =>
      refine Attempt.Triple.bind assign_opened fun _ => (streamSteps_triple hassigns).mono
        (fun _ _ h => h) ?_ ?_
      · rintro log u s ⟨rejected, h⟩
        exact hdue h
      · rintro log e s ⟨rejected, h⟩
        exact hdue h

/-- Settling the lease of the stream. -/
theorem settle_due : Attempt.Triple Allowed (StreamDue cfg) settleLeaseRelease
    (fun log _ s => StreamDue cfg log s ∧ Done cfg every log)
    (fun log _ s => StreamDue cfg log s ∧ Done cfg every log) := by
  refine Attempt.Triple.or ?_ (Attempt.Triple.exists fun row => Attempt.Triple.exists fun rejected =>
    (settle_triple rejected).mono (fun _ _ h => h) ?_ ?_)
  · refine Attempt.Triple.read fun s => ?_
    rintro log s' ⟨⟨hunleased, hlease⟩, rfl⟩
    rw [if_neg (by simp [hlease])]
    exact ⟨.inl ⟨hunleased, hlease⟩, .inr hunleased⟩
  · rintro log u s ⟨⟨hlease, released, hat, h⟩, hsettled⟩
    exact ⟨.inr ⟨row, rejected, hlease, released, hat, h⟩,
      Ended.of_at hat fun hrow => (h hrow).1 hsettled⟩
  · rintro log e s ⟨hdue, hended⟩
    exact ⟨.inr ⟨row, rejected, hdue⟩, .inl ⟨row, hended⟩⟩

theorem emit_due (ok : Bool) : Attempt.Triple Allowed (StreamDue cfg) (emit (.complete ok))
    (fun log _ s => StreamDue cfg log s) (fun log _ s => StreamDue cfg log s) := by
  refine Attempt.Triple.or (Attempt.Triple.ask fun log s reply h _ => ?_)
    (Attempt.Triple.exists fun row => Attempt.Triple.exists fun rejected =>
      (emit_complete rejected ok).mono (fun _ _ h => h) (fun _ _ _ h => .inr ⟨row, rejected, h⟩)
        fun _ _ _ h => .inr ⟨row, rejected, h⟩)
  have hafter := h.1.snoc (x := ⟨.emit (.complete ok), reply⟩) rfl rfl rfl
  cases reply with
  | ok u => exact .inl ⟨hafter, h.2⟩
  | error e => exact .inl ⟨hafter, h.2⟩

theorem provisionStream_done (req : CloudVMProvisionRequest) : Attempt.Triple Allowed
    (fun log s => log = [] ∧ s = Locals.initial) (provisionStreamGenerator cfg req)
    (fun log _ _ => Done cfg every log) (fun log _ _ => Done cfg every log) := by
  have hfinally : Attempt.Triple Allowed (StreamDue cfg)
      (settleLeaseRelease.bind fun _ => closeSession) (fun log _ _ => Done cfg every log)
      (fun log _ _ => Done cfg every log) :=
    Attempt.Triple.bind (settle_due.mono (fun _ _ h => h) (fun _ _ _ h => h.2)
      fun _ _ _ h => h.2) fun _ => closeSession_done.mono (fun _ _ h => ⟨h, trivial⟩)
        (fun _ _ _ h => h) fun _ _ _ h => h
  refine Attempt.Triple.ensure (fun log _ s => StreamDue cfg log s)
    (fun log _ s => StreamDue cfg log s) ?_ (fun _ => hfinally) fun _ => hfinally
  refine Attempt.Triple.handle _ (streamBody_triple req) fun e => ?_
  split
  · exact Attempt.Triple.throw fun _ _ h => h
  · exact Attempt.Triple.bind (settle_due.mono (fun _ _ h => h) (fun _ _ _ h => h.1)
      fun _ _ _ h => h.1) fun _ => emit_due false

end ProvisionStream

end ProxboxApi.CloudProvision
