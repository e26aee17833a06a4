import ProxboxApi.LeaseSettlement
import ProxboxApi.ProvisionAgreement

/-! The tasks that a provisioning starts, and which of them it waits for. -/

namespace ProxboxApi.CloudProvision

open Requests

variable (cfg : Settings) {τ : Type}

/-- The task that an answer to a write names. -/
def writeTask : Except Exn Json → Option String
  | .ok answer => (extractTaskId cfg answer).filter isUpid
  | .error _ => none

/-- The clone, configure or resize task that an exchange starts. -/
def startedTask : Exchange → Option String
  | ⟨.clone .., reply⟩ => writeTask cfg reply
  | ⟨.configure .., reply⟩ => writeTask cfg reply.result
  | ⟨.resize .., reply⟩ => writeTask cfg reply
  | _ => none

/-- The configure or resize task that an exchange starts. -/
def laterTask : Exchange → Option String
  | ⟨.clone .., _⟩ => none
  | x => startedTask cfg x

/-- The polls see the task stop, before any of them fails, with this exit status. -/
def stopsWith (exit : Option String) : List (Except Exn TaskStatus) → Bool
  | [] => false
  | .error _ :: _ => false
  | .ok task :: rest =>
    if task.status = some "stopped" then decide (task.exitstatus = exit) else stopsWith exit rest

/-- The task is waited for, and each wait for it sees it end with OK. -/
structure Observed (log : Log) (upid : String) : Prop where
  waited : ∃ node polls, (⟨.waitTask node upid, polls⟩ : Exchange) ∈ log
  ended : ∀ node polls, (⟨.waitTask node upid, polls⟩ : Exchange) ∈ log →
    stopsWith (some "OK") polls.seen = true

/-- The calls to Proxmox; the journal reads its resources. -/
def isProxmox : Request → Bool
  | .openSession | .clusterResources | .templateConfig .. | .clone .. | .waitTask ..
  | .qemuConfig .. | .configure .. | .resize .. | .start .. | .journal => true
  | _ => false

def proxmoxCalls (log : Log) : List Request := (log.map (·.1)).filter isProxmox

/-- The task that a wait follows. -/
def followed (task : Option String) : Option String :=
  if cfg.mockProxmox then none else task.filter isUpid

def isWait : Request → Bool
  | .waitTask .. => true
  | _ => false

section Calls

variable {cfg} {server : Server τ} {α β : Type}

theorem proxmoxCalls_append (log log' : Log) :
    proxmoxCalls (log ++ log') = proxmoxCalls log ++ proxmoxCalls log' := by
  simp [proxmoxCalls]

theorem proxmoxCalls_seen (log : Log) : proxmoxCalls (Step.seen sees log) = proxmoxCalls log := by
  induction log with
  | nil => rfl
  | cons x log ih =>
    obtain ⟨q, reply⟩ := x
    unfold proxmoxCalls Step.seen at ih ⊢
    cases hsees : sees q with
    | true => simp [List.filter_cons, hsees, ih]
    | false =>
      have hcall : isProxmox q = false := by
        cases q with
        | release | closeSession | emit => rfl
        | _ => cases hsees
      simp [hsees, hcall, ih]

theorem proxmoxCalls_plain_append_wait (log : Log) (h : ∀ x ∈ log, isWait x.1 = false)
    (node upid : String) (polls : Polls) (rest : Log) :
    proxmoxCalls (⟨.waitTask node upid, polls⟩ :: rest) ≠ proxmoxCalls log := by
  intro heq
  have hmem : Request.waitTask node upid ∈ proxmoxCalls log := by
    rw [← heq]
    exact List.mem_cons_self
  obtain ⟨hmap, _⟩ := List.mem_filter.mp hmem
  obtain ⟨x, hx, hwait⟩ := List.mem_map.mp hmap
  have hnot := h x hx
  rw [hwait] at hnot
  cases hnot

theorem waitForTask_eq (node : String) (task : Option String) :
    waitForTask cfg node task = match followed cfg task with
      | none => Attempt.ret ()
      | some upid => waitForUpid node upid := by
  unfold waitForTask followed
  cases task with
  | none => cases cfg.mockProxmox <;> rfl
  | some upid =>
    cases hmock : cfg.mockProxmox with
    | true => simp
    | false => cases hupid : isUpid upid <;> simp [Option.filter, hupid]

variable (cfg) in
def NoLater (log : Log) : Prop := ∀ x ∈ log, laterTask cfg x = none

variable (cfg) in
/-- The operation starts no configure or resize task but the one that it returns. -/
def Names (op : Act β) (task : β → Option String) : Prop :=
  Attempt.Triple (fun _ _ => True) (fun log _ => NoLater cfg log) op
    (fun log b _ => NoLater cfg log ↔ (task b).filter isUpid = none) fun log _ _ => NoLater cfg log

/-- The one program does what the other does if the other starts no configure or resize task, and
only then makes the same calls. -/
def SameUnlessLater (cfg : Settings) (server : Server τ) (p q : Act Unit) : Prop :=
  ∀ s t, (NoLater cfg ((q s).traceFrom server.answer t).1 →
      (p s).traceFrom server.answer t = (q s).traceFrom server.answer t) ∧
    (proxmoxCalls ((p s).traceFrom server.answer t).1 =
      proxmoxCalls ((q s).traceFrom server.answer t).1 →
        NoLater cfg ((q s).traceFrom server.answer t).1)

/-- An operation, then the wait for its task in the one program, and in the other none. -/
theorem SameUnlessLater.fork {op : Act β} {node : β → String} {task : β → Option String}
    {k k' : β → Act Unit} (hmock : cfg.mockProxmox = false) (hop : Names cfg op task)
    (hwait : ∀ b, Attempt.Hidden isWait (fun _ => True) (k' b))
    (hk : ∀ b, SameUnlessLater cfg server (k b) (k' b)) :
    SameUnlessLater cfg server
      (op.bind fun b => (waitForTask cfg (node b) (task b)).bind fun _ => k b) (op.bind k') := by
  intro s t
  obtain ⟨hok, herror⟩ := hop.of_server (fun _ h => nomatch h) server.answer t
  cases hresult : ((op s).run server.answer t).1.1 with
  | error e =>
    refine ⟨fun _ => Prod.ext ?_ ?_, fun _ => ?_⟩
    · rw [Attempt.traceFrom_bind_error hresult, Attempt.traceFrom_bind_error hresult]
    · simp only [Prog.traceFrom_snd, Attempt.bind, Step.bind, Prog.run_bind, hresult]
    · rw [Attempt.traceFrom_bind_error hresult]
      exact herror e hresult
  | ok b =>
    obtain ⟨hsame, hcalls⟩ := hk b ((op s).run server.answer t).1.2 ((op s).run server.answer t).2
    have hlater : NoLater cfg ((op.bind k' s).traceFrom server.answer t).1 ↔
        (task b).filter isUpid = none ∧ NoLater cfg
          ((k' b ((op s).run server.answer t).1.2).traceFrom server.answer
            ((op s).run server.answer t).2).1 := by
      rw [Attempt.traceFrom_bind_ok hresult, ← hok b hresult]
      exact List.forall_mem_append
    have hfollowed : followed cfg (task b) = (task b).filter isUpid := by simp [followed, hmock]
    rw [hlater]
    constructor
    · rintro ⟨hnone, hrest⟩
      refine Prod.ext ?_ ?_
      · rw [Attempt.traceFrom_bind_ok hresult, Attempt.traceFrom_bind_ok hresult, waitForTask_eq,
          hfollowed, hnone, ← hsame hrest]
        rfl
      · have hend := congrArg Prod.snd (hsame hrest)
        rw [Prog.traceFrom_snd, Prog.traceFrom_snd] at hend
        rw [Prog.traceFrom_snd, Prog.traceFrom_snd, Attempt.run_bind_ok hresult,
          Attempt.run_bind_ok hresult, waitForTask_eq, hfollowed, hnone]
        exact hend
    · rw [Attempt.traceFrom_bind_ok hresult, Attempt.traceFrom_bind_ok hresult, proxmoxCalls_append,
        proxmoxCalls_append, List.append_cancel_left_eq, waitForTask_eq, hfollowed]
      cases (task b).filter isUpid with
      | none => exact fun heq => ⟨rfl, hcalls heq⟩
      | some upid =>
        refine fun heq => absurd heq (proxmoxCalls_plain_append_wait _ ?_ (node b) upid _ _)
        exact ((hwait b).of_server server.answer _ _).1

def isLaterWrite : Request → Bool
  | .configure .. | .resize .. => true
  | _ => false

theorem laterTask_eq_none {x : Exchange} (hx : isLaterWrite x.1 = false) :
    laterTask cfg x = none := by
  obtain ⟨q, reply⟩ := x
  cases q with
  | configure | resize => cases hx
  | _ => rfl

theorem noLater_triple {op : Act β} (h : Attempt.Hidden isLaterWrite (fun _ => True) op) :
    Attempt.Triple (fun _ _ => True) (fun log _ => NoLater cfg log) op
      (fun log _ _ => NoLater cfg log) fun log _ _ => NoLater cfg log := by
  have hkeeps : ∀ log x, NoLater cfg log → isLaterWrite x.1 = false →
      NoLater cfg (log ++ [x]) := fun log x hlog hx => List.forall_mem_append.mpr
    ⟨hlog, fun y hy => List.mem_singleton.mp hy ▸ laterTask_eq_none hx⟩
  exact Attempt.Triple.mono (Attempt.Hidden.triple h hkeeps) (fun _ _ h => h)
    (fun _ _ _ h => h.1) fun _ _ _ h => h

/-- A write whose answer names the task. -/
theorem Names.ask {q : Request} {result : Reply q → Except Exn Json}
    (h : ∀ reply, laterTask cfg ⟨q, reply⟩ = writeTask cfg (result reply)) :
    Names cfg ((Attempt.ask q result).bind fun answer => Attempt.ret (extractTaskId cfg answer))
      id := by
  refine Attempt.Triple.bind (Attempt.Triple.ask fun log s reply hlog _ => ?_) fun answer =>
    Attempt.Triple.ret fun _ _ h => h
  have hnone : NoLater cfg (log ++ [⟨q, reply⟩]) ↔ writeTask cfg (result reply) = none := by
    rw [← h reply, NoLater, List.forall_mem_append]
    exact ⟨fun hall => hall.2 _ List.mem_cons_self,
      fun hlast => ⟨hlog, List.forall_mem_singleton.mpr hlast⟩⟩
  cases hresult : result reply with
  | ok answer =>
    rw [hresult] at hnone
    exact hnone
  | error e =>
    rw [hresult] at hnone
    exact hnone.mpr rfl

variable (cfg) in
theorem names_resize (req : CloudVMProvisionRequest) : Names cfg (resizeVmDisk cfg req) id := by
  unfold resizeVmDisk
  cases req.diskGb with
  | none => exact Attempt.Triple.ret fun _ _ h => iff_of_true h rfl
  | some size => exact Names.ask fun _ => rfl

variable (cfg) in
theorem names_configure (req : CloudVMProvisionRequest) :
    Names cfg (configureCloudInitVm cfg req) id := by
  refine Attempt.Triple.after (fun log _ _ => NoLater cfg log) ?_ fun config => ?_
  · exact noLater_triple (Attempt.Hidden.ask rfl fun _ _ _ => trivial)
  · cases cloudinitSlot cfg config with
    | none => exact Attempt.Triple.throw fun _ _ h => h
    | some slot => exact Names.ask fun _ => rfl

end Calls

section Front

variable {cfg} {hides : Request → Bool}

/-- The preparation asks NetBox only. -/
def isPreparation : Request → Bool
  | .netboxSession | .allocate _ | .pause => true
  | _ => false

variable (cfg) in
theorem hidden_prepare (h : ∀ q, isPreparation q = true → hides q = false)
    (req : CloudVMProvisionRequest) :
    Attempt.Hidden hides (fun _ => True) (prepareQemuCloudNetworkRequest cfg req) := by
  have hask : ∀ {α : Type} (q : Request) (result : Reply q → Except Exn α), isPreparation q = true →
      Attempt.Hidden hides (fun _ => True) (Attempt.ask q result : Act α) :=
    fun q result hq => Attempt.Hidden.ask (h q hq) fun _ _ _ => trivial
  have hcreate : ∀ prefixId left, Attempt.Hidden hides (fun _ => True) (restCreate prefixId left) := by
    intro prefixId left
    induction left with
    | zero => exact hask _ _ rfl
    | succ left ih =>
      refine Attempt.Hidden.handle (hask _ _ rfl) fun e => ?_
      split
      · exact Attempt.Hidden.seq (hask _ _ rfl) fun _ => ih
      · exact Attempt.Hidden.throw
  unfold prepareQemuCloudNetworkRequest requireResolvedCloudNetwork
  split
  · exact Attempt.Hidden.ret trivial
  · refine Attempt.Hidden.seq ?_ fun network => ?_
    · split
      · exact Attempt.Hidden.ret trivial
      · exact Attempt.Hidden.throw
    · cases network.prefixId with
      | none => exact Attempt.Hidden.throw
      | some prefixId =>
        refine Attempt.Hidden.seq (hask _ _ rfl) fun _ => Attempt.Hidden.seq ?_ fun allocated =>
          Attempt.Hidden.ret trivial
        refine Attempt.Hidden.seq (hcreate _ _) fun record => ?_
        cases normalizeAllocatedAddress cfg record with
        | none => exact Attempt.Hidden.throw
        | some allocated => exact Attempt.Hidden.ret trivial

/-- The clone asks for its template, and waits for its task. -/
def isCloning : Request → Bool
  | .clusterResources | .templateConfig .. | .clone .. | .waitTask .. => true
  | _ => false

/-- What comes after the last write with a task. -/
def isEnding : Request → Bool
  | .start .. | .journal | .bindIp .. => true
  | _ => false

variable (cfg) in
theorem hidden_clone (h : ∀ q, isCloning q = true → hides q = false)
    (req : CloudVMProvisionRequest) :
    Attempt.Hidden hides (fun _ => True) (cloneTemplateVm cfg req) := by
  refine Attempt.Hidden.seq (Attempt.Hidden.ask (h _ rfl) fun _ _ _ => trivial) fun resolved => ?_
  refine Attempt.Hidden.seq ?_ fun node => ?_
  · cases resolved with
    | none => exact Attempt.Hidden.ask (h _ rfl) fun _ _ _ => trivial
    | some node => exact Attempt.Hidden.ret trivial
  refine Attempt.Hidden.seq (Attempt.Hidden.ask (h _ rfl) fun _ _ _ => trivial) fun answer => ?_
  refine Attempt.Hidden.seq ?_ fun _ => Attempt.Hidden.ret trivial
  rw [waitForTask_eq]
  cases followed cfg (extractTaskId cfg answer) with
  | none => exact Attempt.Hidden.ret trivial
  | some upid => exact Attempt.Hidden.ask (h _ rfl) fun _ _ _ => trivial

variable (cfg) in
theorem hidden_configure (hread : ∀ node vmid, hides (.qemuConfig node vmid) = false)
    (hwrite : ∀ node vmid args, hides (.configure node vmid args) = false)
    (req : CloudVMProvisionRequest) :
    Attempt.Hidden hides (fun _ => True) (configureCloudInitVm cfg req) := by
  refine Attempt.Hidden.seq (Attempt.Hidden.ask (hread _ _) fun _ _ _ => trivial) fun config => ?_
  cases cloudinitSlot cfg config with
  | none => exact Attempt.Hidden.throw
  | some slot =>
    exact Attempt.Hidden.seq (Attempt.Hidden.ask (hwrite _ _ _) fun _ _ _ => trivial) fun _ =>
      Attempt.Hidden.ret trivial

variable (cfg) in
theorem hidden_resize (h : ∀ node vmid size, hides (.resize node vmid size) = false)
    (req : CloudVMProvisionRequest) :
    Attempt.Hidden hides (fun _ => True) (resizeVmDisk cfg req) := by
  unfold resizeVmDisk
  cases req.diskGb with
  | none => exact Attempt.Hidden.ret trivial
  | some size =>
    exact Attempt.Hidden.seq (Attempt.Hidden.ask (h _ _ _) fun _ _ _ => trivial) fun _ =>
      Attempt.Hidden.ret trivial

variable (cfg) in
/-- The steps after the last write with a task. -/
def plainEnd (req : CloudVMProvisionRequest) (lease : Option Lease) : Act Unit :=
  (startVmAfterProvision cfg req).bind fun _ =>
  (journalProvisionBestEffort cfg).bind fun _ =>
  (bindAllocatedIpToVmBestEffort req lease).bind fun _ => Attempt.ret ()

theorem isEnding_spec {q : Request} (h : isEnding q = true) :
    isWait q = false ∧ isLaterWrite q = false := by
  cases q with
  | start | journal | bindIp => exact ⟨rfl, rfl⟩
  | _ => cases h

variable (cfg) in
theorem hidden_end (h : ∀ q, isEnding q = true → hides q = false)
    (req : CloudVMProvisionRequest) (lease : Option Lease) :
    Attempt.Hidden hides (fun _ => True) (plainEnd cfg req lease) := by
  have hbest : ∀ q (result : Reply q → Except Exn Unit), isEnding q = true →
      Attempt.Hidden hides (fun _ => True) (bestEffort (Attempt.ask q result)) := by
    intro q result hq
    refine Attempt.Hidden.handle (Attempt.Hidden.ask (h _ hq) fun _ _ _ => trivial) fun e => ?_
    split
    · exact Attempt.Hidden.ret trivial
    · exact Attempt.Hidden.throw
  refine Attempt.Hidden.seq ?_ fun _ => Attempt.Hidden.seq ?_ fun _ => Attempt.Hidden.seq ?_ fun _ =>
    Attempt.Hidden.ret trivial
  · unfold startVmAfterProvision
    split
    · exact Attempt.Hidden.seq (Attempt.Hidden.ask (h _ rfl) fun _ _ _ => trivial) fun _ =>
        Attempt.Hidden.ret trivial
    · exact Attempt.Hidden.ret trivial
  · unfold journalProvisionBestEffort
    split
    · exact Attempt.Hidden.ret trivial
    · exact hbest _ _ rfl
  · unfold bindAllocatedIpToVmBestEffort
    split
    · exact Attempt.Hidden.ret trivial
    · exact hbest _ _ rfl

variable (cfg) in
def plainFront (req : CloudVMProvisionRequest) :
    Act ((CloudVMProvisionRequest × Option Lease) × Option String) :=
  (prepareQemuCloudNetworkRequest cfg req).bind fun p =>
  (Attempt.modify fun locals => { locals with lease := p.2 }).bind fun _ =>
  (Attempt.ask .openSession id).bind fun _ =>
  (Attempt.modify fun locals => { locals with opened := true }).bind fun _ =>
  (cloneTemplateVm cfg p.1).bind fun _ =>
  (configureCloudInitVm cfg p.1).bind fun task => Attempt.ret (p, task)

variable (cfg) in
def plainRest (wait : Wait) (req : CloudVMProvisionRequest) (lease : Option Lease) : Act Unit :=
  (resizeVmDisk cfg req).bind fun task =>
  (wait req.targetNode task).bind fun _ => plainEnd cfg req lease

theorem plainVm_eq (wait : Wait) (req : CloudVMProvisionRequest) :
    plainVm cfg wait (Attempt.ret ()) req = (plainFront cfg req).bind fun p =>
      (wait p.1.1.targetNode p.2).bind fun _ => plainRest cfg wait p.1.1 p.1.2 := by
  simp only [plainFront, Attempt.bind_assoc, Attempt.ret_bind]
  rfl

variable (cfg) in
theorem names_front (req : CloudVMProvisionRequest) : Names cfg (plainFront cfg req) Prod.snd := by
  refine Attempt.Triple.bind (noLater_triple (hidden_prepare cfg ?_ req)) fun p => ?_
  · intro q hq
    cases q with
    | netboxSession | allocate | pause => rfl
    | _ => cases hq
  refine Attempt.Triple.after (fun log _ _ => NoLater cfg log)
    (Attempt.Triple.modify fun _ _ h => h) fun _ => ?_
  refine Attempt.Triple.bind (noLater_triple (Attempt.Hidden.ask rfl fun _ _ _ => trivial)) fun _ => ?_
  refine Attempt.Triple.after (fun log _ _ => NoLater cfg log)
    (Attempt.Triple.modify fun _ _ h => h) fun _ => ?_
  refine Attempt.Triple.bind (noLater_triple (hidden_clone cfg ?_ p.1)) fun _ => ?_
  · intro q hq
    cases q with
    | clusterResources | templateConfig | clone | waitTask => rfl
    | _ => cases hq
  exact Attempt.Triple.bind (names_configure cfg p.1) fun task => Attempt.Triple.ret fun _ _ h => h

/-- Outside of the mock mode the steps with their waits are those without a wait, as long as neither
the configuration nor the resize starts a task. -/
theorem plainVm_same {server : Server τ} (hmock : cfg.mockProxmox = false)
    (req : CloudVMProvisionRequest) :
    SameUnlessLater cfg server (plainVm cfg (waitForTask cfg) (Attempt.ret ()) req)
      (plainVm cfg noWait (Attempt.ret ()) req) := by
  have hnowait : ∀ p : CloudVMProvisionRequest × Option Lease,
      Attempt.Hidden isWait (fun _ => True) (plainEnd cfg p.1 p.2) :=
    fun p => hidden_end cfg (fun q hq => (isEnding_spec hq).1) p.1 p.2
  rw [plainVm_eq, plainVm_eq]
  refine SameUnlessLater.fork hmock (names_front cfg req) (fun p => ?_) fun p => ?_
  · change Attempt.Hidden isWait _ (plainRest cfg noWait p.1.1 p.1.2)
    exact Attempt.Hidden.seq (hidden_resize cfg (fun _ _ _ => rfl) p.1.1) fun _ => hnowait p.1
  · refine SameUnlessLater.fork hmock (names_resize cfg p.1.1) (fun _ => hnowait p.1) fun _ s t => ?_
    have hlater : Attempt.Hidden isLaterWrite (fun _ => True) (plainEnd cfg p.1.1 p.1.2) :=
      hidden_end cfg (fun q hq => (isEnding_spec hq).2) p.1.1 p.1.2
    exact ⟨fun _ => rfl, fun _ x hx => laterTask_eq_none ((hlater.of_server server.answer s t).1 x hx)⟩

def isEmit : Request → Bool
  | .emit _ => true
  | _ => false

variable (cfg) in
/-- The plain steps emit no event. -/
theorem plainVm_silent (req : CloudVMProvisionRequest) :
    Attempt.Hidden isEmit (fun _ => True) (plainVm cfg noWait (Attempt.ret ()) req) := by
  refine Attempt.Hidden.seq (hidden_prepare cfg (fun q hq => ?_) req) fun p => ?_
  · cases q with
    | emit => cases hq
    | _ => rfl
  refine Attempt.Hidden.seq (Attempt.Hidden.modify trivial) fun _ => ?_
  refine Attempt.Hidden.seq (Attempt.Hidden.ask rfl fun _ _ _ => trivial) fun _ => ?_
  refine Attempt.Hidden.seq (Attempt.Hidden.modify trivial) fun _ => ?_
  refine Attempt.Hidden.seq (hidden_clone cfg (fun q hq => ?_) p.1) fun _ => ?_
  · cases q with
    | emit => cases hq
    | _ => rfl
  refine Attempt.Hidden.seq (hidden_configure cfg (fun _ _ => rfl) (fun _ _ _ => rfl) p.1) fun _ => ?_
  refine Attempt.Hidden.seq (Attempt.Hidden.ret trivial) fun _ => ?_
  refine Attempt.Hidden.seq (hidden_resize cfg (fun _ _ _ => rfl) p.1) fun _ => ?_
  refine Attempt.Hidden.seq (Attempt.Hidden.ret trivial) fun _ => ?_
  refine hidden_end cfg (fun q hq => ?_) p.1 p.2
  cases q with
  | emit => cases hq
  | _ => rfl

/-- In the mock mode there are no waits. -/
theorem waitForTask_mock (hmock : cfg.mockProxmox = true) : waitForTask cfg = noWait := by
  funext node task
  simp [waitForTask_eq, followed, hmock, noWait]

end Front

end ProxboxApi.CloudProvision
