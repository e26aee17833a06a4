import ProxboxApi.ProvisionTasks

/-! What `provision_vm` and the provision stream have seen of their tasks when they report that the
guest is provisioned. -/

namespace ProxboxApi.CloudProvision

open Requests

variable {cfg : Settings} {τ α : Type} {log : Log}

/-- Each task that is started is waited for, but the one that is still to be waited for; each wait is
for a task that is started, and has ended well; nothing has rejected the provisioning. -/
structure Followed (cfg : Settings) (log : Log) (pending : Option String) : Prop where
  started : ∀ x ∈ log, ∀ upid, startedTask cfg x = some upid → cfg.mockProxmox = false →
    (∃ node polls, (⟨.waitTask node upid, polls⟩ : Exchange) ∈ log) ∨ pending = some upid
  waits : ∀ node upid polls, (⟨.waitTask node upid, polls⟩ : Exchange) ∈ log →
    cfg.mockProxmox = false ∧ polls.result = .ok () ∧ ∃ x ∈ log, startedTask cfg x = some upid
  pends : ∀ upid, pending.filter isUpid = some upid → ∃ x ∈ log, startedTask cfg x = some upid
  accepted : log.any (rejects cfg every) = false

theorem Followed.snoc {pending : Option String} (h : Followed cfg log pending) {x : Exchange}
    (hstart : startedTask cfg x = none) (hwait : isWait x.1 = false)
    (haccepted : rejects cfg every x = false) : Followed cfg (log ++ [x]) pending where
  started := by
    intro y hy upid hupid hmock
    rcases List.mem_append.mp hy with hy | hy
    · obtain ⟨node, polls, hmem⟩ | hpending := h.started y hy upid hupid hmock
      · exact .inl ⟨node, polls, List.mem_append_left _ hmem⟩
      · exact .inr hpending
    · rw [List.mem_singleton.mp hy, hstart] at hupid
      cases hupid
  waits := by
    intro node upid polls hmem
    rcases List.mem_append.mp hmem with hmem | hmem
    · obtain ⟨hmock, hresult, y, hy, hupid⟩ := h.waits node upid polls hmem
      exact ⟨hmock, hresult, y, List.mem_append_left _ hy, hupid⟩
    · rw [← List.mem_singleton.mp hmem] at hwait
      cases hwait
  pends := fun upid hupid => by
    obtain ⟨y, hy, hstarted⟩ := h.pends upid hupid
    exact ⟨y, List.mem_append_left _ hy, hstarted⟩
  accepted := by simp [h.accepted, haccepted]

/-- A write that is answered with a task. -/
theorem Followed.start (h : Followed cfg log none) {x : Exchange} {task : Option String}
    (hstart : startedTask cfg x = task.filter isUpid) (hwait : isWait x.1 = false)
    (haccepted : rejects cfg every x = false) : Followed cfg (log ++ [x]) task where
  started := by
    intro y hy upid hupid hmock
    rcases List.mem_append.mp hy with hy | hy
    · obtain ⟨node, polls, hmem⟩ | hpending := h.started y hy upid hupid hmock
      · exact .inl ⟨node, polls, List.mem_append_left _ hmem⟩
      · cases hpending
    · rw [List.mem_singleton.mp hy, hstart] at hupid
      exact .inr (Option.filter_eq_some_iff.mp hupid).1
  waits := by
    intro node upid polls hmem
    rcases List.mem_append.mp hmem with hmem | hmem
    · obtain ⟨hmock, hresult, y, hy, hupid⟩ := h.waits node upid polls hmem
      exact ⟨hmock, hresult, y, List.mem_append_left _ hy, hupid⟩
    · rw [← List.mem_singleton.mp hmem] at hwait
      cases hwait
  pends := fun upid hupid => ⟨x, by simp, hstart.trans hupid⟩
  accepted := by simp [h.accepted, haccepted]

/-- A wait that ends well. -/
theorem Followed.wait {task : Option String} {node upid : String} (h : Followed cfg log task)
    (hupid : followed cfg task = some upid) {polls : Polls} (hpolls : polls.result = .ok ()) :
    Followed cfg (log ++ [⟨.waitTask node upid, polls⟩]) none := by
  have hmock : cfg.mockProxmox = false := by
    cases hmock : cfg.mockProxmox with
    | false => rfl
    | true => simp [followed, hmock] at hupid
  have htask : task.filter isUpid = some upid := by simpa [followed, hmock] using hupid
  refine ⟨fun y hy other hother _ => .inl ?_, fun node' other polls' hmem => ?_,
    fun _ hpending => absurd hpending (Option.some_ne_none _).symm, ?_⟩
  · rcases List.mem_append.mp hy with hy | hy
    · obtain ⟨node', polls', hmem⟩ | hpending := h.started y hy other hother hmock
      · exact ⟨node', polls', List.mem_append_left _ hmem⟩
      · have hsame : upid = other := by
          have hmine := (Option.filter_eq_some_iff.mp htask).1
          rw [hpending] at hmine
          exact (Option.some.inj hmine).symm
        exact ⟨node, polls, hsame ▸ List.mem_append_right _ List.mem_cons_self⟩
    · rw [List.mem_singleton.mp hy] at hother
      cases hother
  · rcases List.mem_append.mp hmem with hmem | hmem
    · obtain ⟨_, hresult, y, hy, hstarted⟩ := h.waits node' other polls' hmem
      exact ⟨hmock, hresult, y, List.mem_append_left _ hy, hstarted⟩
    · cases List.mem_singleton.mp hmem
      obtain ⟨y, hy, hstarted⟩ := h.pends upid htask
      exact ⟨hmock, hpolls, y, List.mem_append_left _ hy, hstarted⟩
  · have haccepted : rejects cfg every ⟨.waitTask node upid, polls⟩ = false := by
      rw [rejects, hpolls]
      rfl
    simp [h.accepted, haccepted]

/-- A task that is not waited for is none, or that of the mock. -/
theorem Followed.settle {task : Option String} (h : Followed cfg log task)
    (hnone : followed cfg task = none) : Followed cfg log none := by
  refine ⟨fun y hy upid hupid hmock => .inl ?_, h.waits, nofun, h.accepted⟩
  obtain hwaited | hpending := h.started y hy upid hupid hmock
  · exact hwaited
  · have hisUpid : isUpid upid = true := by
      obtain ⟨q, reply⟩ := y
      have hwrite : ∀ r, writeTask cfg r = some upid → isUpid upid = true := by
        rintro (e | answer) hr
        · cases hr
        · exact (Option.filter_eq_some_iff.mp hr).2
      cases q with
      | clone | configure | resize => exact hwrite _ hupid
      | _ => cases hupid
    simp [followed, hmock, hpending, Option.filter, hisUpid] at hnone

/-- A step of the provisioning after which the task of its value is still to be waited for; where it
raises, a reply has rejected the provisioning. -/
def Follows (cfg : Settings) (before : Option String) (op : Act α) (after : α → Option String) : Prop :=
  Attempt.Triple (fun _ _ => True) (fun log _ => Followed cfg log before) op
    (fun log a _ => Followed cfg log (after a)) fun log _ _ => log.any (rejects cfg every) = true

theorem Follows.bind {β : Type} {before : Option String} {op : Act α} {mid : α → Option String}
    {f : α → Act β} {after : β → Option String} (h : Follows cfg before op mid)
    (hf : ∀ a, Follows cfg (mid a) (f a) after) : Follows cfg before (op.bind f) after :=
  Attempt.Triple.bind h hf

/-- A step without a task, before another. -/
theorem Follows.seq {β : Type} {op : Act α} {f : α → Act β} {after : β → Option String}
    (h : Follows cfg none op fun _ => none) (hf : ∀ a, Follows cfg none (f a) after) :
    Follows cfg none (op.bind f) after :=
  Follows.bind h hf

theorem Follows.ret {before : Option String} {a : α} {after : α → Option String}
    (h : after a = before) : Follows cfg before (Attempt.ret a) after :=
  Attempt.Triple.ret fun _ _ hlog => h ▸ hlog

theorem any_snoc_of_rejects {x : Exchange} (h : rejects cfg every x = true) :
    (log ++ [x]).any (rejects cfg every) = true := by simp [h]

/-- A request that starts no task. -/
theorem Follows.ask {q : Request} {result : Reply q → Except Exn α} (hwait : isWait q = false)
    (hstart : ∀ reply, startedTask cfg ⟨q, reply⟩ = none)
    (hrejects : ∀ reply, rejects cfg every ⟨q, reply⟩ = raises every (result reply)) :
    Follows cfg none (Attempt.ask q result) fun _ => none := by
  refine Attempt.Triple.ask fun log s reply h _ => ?_
  have hrejected := hrejects reply
  cases hresult : result reply with
  | ok a =>
    rw [hresult] at hrejected
    exact h.snoc (hstart reply) hwait hrejected
  | error e =>
    rw [hresult] at hrejected
    exact any_snoc_of_rejects hrejected

/-- A write whose answer may name a task. -/
theorem Follows.write {q : Request} {result : Reply q → Except Exn Json} (hwait : isWait q = false)
    (hstart : ∀ reply, startedTask cfg ⟨q, reply⟩ = writeTask cfg (result reply))
    (hrejects : ∀ reply, rejects cfg every ⟨q, reply⟩ = raises every (result reply)) :
    Follows cfg none (Attempt.ask q result) (extractTaskId cfg) := by
  refine Attempt.Triple.ask fun log s reply h _ => ?_
  have hrejected := hrejects reply
  have hstarted := hstart reply
  cases hresult : result reply with
  | ok a =>
    rw [hresult] at hrejected hstarted
    exact h.start hstarted hwait hrejected
  | error e =>
    rw [hresult] at hrejected
    exact any_snoc_of_rejects hrejected

theorem Follows.wait (node : String) (task : Option String) :
    Follows cfg task (waitForTask cfg node task) fun _ => none := by
  rw [waitForTask_eq]
  cases hfollowed : followed cfg task with
  | none => exact Attempt.Triple.ret fun _ _ h => h.settle hfollowed
  | some upid =>
    refine Attempt.Triple.ask fun log s polls h _ => ?_
    cases hresult : polls.result with
    | ok u => exact h.wait hfollowed hresult
    | error e =>
      refine any_snoc_of_rejects ?_
      rw [rejects, hresult]
      rfl

theorem Follows.bestEffort {q : Request} {result : Reply q → Except Exn Unit}
    (hwait : isWait q = false) (hstart : ∀ reply, startedTask cfg ⟨q, reply⟩ = none)
    (hrejects : ∀ reply, rejects cfg every ⟨q, reply⟩ =
      raises (fun e => !e.isException && every e) (result reply)) :
    Follows cfg none (bestEffort (Attempt.ask q result)) fun _ => none := by
  refine Attempt.Triple.handle (fun log e _ => if e.isException then Followed cfg log none
    else log.any (rejects cfg every) = true) ?_ fun e => ?_
  · refine Attempt.Triple.ask fun log s reply h _ => ?_
    have hrejected := hrejects reply
    cases hresult : result reply with
    | ok a =>
      rw [hresult] at hrejected
      exact h.snoc (hstart reply) hwait hrejected
    | error e =>
      rw [hresult] at hrejected
      cases he : e.isException with
      | true =>
        simp only [raises, he] at hrejected
        simpa [he] using h.snoc (hstart reply) hwait hrejected
      | false =>
        simp only [raises, he] at hrejected
        have hlast : rejects cfg every ⟨q, reply⟩ = true := hrejected
        simpa [he] using any_snoc_of_rejects hlast
  · cases he : e.isException with
    | true =>
      rw [if_pos rfl]
      exact Attempt.Triple.ret fun _ _ h => by simpa [he] using h
    | false =>
      rw [if_neg (by simp)]
      exact Attempt.Triple.throw fun _ _ h => by simpa [he] using h

variable (cfg) in
theorem follows_clone (req : CloudVMProvisionRequest) :
    Follows cfg none (cloneTemplateVm cfg req) fun _ => none := by
  have hevery : ∀ e : Exn, e.isException = true → every e = true := fun _ _ => rfl
  refine Follows.seq (Follows.ask rfl (fun _ => rfl) fun reply => ?_)
    fun resolved => Follows.seq ?_ fun node => ?_
  · cases reply with
    | ok resources => rfl
    | error e => cases e <;> simp [rejects, raises, nodeResult]
  · cases resolved with
    | some node => exact Follows.ret rfl
    | none =>
      refine Follows.ask rfl (fun _ => rfl) fun reply => ?_
      cases reply with
      | ok u => rfl
      | error e => exact (counts_wrapped hevery e).symm
  · exact Follows.bind (Follows.write rfl (fun _ => rfl) fun _ => rfl) fun answer =>
      Follows.bind (Follows.wait _ _) fun _ => Follows.ret rfl

variable (cfg) in
theorem follows_configure (req : CloudVMProvisionRequest) :
    Follows cfg none (configureCloudInitVm cfg req) id := by
  refine Attempt.Triple.after (fun log config _ => (cloudinitSlot cfg config).elim
    (log.any (rejects cfg every) = true) fun _ => Followed cfg log none) ?_ fun config => ?_
  · refine Attempt.Triple.ask fun log s reply h _ => ?_
    have hrejected := @rejects_qemuConfig cfg every req.targetNode req.newVmid reply
    cases hresult : qemuConfigResult reply with
    | ok config =>
      rw [hresult] at hrejected
      dsimp only at hrejected ⊢
      cases hslot : cloudinitSlot cfg config with
      | none =>
        rw [hslot] at hrejected
        exact any_snoc_of_rejects hrejected
      | some slot =>
        rw [hslot] at hrejected
        exact h.snoc rfl rfl hrejected
    | error e =>
      rw [hresult] at hrejected
      exact any_snoc_of_rejects hrejected
  · cases cloudinitSlot cfg config with
    | none => exact Attempt.Triple.throw fun _ _ h => h
    | some slot =>
      exact Follows.bind (Follows.write rfl (fun _ => rfl) fun _ => rfl) fun _ => Follows.ret rfl

variable (cfg) in
theorem follows_resize (req : CloudVMProvisionRequest) :
    Follows cfg none (resizeVmDisk cfg req) id := by
  unfold resizeVmDisk
  cases req.diskGb with
  | none => exact Follows.ret rfl
  | some size =>
    exact Follows.bind (Follows.write rfl (fun _ => rfl) fun _ => rfl) fun _ => Follows.ret rfl

variable (cfg) in
theorem follows_end (req : CloudVMProvisionRequest) (lease : Option Lease) :
    Follows cfg none (plainEnd cfg req lease) fun _ => none := by
  refine Follows.seq ?_ fun _ => Follows.seq ?_ fun _ =>
    Follows.seq ?_ fun _ => Follows.ret rfl
  · unfold startVmAfterProvision
    split
    · exact Follows.bind (Follows.ask rfl (fun _ => rfl) fun _ => rfl) fun _ => Follows.ret rfl
    · exact Follows.ret rfl
  · unfold journalProvisionBestEffort
    split
    · exact Follows.ret rfl
    · exact Follows.bestEffort rfl (fun _ => rfl) fun _ => rfl
  · unfold bindAllocatedIpToVmBestEffort
    split
    · exact Follows.ret rfl
    · exact Follows.bestEffort rfl (fun _ => rfl) fun _ => rfl

/-- Nothing but NetBox is asked yet. -/
def Unstarted (log : Log) : Prop := ∀ x ∈ log, isPreparation x.1 = true

theorem Unstarted.followed (h : Unstarted log) : Followed cfg log none := by
  have hnone : ∀ x ∈ log, startedTask cfg x = none ∧ isWait x.1 = false ∧
      rejects cfg every x = false := by
    rintro ⟨q, reply⟩ hx
    have hprepares := h _ hx
    cases q with
    | netboxSession | allocate | pause => exact ⟨rfl, rfl, rfl⟩
    | _ => cases hprepares
  refine ⟨fun x hx upid hupid _ => ?_, fun node upid polls hx => ?_, nofun, ?_⟩
  · rw [(hnone x hx).1] at hupid
    cases hupid
  · cases (hnone _ hx).2.1
  · exact List.any_eq_false.mpr fun x hx => by simp [(hnone x hx).2.2]

variable (cfg) in
theorem plainVm_triple (req : CloudVMProvisionRequest) :
    Attempt.Triple (fun _ _ => True) (fun log _ => Unstarted log)
      (plainVm cfg (waitForTask cfg) (Attempt.ret ()) req)
      (fun log _ _ => Followed cfg log none)
      fun log _ _ => log.any (rejects cfg every) = true ∨ Unstarted log := by
  have hprepare : Attempt.Hidden (fun q => !isPreparation q) (fun _ => True)
      (prepareQemuCloudNetworkRequest cfg req) := hidden_prepare cfg (fun q hq => by simp [hq]) req
  have hkeeps : ∀ log (x : Exchange), Unstarted log → (!isPreparation x.1) = false →
      Unstarted (log ++ [x]) := by
    intro log x hlog hx
    refine List.forall_mem_append.mpr ⟨hlog, fun y hy => ?_⟩
    rw [List.mem_singleton.mp hy]
    simpa using hx
  refine Attempt.Triple.after (fun log _ _ => Unstarted log) ?_ fun p => ?_
  · exact Attempt.Triple.mono (Attempt.Hidden.triple hprepare hkeeps) (fun _ _ h => h)
      (fun _ _ _ h => h.1) fun _ _ _ h => .inr h
  have hsteps : Follows cfg none ((Attempt.modify fun locals => { locals with lease := p.2 }).bind
      fun _ => (Attempt.ask .openSession id).bind fun _ =>
      (Attempt.modify fun locals => { locals with opened := true }).bind fun _ =>
      plainSteps cfg (waitForTask cfg) (Attempt.ret ()) p.1 p.2) fun _ => none := by
    refine Follows.seq (Attempt.Triple.modify fun _ _ h => h) fun _ => ?_
    refine Follows.seq (Follows.ask rfl (fun _ => rfl) fun _ => rfl) fun _ => ?_
    refine Follows.seq (Attempt.Triple.modify fun _ _ h => h) fun _ => ?_
    refine Follows.seq (follows_clone cfg p.1) fun _ => ?_
    refine Follows.bind (follows_configure cfg p.1) fun _ => Follows.bind (Follows.wait _ _) fun _ => ?_
    refine Follows.bind (follows_resize cfg p.1) fun _ => Follows.bind (Follows.wait _ _) fun _ => ?_
    exact follows_end cfg p.1 p.2
  exact Attempt.Triple.mono hsteps (fun _ _ h => h.followed) (fun _ _ _ h => h) fun _ _ _ h => .inl h

/-- `provision_vm` on a server: its exchanges, and what it ends in. -/
def jsonRun (cfg : Settings) (server : Server τ) (req : CloudVMProvisionRequest) (t : τ) :
    Log × (Except Exn CloudVMProvisionResponse × Locals) :=
  (provisionVm cfg req Locals.initial).traceFrom server.answer t

/-- The stream on a server. -/
def streamRun (cfg : Settings) (server : Server τ) (req : CloudVMProvisionRequest) (t : τ) :
    Log × (Except Exn Unit × Locals) :=
  (provisionStreamGenerator cfg req Locals.initial).traceFrom server.answer t

/-- Both programs make the same calls to Proxmox, and one that reports success has seen its tasks
end with OK. -/
structure Alike (cfg : Settings) (server : Server τ) (req : CloudVMProvisionRequest) (t : τ) :
    Prop where
  calls : proxmoxCalls (jsonRun cfg server req t).1 = proxmoxCalls (streamRun cfg server req t).1
  json : ∀ response, (jsonRun cfg server req t).2.1 = .ok response →
    ∀ x ∈ (jsonRun cfg server req t).1, ∀ upid, startedTask cfg x = some upid →
      Observed (jsonRun cfg server req t).1 upid
  stream : ∀ reply, (⟨.emit (.complete true), reply⟩ : Exchange) ∈ (streamRun cfg server req t).1 →
    ∀ x ∈ (streamRun cfg server req t).1, ∀ upid, startedTask cfg x = some upid →
      Observed (streamRun cfg server req t).1 upid

/-- A task that ends without an exit status, or that is started in the mock mode. -/
def unobserved (cfg : Settings) : Exchange → Bool
  | ⟨.waitTask .., polls⟩ => stopsWith none polls.seen
  | x => cfg.mockProxmox && (startedTask cfg x).isSome

section Same

variable {server : Server τ} {req : CloudVMProvisionRequest} {t : τ}

/-- Neither the clean-up nor an event. -/
def relevant : Request → Bool
  | .release _ | .closeSession | .emit _ => false
  | _ => true

/-- What is not relevant starts no task and, as it is answered, rejects nothing. -/
theorem irrelevant_spec {x : Exchange} (h : relevant x.1 = false)
    (hreply : ∃ t : τ, x.2 = (server.answer x.1 t).1) :
    unobserved cfg x = false ∧ rejects cfg every x = false := by
  obtain ⟨q, reply⟩ := x
  cases q with
  | release | closeSession => exact ⟨by simp [unobserved, startedTask], rfl⟩
  | emit event =>
    obtain ⟨t, hanswer⟩ := hreply
    obtain rfl : reply = .ok () := hanswer.trans (congrArg Prod.fst (server.emits event t))
    refine ⟨by simp [unobserved, startedTask], ?_⟩
    cases event <;> rfl
  | _ => cases h

theorem relevant_of_startedTask {x : Exchange} {upid : String}
    (h : startedTask cfg x = some upid) : relevant x.1 = true := by
  obtain ⟨q, reply⟩ := x
  cases q with
  | clone | configure | resize => rfl
  | _ => cases h

theorem Unstarted.unobserved (h : Unstarted log) :
    ∀ x ∈ log, CloudProvision.unobserved cfg x = false := by
  rintro ⟨q, reply⟩ hx
  have hprepares := h _ hx
  cases q with
  | netboxSession | allocate | pause => simp [CloudProvision.unobserved, startedTask]
  | _ => cases hprepares

theorem mem_iff_of_seen {log log' : Log} (h : Step.seen sees log = Step.seen sees log')
    {x : Exchange} (hx : relevant x.1 = true) : x ∈ log ↔ x ∈ log' := by
  have hsees : sees x.1 = true := by
    obtain ⟨q, reply⟩ := x
    cases q with
    | release | closeSession | emit => cases hx
    | _ => rfl
  have hmem : ∀ log : Log, x ∈ Step.seen sees log ↔ x ∈ log := fun log => by
    rw [Step.seen, List.mem_filter]
    exact and_iff_left hsees
  rw [← hmem log, h, hmem]

/-- The plain steps with their waits. -/
def plainJson (cfg : Settings) (server : Server τ) (req : CloudVMProvisionRequest) (t : τ) :
    Log × (Except Exn Unit × Locals) :=
  (plainVm cfg (waitForTask cfg) (Attempt.ret ()) req Locals.initial).traceFrom server.answer t

/-- The plain steps without a wait. -/
def plainStream (cfg : Settings) (server : Server τ) (req : CloudVMProvisionRequest) (t : τ) :
    Log × (Except Exn Unit × Locals) :=
  (plainVm cfg noWait (Attempt.ret ()) req Locals.initial).traceFrom server.answer t

theorem mem_jsonRun {x : Exchange} (hx : relevant x.1 = true) :
    x ∈ (jsonRun cfg server req t).1 ↔ x ∈ (plainJson cfg server req t).1 :=
  mem_iff_of_seen (provisionVm_seen req Locals.initial t).1 hx

theorem plainJson_ok {response : CloudVMProvisionResponse}
    (h : (jsonRun cfg server req t).2.1 = .ok response) : (plainJson cfg server req t).2.1 = .ok () := by
  rw [jsonRun, Prog.traceFrom_snd] at h
  rw [plainJson, Prog.traceFrom_snd]
  exact (provisionVm_seen req Locals.initial t).2 response h

theorem streamRun_seen_ok (h : (plainStream cfg server req t).2.1 = .ok ()) :
    ∃ reply, Step.seen sees (streamRun cfg server req t).1 =
      Step.seen sees ((plainStream cfg server req t).1 ++ [⟨.emit (.complete true), reply⟩]) := by
  rw [plainStream, Prog.traceFrom_snd] at h
  rw [streamRun, provisionStream_seen, plainVm_finish, Attempt.traceFrom_bind_ok h]
  exact ⟨_, rfl⟩

theorem streamRun_seen_error {e : Exn} (h : (plainStream cfg server req t).2.1 = .error e) :
    Step.seen sees (streamRun cfg server req t).1 =
      Step.seen sees (plainStream cfg server req t).1 := by
  rw [plainStream, Prog.traceFrom_snd] at h
  rw [streamRun, provisionStream_seen, plainVm_finish, Attempt.traceFrom_bind_error h]
  rfl

theorem mem_streamRun {x : Exchange} (hx : relevant x.1 = true) :
    x ∈ (streamRun cfg server req t).1 ↔ x ∈ (plainStream cfg server req t).1 := by
  cases hresult : (plainStream cfg server req t).2.1 with
  | error e => exact mem_iff_of_seen (streamRun_seen_error hresult) hx
  | ok u =>
    obtain ⟨reply, hseen⟩ := streamRun_seen_ok hresult
    rw [mem_iff_of_seen hseen hx, List.mem_append]
    refine or_iff_left fun hlast => ?_
    rw [List.mem_singleton.mp hlast] at hx
    cases hx

/-- The stream reports success exactly if the plain steps succeed. -/
theorem complete_iff : (∃ reply, (⟨.emit (.complete true), reply⟩ : Exchange) ∈
      (streamRun cfg server req t).1) ↔ (plainStream cfg server req t).2.1 = .ok () := by
  have hmem : ∀ (log : Log) (reply : Reply (.emit (.complete true))),
      (⟨.emit (.complete true), reply⟩ : Exchange) ∈ Step.seen sees log ↔
        (⟨.emit (.complete true), reply⟩ : Exchange) ∈ log :=
    fun log reply => List.mem_filter.trans (and_iff_left rfl)
  constructor
  · rintro ⟨reply, hreply⟩
    cases hresult : (plainStream cfg server req t).2.1 with
    | ok u => rfl
    | error e =>
      rw [← hmem, streamRun_seen_error hresult, hmem] at hreply
      have hsilent := (plainVm_silent cfg req).of_server server.answer Locals.initial t
      cases hsilent.1 _ hreply
  · intro hresult
    obtain ⟨reply, hseen⟩ := streamRun_seen_ok hresult
    refine ⟨reply, ?_⟩
    rw [← hmem, hseen, hmem]
    exact List.mem_append_right _ List.mem_cons_self

theorem proxmoxCalls_jsonRun : proxmoxCalls (jsonRun cfg server req t).1 =
    proxmoxCalls (plainJson cfg server req t).1 := by
  rw [← proxmoxCalls_seen, jsonRun, (provisionVm_seen req Locals.initial t).1, proxmoxCalls_seen]
  rfl

theorem proxmoxCalls_streamRun : proxmoxCalls (streamRun cfg server req t).1 =
    proxmoxCalls (plainStream cfg server req t).1 := by
  rw [← proxmoxCalls_seen]
  cases hresult : (plainStream cfg server req t).2.1 with
  | error e => rw [streamRun_seen_error hresult, proxmoxCalls_seen]
  | ok u =>
    obtain ⟨reply, hseen⟩ := streamRun_seen_ok hresult
    rw [hseen, proxmoxCalls_seen, proxmoxCalls_append]
    exact List.append_nil _

theorem noLater_iff : NoLater cfg (streamRun cfg server req t).1 ↔
    NoLater cfg (plainStream cfg server req t).1 := by
  have hrelevant : ∀ x : Exchange, isLaterWrite x.1 = true → relevant x.1 = true := by
    rintro ⟨q, reply⟩ hq
    cases q with
    | configure | resize => rfl
    | _ => cases hq
  constructor
  · intro h x hx
    cases hlater : isLaterWrite x.1 with
    | false => exact laterTask_eq_none hlater
    | true => exact h x ((mem_streamRun (hrelevant x hlater)).mpr hx)
  · intro h x hx
    cases hlater : isLaterWrite x.1 with
    | false => exact laterTask_eq_none hlater
    | true => exact h x ((mem_streamRun (hrelevant x hlater)).mp hx)

/-- Where no later task is started, or nothing is waited for, the plain steps are the same. -/
theorem plain_same (h : cfg.mockProxmox = false → NoLater cfg (streamRun cfg server req t).1) :
    plainJson cfg server req t = plainStream cfg server req t := by
  cases hmock : cfg.mockProxmox with
  | true =>
    rw [plainJson, waitForTask_mock hmock]
    rfl
  | false => exact (plainVm_same hmock req Locals.initial t).1 (noLater_iff.mp (h hmock))

theorem stopsWith_of_result {ending : Exn} {seen : List (Except Exn TaskStatus)}
    (h : pollResult ending seen = .ok ()) :
    stopsWith (some "OK") seen = true ↔ stopsWith none seen = false := by
  induction seen with
  | nil => cases h
  | cons poll rest ih =>
    cases poll with
    | error e => cases h
    | ok task =>
      simp only [pollResult, stopsWith] at h ⊢
      split at h
      · rename_i hstopped
        split at h
        · rename_i hexit
          rw [if_pos hstopped, if_pos hstopped]
          rcases hexit with hexit | hexit
          · simp [hexit]
          · simp [hexit]
        · cases h
      · rename_i hrunning
        rw [if_neg hrunning, if_neg hrunning]
        exact ih h

/-- Tasks that are followed are observed, in any log with the same relevant exchanges. -/
theorem observed_of_followed {plain log : Log} (h : Followed cfg plain none)
    (hmem : ∀ x : Exchange, relevant x.1 = true → (x ∈ log ↔ x ∈ plain))
    (hobserved : ∀ x ∈ plain, unobserved cfg x = false) {x : Exchange} (hx : x ∈ plain)
    {upid : String} (hupid : startedTask cfg x = some upid) : Observed log upid := by
  have hmock : cfg.mockProxmox = false := by
    have hnot := hobserved x hx
    obtain ⟨q, reply⟩ := x
    cases q with
    | waitTask => cases hupid
    | _ => simpa [unobserved, hupid] using hnot
  refine ⟨?_, fun node polls hwait => ?_⟩
  · obtain ⟨node, polls, hwait⟩ | hpending := h.started x hx upid hupid hmock
    · exact ⟨node, polls, (hmem _ rfl).mpr hwait⟩
    · cases hpending
  · have hplain := (hmem _ rfl).mp hwait
    obtain ⟨_, hresult, _⟩ := h.waits node upid polls hplain
    exact (stopsWith_of_result hresult).mpr (hobserved _ hplain)

/-- The tasks are observed only if each wait has seen an exit status, and nothing is mocked. -/
theorem not_unobserved {plain log : Log} (h : Followed cfg plain none)
    (hmem : ∀ x : Exchange, relevant x.1 = true → (x ∈ log ↔ x ∈ plain))
    (hobserved : ∀ x ∈ log, ∀ upid, startedTask cfg x = some upid → Observed log upid)
    {x : Exchange} (hx : x ∈ plain) (hrelevant : relevant x.1 = true) :
    unobserved cfg x = false := by
  have hstarted : ∀ y ∈ plain, ∀ upid, startedTask cfg y = some upid → Observed log upid := by
    rintro ⟨q, reply⟩ hy upid hupid
    exact hobserved _ ((hmem _ (relevant_of_startedTask hupid)).mpr hy) upid hupid
  have hwrite : (cfg.mockProxmox && (startedTask cfg x).isSome) = false := by
    cases hupid : startedTask cfg x with
    | none => simp
    | some upid =>
      obtain ⟨node, polls, hwait⟩ := (hstarted x hx upid hupid).waited
      simp [(h.waits node upid polls ((hmem _ rfl).mp hwait)).1]
  obtain ⟨q, reply⟩ := x
  cases q with
  | waitTask node upid =>
    obtain ⟨_, hresult, y, hy, hupid⟩ := h.waits node upid reply hx
    have hended := (hstarted y hy upid hupid).ended node reply ((hmem _ rfl).mpr hx)
    exact (stopsWith_of_result hresult).mp hended
  | _ => exact hwrite

theorem forall_streamRun {f : Exchange → Bool} (hf : ∀ x : Exchange, relevant x.1 = false →
      (∃ t : τ, x.2 = (server.answer x.1 t).1) → f x = false) :
    (∀ x ∈ (streamRun cfg server req t).1, f x = false) ↔
      ∀ x ∈ (plainStream cfg server req t).1, f x = false := by
  constructor
  · intro h x hx
    cases hrelevant : relevant x.1 with
    | true => exact h x ((mem_streamRun hrelevant).mpr hx)
    | false => exact hf x hrelevant (Prog.answered_of_mem hx)
  · intro h x hx
    cases hrelevant : relevant x.1 with
    | true => exact h x ((mem_streamRun hrelevant).mp hx)
    | false => exact hf x hrelevant (Prog.answered_of_mem hx)

/-- The two programs are alike exactly if, outside of the mock mode, neither the configuration nor
the resize starts a task, and, where nothing rejects the provisioning, no task ends without an exit
status or is started in the mock mode. -/
theorem provisions_alike_iff : Alike cfg server req t ↔
    (cfg.mockProxmox = false → NoLater cfg (streamRun cfg server req t).1) ∧
      ((streamRun cfg server req t).1.any (rejects cfg every) = true ∨
        ∀ x ∈ (streamRun cfg server req t).1, unobserved cfg x = false) := by
  have hunobserved : (∀ x ∈ (streamRun cfg server req t).1, unobserved cfg x = false) ↔
      ∀ x ∈ (plainStream cfg server req t).1, unobserved cfg x = false :=
    forall_streamRun fun x h hreply => (irrelevant_spec h hreply).1
  have hrejected : (streamRun cfg server req t).1.any (rejects cfg every) = false ↔
      (plainStream cfg server req t).1.any (rejects cfg every) = false := by
    simpa only [List.any_eq_false, Bool.not_eq_true] using
      forall_streamRun fun x h hreply => (irrelevant_spec h hreply).2
  obtain ⟨hfollowed, hfailed⟩ := (plainVm_triple cfg req).of_server (s := Locals.initial)
    (fun _ h => nomatch h) server.answer t
  rw [← Prog.traceFrom_snd, ← plainJson] at hfollowed hfailed
  constructor
  · intro h
    have hfirst : cfg.mockProxmox = false → NoLater cfg (streamRun cfg server req t).1 := by
      intro hmock
      have hcalls := h.calls
      rw [proxmoxCalls_jsonRun, proxmoxCalls_streamRun] at hcalls
      exact noLater_iff.mpr ((plainVm_same hmock req Locals.initial t).2 hcalls)
    rw [plain_same hfirst] at hfollowed hfailed
    refine ⟨hfirst, ?_⟩
    cases hresult : (plainStream cfg server req t).2.1 with
    | error e =>
      rcases hfailed e hresult with hany | hunstarted
      · refine .inl ?_
        rwa [← Bool.not_eq_false, hrejected, Bool.not_eq_false]
      · exact .inr (hunobserved.mpr fun x hx => hunstarted.unobserved x hx)
    | ok u =>
      obtain ⟨reply, hreply⟩ := complete_iff.mpr hresult
      refine .inr (hunobserved.mpr fun x hx => ?_)
      cases hrelevant : relevant x.1 with
      | true =>
        exact not_unobserved (hfollowed u hresult) (fun _ => mem_streamRun) (h.stream reply hreply) hx
          hrelevant
      | false => exact (irrelevant_spec hrelevant (Prog.answered_of_mem hx)).1
  · rintro ⟨hfirst, hsecond⟩
    have hsame := plain_same hfirst
    rw [hsame] at hfollowed
    have hobserved : ∀ log : Log, (∀ x : Exchange, relevant x.1 = true →
        (x ∈ log ↔ x ∈ (plainStream cfg server req t).1)) →
        (plainStream cfg server req t).2.1 = .ok () →
        ∀ x ∈ log, ∀ upid, startedTask cfg x = some upid → Observed log upid := by
      intro log hmem hresult x hx upid hupid
      have hplain := hfollowed () hresult
      have hall := hunobserved.mp (hsecond.resolve_left (by
        rw [hrejected.mpr hplain.accepted]
        exact Bool.false_ne_true))
      exact observed_of_followed hplain hmem hall
        ((hmem x (relevant_of_startedTask hupid)).mp hx) hupid
    refine ⟨?_, fun response hresponse => ?_, fun reply hreply => ?_⟩
    · rw [proxmoxCalls_jsonRun, proxmoxCalls_streamRun, hsame]
    · refine hobserved _ (fun x hx => ?_) (hsame ▸ plainJson_ok hresponse)
      rw [mem_jsonRun hx, hsame]
    · exact hobserved _ (fun _ => mem_streamRun) (complete_iff.mp ⟨reply, hreply⟩)

end Same

def localSettings : Settings where
  py := .ascii
  isIpAddress _ := false
  ipInterface _ := none
  cloudNetwork := ⟨none, "", none, ""⟩
  maxRetries := 3
  mockProxmox := false

/-- Guest 100, cloned from template 900 with a larger disk. -/
def grownVm : CloudVMProvisionRequest where
  templateVmid := 900
  newVmid := 100
  targetNode := "pve1"
  network := none
  diskGb := some 40
  startAfterProvision := false
  enforceCloudNetwork := false

/-- The resize is answered by a task, and the task fails. -/
def resizeFails : Server Unit where
  answer q _ := (match q with
    | .allocate _ => .failed (.exception false)
    | .release _ => ⟨true, .ok ()⟩
    | .clusterResources => .ok [⟨some 900, some "pve1"⟩]
    | .qemuConfig .. => .ok (.obj [("ide2", .str "local:cloudinit")])
    | .resize .. => .ok (.str "UPID:pve1:0000A1B2:resize:100:root@pam:")
    | .clone .. | .start .. | .nextid | .startLxc .. => .ok .null
    | .configure .. | .createLxc .. => ⟨true, .ok .null⟩
    | .waitTask .. => ⟨[.ok ⟨some "stopped", some "no space left"⟩], .exception false⟩
    | .netboxSession | .pause | .openSession | .closeSession | .templateConfig .. | .journal
    | .bindIp .. | .emit _ => .ok (), ())
  emits _ _ := rfl

def isSuccess : Request → Bool
  | .emit (.complete true) => true
  | _ => false

theorem eq_of_isSuccess {q : Request} (h : isSuccess q = true) : q = .emit (.complete true) := by
  unfold isSuccess at h
  split at h
  · rfl
  · cases h

/-- The stream reports success though the resize has failed. -/
theorem failed_resize_reported : ¬ Alike localSettings resizeFails grownVm () := by
  intro h
  have hcompletes : (streamRun localSettings resizeFails grownVm ()).1.any (fun x =>
      isSuccess x.1) = true := by decide +kernel
  have hstarts : (streamRun localSettings resizeFails grownVm ()).1.any (fun x =>
      (startedTask localSettings x).isSome) = true := by decide +kernel
  have hwaits : (streamRun localSettings resizeFails grownVm ()).1.any (fun x => isWait x.1) =
      false := by decide +kernel
  obtain ⟨⟨q, reply⟩, hx, hq⟩ := List.any_eq_true.mp hcompletes
  obtain ⟨y, hy, hstarted⟩ := List.any_eq_true.mp hstarts
  obtain ⟨upid, hupid⟩ := Option.isSome_iff_exists.mp hstarted
  obtain rfl : q = .emit (.complete true) := eq_of_isSuccess hq
  obtain ⟨node, polls, hwait⟩ := (h.stream reply hx y hy upid hupid).waited
  exact absurd rfl (List.any_eq_false.mp hwaits _ hwait)

end ProxboxApi.CloudProvision
