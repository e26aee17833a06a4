import ProxboxApi.FirewallWrites
import ProxboxApi.GeneratedProxy
import ProxboxApi.MigrateCancel
import ProxboxApi.SessionGuard
import ProxboxApi.VmTags

/-! No write to Proxmox without `allow_writes`: what each handler writes is on a session of an
endpoint whose row it has read with writes enabled, but for the generated endpoints. -/

namespace ProxboxApi.WriteAccess

open Requests SessionGuard SessionGuard.Interface
open Verbs (Endpoint Exn)

/-- No row is read and no session is open. -/
def start : Use Endpoint := ⟨[], none⟩

/-- The row of an endpoint that was read. -/
def readRow (reply : Except Exn (Option Endpoint)) (u : Use Endpoint) : Use Endpoint :=
  match reply with
  | .ok (some endpoint) => { u with read := u.read ++ [endpoint] }
  | _ => u

/-- A session on the endpoint that was read last. -/
def openLast (reply : Except Exn Unit) (u : Use Endpoint) : Use Endpoint :=
  match reply with
  | .ok () => { u with session := u.read.getLast? }
  | .error _ => u

/-- The row that was read last allows writes. -/
def LastAllows (u : Use Endpoint) : Prop := ∃ e, u.read.getLast? = some e ∧ e.allowWrites = true

theorem lastAllows_readRow {u : Use Endpoint} {endpoint : Endpoint}
    (h : endpoint.allowWrites = true) : LastAllows (readRow (.ok (some endpoint)) u) :=
  ⟨endpoint, by simp [readRow], h⟩

namespace VerbCalls

open Verbs

/-- The operational verbs. -/
def interface : Interface Verbs.Request Verbs.Reply Endpoint where
  writes
    | .mutate _ => true
    | _ => false
  next
    | .endpoint _, reply, u => readRow reply u
    | .proxmoxSession, reply, u => openLast reply u
    | _, _, u => u
  allows := Endpoint.allowWrites

variable {α β : Type} {pre : Use Endpoint → Prop}

theorem ready_openLast {u : Use Endpoint} (h : LastAllows u) :
    interface.Ready (openLast (.ok ()) u) := by
  obtain ⟨e, hlast, hallows⟩ := h
  exact ⟨e, List.mem_of_getLast? hlast, hlast, hallows⟩

def Quiet (p : Handler α) : Prop := ∀ s, interface.Quiet (p s)

/-- From records and a session as `pre` says, all writes are guarded. -/
def Covered (pre : Use Endpoint → Prop) (p : Handler α) : Prop :=
  ∀ u s, pre u → interface.Covers (fun _ _ => True) u (p s)

theorem quiet_ret (a : α) : Quiet (Step.ret a : Handler α) := fun _ => .ret _

theorem quiet_read {f : Ledger → Handler α} (hf : ∀ s, Quiet (f s)) : Quiet (Step.read f) :=
  fun s => hf s s

theorem quiet_modify (f : Ledger → Ledger) : Quiet (Step.modify f : Handler Unit) :=
  fun _ => .ret _

theorem Quiet.bind {p : Handler α} {f : α → Handler β} (hp : Quiet p) (hf : ∀ a, Quiet (f a)) :
    Quiet (Step.bind p f) :=
  fun s => (hp s).bind fun r => hf r.1 r.2

theorem quiet_ask {q : Verbs.Request} (hwrites : interface.writes q = false)
    (hnext : ∀ reply u, interface.next q reply u = u) : Quiet (Verbs.ask q) :=
  fun _ => .ask hwrites hnext fun _ => .ret _

theorem Quiet.covered {p : Handler α} (hp : Quiet p) : Covered pre p :=
  fun _ s _ => (hp s).covers fun _ => trivial

theorem Quiet.before {p : Handler α} {f : α → Handler β} (hp : Quiet p)
    (hf : ∀ a, Covered pre (f a)) : Covered pre (Step.bind p f) :=
  fun u s hpre => (hp s).before fun r => hf r.1 u r.2 hpre

/-- What follows writes nothing, or has its own gate. -/
theorem Covered.bind {p : Handler α} {f : α → Handler β} (hp : Covered pre p)
    (hf : ∀ a, Covered (fun _ => True) (f a)) : Covered pre (Step.bind p f) :=
  fun u s hpre => (hp u s hpre).bind fun u r _ => hf r.1 u r.2 trivial

theorem Covered.from {p : Handler α} (hp : Covered pre p) {u : Use Endpoint} {s : Ledger}
    (hpre : pre u) : interface.Covers (fun _ _ => True) u (p s) :=
  hp u s hpre

theorem covered_mutate (m : Mutation) : Covered interface.Ready (Verbs.ask (.mutate m)) :=
  fun _ _ hready => ⟨fun _ => hready, fun _ => trivial⟩

variable {a : Audit} {e : Exn} {m : RetryMetadata} {o : Outcome} {verdict : Result}

theorem quiet_updateJournal (entryId : ℤ) (kind : JournalKind) (comments : JournalComments) :
    Quiet (Verbs.ask (.updateJournal entryId kind comments)) :=
  quiet_ask rfl fun _ _ => rfl

theorem quiet_bestEffort {entryId : ℤ} {comments : JournalComments} :
    Quiet (bestEffortMarkJournalTerminal entryId comments) := by
  apply (quiet_updateJournal entryId .warning comments).bind
  rintro ⟨_ | _, _⟩
  · exact quiet_ret _
  · exact quiet_modify _

theorem quiet_update {entryId : ℤ} {kind : JournalKind}
    {comments interrupted failed : JournalComments} :
    Quiet (updateJournalEntryResistantToCancellation entryId kind comments interrupted failed) := by
  apply (quiet_updateJournal entryId kind comments).bind
  rintro ⟨e | _, _ | _⟩
  · dsimp only
    split_ifs
    · exact quiet_bestEffort.bind fun _ => quiet_ret _
    · exact quiet_ret _
    · exact quiet_bestEffort.bind fun _ => quiet_ret _
  · exact quiet_bestEffort.bind fun _ => quiet_ret _
  · exact (quiet_modify _).bind fun _ => quiet_ret _
  · exact (quiet_modify _).bind fun _ => quiet_ret _

theorem quiet_retry : Quiet (retryCachedJournalFinalization m) := by
  apply quiet_update.bind
  rintro (e | _)
  · dsimp only
    split_ifs <;> exact quiet_ret _
  · exact quiet_ret _

theorem quiet_cached {cached : CachedResponse} : Quiet (cachedIdempotencyResponse cached) := by
  unfold cachedIdempotencyResponse
  split
  · exact quiet_ret _
  · split_ifs
    · exact quiet_ret _
    · apply quiet_retry.bind
      rintro (e | _ | _)
      · exact quiet_ret _
      · exact (quiet_modify _).bind fun _ => quiet_ret _
      · exact (quiet_modify _).bind fun _ => quiet_ret _

theorem quiet_finalize : Quiet (finalizeJournalEntry m) := by
  apply quiet_read
  intro ledger
  split_ifs
  · exact quiet_ret _
  · apply quiet_update.bind
    rintro (e | _)
    · dsimp only
      split_ifs <;> exact quiet_ret _
    · exact quiet_ret _

theorem quiet_audit : Quiet (auditAndRespond a o) := by
  have hpending : Quiet (storePendingJournalFinalizationCache a o) := by
    unfold storePendingJournalFinalizationCache
    split_ifs
    · exact quiet_modify _
    · exact quiet_ret _
  have hfirst : Quiet (Step.read fun ledger : Ledger =>
      if ledger.terminal then (Step.ret () : Handler Unit)
      else storePendingJournalFinalizationCache a o) := by
    apply quiet_read
    intro ledger
    split_ifs
    · exact quiet_ret _
    · exact hpending
  apply hfirst.bind
  intro _
  apply quiet_finalize.bind
  rintro (e | finalized)
  · exact quiet_ret _
  · refine Quiet.bind ?_ fun _ => quiet_ret _
    by_cases hkeyed : cacheKeyed a.idempotencyKey = true
    · rw [if_pos hkeyed]
      exact quiet_modify _
    · rw [if_neg hkeyed]
      exact quiet_ret _

theorem quiet_unexpected : Quiet (finalizeAfterUnexpectedDispatchError a e) := by
  apply quiet_read
  intro ledger
  split_ifs
  · exact quiet_ret _
  · exact quiet_audit.bind fun _ => quiet_ret _

theorem quiet_writeahead {inv : Invocation} {endpoint : Endpoint} {vmId : ℤ} :
    Quiet (createWriteaheadJournalOrError inv endpoint vmId) := by
  unfold createWriteaheadJournalOrError
  apply Quiet.bind
  · exact quiet_ask rfl fun _ _ => rfl
  · rintro ⟨e | entry, cancelled⟩
    · dsimp only
      split_ifs <;> exact quiet_ret _
    · dsimp only
      split
      · split_ifs <;> exact quiet_ret _
      · split_ifs
        · exact quiet_unexpected.bind fun _ => quiet_ret _
        · exact quiet_ret _

/-- What the interruption journal does after a call. -/
theorem Covered.await {p : Handler (Except Exn α)} (hp : Covered pre p) :
    Covered pre (awaitWithInterruptionJournal a p) := by
  apply hp.bind
  intro r
  apply Quiet.covered
  split
  · exact quiet_ret _
  · exact quiet_ret _
  · exact quiet_unexpected.bind fun _ => quiet_ret _

theorem Quiet.await {p : Handler (Except Exn α)} (hp : Quiet p) :
    Quiet (awaitWithInterruptionJournal a p) := by
  apply hp.bind
  intro r
  split
  · exact quiet_ret _
  · exact quiet_ret _
  · exact quiet_unexpected.bind fun _ => quiet_ret _

theorem Covered.respond {call : Handler (Except Exn (Option String))} {statusCode : ℕ}
    (hcall : Covered pre call) : Covered pre (dispatchAndRespond a call verdict statusCode) := by
  apply hcall.await.bind
  intro r
  apply Quiet.covered
  split
  · exact quiet_audit
  · exact quiet_ret _
  · exact quiet_audit

theorem covered_unless {state : String} {m : Mutation} :
    Covered interface.Ready (dispatchUnless a state verdict m) := by
  have hstatus : Quiet (Verbs.ask .vmStatus) := quiet_ask rfl fun _ _ => rfl
  apply hstatus.await.before
  intro r
  split
  · exact quiet_audit.covered
  · exact (quiet_ret _).covered
  · split_ifs
    · exact quiet_audit.covered
    · exact (covered_mutate m).respond

theorem covers_ask {post : Use Endpoint → β × Ledger → Prop} {u : Use Endpoint} {s : Ledger}
    {q : Verbs.Request} {f : Verbs.Reply q → Handler β} :
    interface.Covers post u (Step.bind (Verbs.ask q) f s) ↔
      (interface.writes q = true → interface.Ready u) ∧
        ∀ reply, interface.Covers post (interface.next q reply u) (f reply s) :=
  Iff.rfl

/-- The destruction has a gate of its own. -/
theorem covered_destroy : Covered (fun _ => True) (deleteVmViaIntentDispatcher a) := by
  intro u s _
  refine covers_ask.mpr ⟨fun h => by simp [interface] at h, ?_⟩
  rintro (e | found)
  · trivial
  · dsimp only
    split_ifs with hallows
    · -- The gate has read a row with writes enabled; the session is opened on it.
      have hlast : LastAllows (readRow (.ok found) u) := by
        cases found with
        | none => simp at hallows
        | some endpoint => exact lastAllows_readRow (by simpa using hallows)
      refine covers_ask.mpr ⟨fun h => by simp [interface] at h, ?_⟩
      rintro (e | ⟨⟩)
      · trivial
      · refine covers_ask.mpr ⟨fun _ => ready_openLast hlast, ?_⟩
        rintro (e | upid) <;> trivial
    · trivial

theorem quiet_answer (o : Outcome) : Quiet (Step.bind (auditAndRespond a o) fun
    | .error e => (Step.ret (.error e) : Handler (Except Exn (Option Response)))
    | .ok response => Step.ret (.ok (some response))) := by
  apply quiet_audit.bind
  rintro (e | response) <;> exact quiet_ret _

theorem covered_delete : Covered interface.Ready (dispatchDelete a) := by
  have hstatus : Quiet (Verbs.ask .vmStatus) := quiet_ask rfl fun _ _ => rfl
  have hprepare : Covered interface.Ready (prepareDeleteDispatch a) := by
    apply hstatus.before
    intro r
    split
    · exact (quiet_answer _).covered
    · exact (quiet_ret _).covered
    · split_ifs
      · exact (quiet_ret _).covered
      · apply (covered_mutate .stopVm).bind
        intro r
        apply Quiet.covered
        split
        · exact quiet_answer _
        · exact quiet_ret _
        · exact quiet_ret _
  apply hprepare.await.bind
  rintro (e | _ | response)
  · exact (quiet_ret _).covered
  · exact covered_destroy.respond
  · exact (quiet_ret _).covered

theorem covered_dispatchCall {allowedText : Json.Fields → String} {inv : Invocation} :
    Covered interface.Ready (dispatchCall allowedText inv a) := by
  unfold dispatchCall
  split
  · exact covered_unless
  · exact covered_unless
  · exact covered_unless
  · exact covered_delete
  · exact (covered_mutate _).respond
  · exact (covered_mutate _).respond
  · exact (covered_mutate _).respond
  · have hpreflight : Quiet (Verbs.ask .migratePreflight) := quiet_ask rfl fun _ _ => rfl
    apply hpreflight.await.before
    intro r
    split
    · exact quiet_audit.covered
    · exact (quiet_ret _).covered
    · split
      · exact quiet_audit.covered
      · exact (covered_mutate _).respond

/-- Once there is an entry to finalize, the session is open. -/
theorem prepare_ready {inv : Invocation} {endpoint : Endpoint} {u : Use Endpoint} {s : Ledger}
    (hlast : LastAllows u) : interface.Covers
      (fun u r => ∀ a, r.1 = .ok (.entry a) → interface.Ready u) u (prepare inv endpoint s) := by
  refine covers_ask.mpr ⟨fun h => by simp [interface] at h, ?_⟩
  rintro (e | ⟨⟩)
  · dsimp only
    split_ifs <;> rintro a ⟨⟩
  · have hready : interface.Ready (openLast (.ok ()) u) := ready_openLast hlast
    have hkeep : ∀ p : Handler (Except Exn Prepared), Quiet p → interface.Covers
        (fun u r => ∀ a, r.1 = .ok (.entry a) → interface.Ready u) (openLast (.ok ()) u) (p s) :=
      fun p hp => (hp s).covers fun r a _ => hready
    apply hkeep
    apply Quiet.bind
    · exact quiet_ask rfl fun _ _ => rfl
    · intro r
      split
      · exact quiet_ret _
      · exact quiet_ret _
      · split
        · exact quiet_ret _
        · apply Quiet.bind
          · exact quiet_ask rfl fun _ _ => rfl
          · intro r
            split
            · split_ifs <;> exact quiet_ret _
            · exact quiet_ret _
            · exact quiet_writeahead

theorem covered_dispatch {allowedText : Json.Fields → String} {inv : Invocation}
    {endpoint : Endpoint} : Covered LastAllows (dispatch allowedText inv endpoint) := by
  intro u s hlast
  unfold dispatch Step.read
  dsimp only
  generalize (if cacheKeyed inv.idempotencyKey then s.cache else none) = hit
  cases hit with
  | some cached => exact quiet_cached.covered u s hlast
  | none =>
    refine (prepare_ready hlast).bind ?_
    rintro u ⟨e | a | response, s⟩ hready
    · trivial
    · exact covered_dispatchCall u s (hready a rfl)
    · trivial

theorem gate_lastAllows {inv : Invocation} {reason : String} {u : Use Endpoint} {s : Ledger} :
    interface.Covers (fun u r => ∀ endpoint, r.1 = .ok (.ok endpoint) → LastAllows u) u
      (gate inv reason s) := by
  unfold gate
  cases inv.endpointId with
  | none => rintro endpoint ⟨⟩
  | some id =>
    refine covers_ask.mpr ⟨fun h => by simp [interface] at h, ?_⟩
    rintro (e | _ | endpoint)
    · rintro endpoint ⟨⟩
    · rintro endpoint ⟨⟩
    · dsimp only
      split_ifs with hallows
      · intro _ _
        exact lastAllows_readRow hallows
      · rintro endpoint ⟨⟩

theorem covered_handle {allowedText : Json.Fields → String} {inv : Invocation} :
    Covered (fun _ => True) (handle allowedText inv) := by
  have hnetbox : Quiet (Verbs.ask .netboxSession) := quiet_ask rfl fun _ _ => rfl
  have hflight : Quiet (Verbs.ask .singleFlight) := quiet_ask rfl fun _ _ => rfl
  intro u s _
  refine gate_lastAllows.bind ?_
  rintro u ⟨e | refusal | endpoint, s⟩ hlast
  · trivial
  · trivial
  · refine Covered.from ?_ (hlast endpoint rfl)
    dsimp only
    split
    · exact (quiet_ret _).covered
    · apply hnetbox.before
      rintro (e | ⟨⟩)
      · dsimp only
        split_ifs <;> exact (quiet_ret _).covered
      · dsimp only
        split_ifs
        · apply hflight.before
          rintro (e | ⟨⟩)
          · exact (quiet_ret _).covered
          · exact covered_dispatch
        · exact covered_dispatch

theorem covered_cancel {c : Cancellation} : Covered (fun _ => True) (handleMigrateCancel c) := by
  have hnetbox : Quiet (Verbs.ask .netboxSession) := quiet_ask rfl fun _ _ => rfl
  have hinterrupted : ∀ a taskUpid e, Quiet (finalizeInterruptedCancel a taskUpid e) := by
    intro a taskUpid e
    apply quiet_read
    intro ledger
    split_ifs
    · exact quiet_ret _
    · exact quiet_audit.bind fun _ => quiet_ret _
  have hcall : ∀ a taskUpid, Covered interface.Ready (dispatchCancel a taskUpid) := by
    intro a taskUpid
    apply (covered_mutate _).bind
    intro r
    apply Quiet.covered
    split
    · exact quiet_audit
    · exact (hinterrupted _ _ _).bind fun _ => quiet_ret _
    · exact quiet_audit
  intro u s _
  refine gate_lastAllows.bind ?_
  rintro u ⟨e | refusal | endpoint, s⟩ hlast
  · trivial
  · trivial
  · refine Covered.from ?_ (hlast endpoint rfl)
    apply hnetbox.before
    rintro (e | ⟨⟩)
    · dsimp only
      split_ifs <;> exact (quiet_ret _).covered
    · intro u s hlast
      refine (prepare_ready hlast).bind ?_
      rintro u ⟨e | a | response, s⟩ hready
      · trivial
      · exact hcall a c.taskUpid u s (hready a rfl)
      · trivial

end VerbCalls

end ProxboxApi.WriteAccess
