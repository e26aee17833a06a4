import ProxboxApi.VerbHandlers

/-! The journal of the operational verbs: what is written before a mutation, and what it says once
the handler has ended. -/

namespace ProxboxApi.Verbs

open Requests

abbrev Log := Step.Log Request Reply

abbrev Exchange := Prog.Exchange Request Reply

/-- The journal entry that NetBox creates in an exchange. -/
def created : Exchange → Option JournalEntry
  | ⟨.createJournal .., ⟨.ok entry, _⟩⟩ => some entry
  | _ => none

def createdEntries (log : Log) : List JournalEntry := log.filterMap created

/-- The comments that an exchange leaves on a journal entry. -/
def commentsOn (entryId : ℤ) : Exchange → Option JournalComments
  | ⟨.createJournal _ _ comments, ⟨.ok entry, _⟩⟩ =>
    if entry.id = entryId then some comments else none
  | ⟨.updateJournal id _ comments, ⟨.ok _, _⟩⟩ => if id = entryId then some comments else none
  | _ => none

def lastComments (entryId : ℤ) (log : Log) : Option JournalComments :=
  (log.filterMap (commentsOn entryId)).getLast?

/-- One journal entry was created, and its last comments carry a terminal result. -/
def AuditedOnce (log : Log) : Prop :=
  ∃ entry comments, createdEntries log = [entry] ∧
    lastComments entry.id log = some comments ∧ comments.result ≠ .inProgress

/-- NetBox created an entry, and its answer is one from which the id of the entry is read. -/
def EntryRead (log : Log) : Prop :=
  ∃ entry ∈ createdEntries log, journalEntryId (writeVerbJournalEntry entry) = some entry.id

/-- NetBox has not refused the PATCH of an exchange. -/
def patchAccepted : Exchange → Bool
  | ⟨.updateJournal .., ⟨.error _, _⟩⟩ => false
  | _ => true

def PatchesAccepted (log : Log) : Prop := ∀ x ∈ log, patchAccepted x = true

/-- The verb whose mutation it is; `delete` may stop the VM first. -/
def Mutation.verb : Mutation → Verb
  | .startVm => .start
  | .stopVm => .stop
  | .rebootVm => .reboot
  | .createVmSnapshot .. => .snapshot
  | .backupVm .. => .backup
  | .deleteVmSnapshot _ => .deleteSnapshot
  | .migrateVm .. | .cancelTask _ => .migrate
  | .destroy => .delete

/-- The mutation of a verb returned normally. -/
def Returned (verb : Verb) (log : Log) : Prop :=
  ∃ (m : Mutation) (upid : Option String), m.verb = verb ∧ ⟨.mutate m, .ok upid⟩ ∈ log

def Result.succeeds : Result → Bool
  | .ok | .accepted => true
  | _ => false

/-- A journal entry exists for the VM that was resolved. -/
def Anchored (log : Log) : Prop :=
  ∃ vmId kind comments entry cancelled,
    (⟨.resolveVm, .ok (some vmId)⟩ : Exchange) ∈ log ∧
      (⟨.createJournal vmId kind comments, ⟨.ok entry, cancelled⟩⟩ : Exchange) ∈ log

/-- A journal entry is for the VM that was resolved, a mutation has its journal entry, and a success
is recorded after the mutation has returned; the earlier requests of the key count for the last. -/
def Safe (earlier log : Log) : Request → Prop
  | .mutate _ => Anchored log
  | .createJournal vmId _ comments => (⟨.resolveVm, .ok (some vmId)⟩ : Exchange) ∈ log ∧
    (comments.result.succeeds = true → Returned comments.verb (earlier ++ log))
  | .updateJournal _ _ comments =>
    comments.result.succeeds = true → Returned comments.verb (earlier ++ log)
  | _ => True

/-- The comments that a retry may write. -/
structure Sound (log : Log) (m : RetryMetadata) : Prop where
  comments : m.comments.result.succeeds = true → Returned m.comments.verb log
  interrupted : m.interruptedComments.result.succeeds = false
  failed : m.failedComments.result.succeeds = false

def Justified (log : Log) (cache : Option CachedResponse) : Prop :=
  ∀ cached, cache = some cached → ∀ m, cached.retry = some m → Sound log m

/-- The cache entry of a key after its requests, one after another, and their exchanges. -/
inductive Served (allowedText : Json.Fields → String) : Log → Option CachedResponse → Prop where
  | start : Served allowedText [] none
  | expire {log : Log} {cache : Option CachedResponse} (h : Served allowedText log cache) :
    Served allowedText log none
  | serve {log log' : Log} {cache : Option CachedResponse} {inv : Invocation}
      {result : Except Exn Response} {ledger : Ledger} (h : Served allowedText log cache)
      (hrun : Prog.Runs (handle allowedText inv ⟨false, cache⟩) log' (result, ledger)) :
    Served allowedText (log ++ log') ledger.cache

section Logs

variable {log later earlier : Log} {x : Exchange}

@[simp] theorem createdEntries_append :
    createdEntries (log ++ later) = createdEntries log ++ createdEntries later :=
  List.filterMap_append ..

theorem patchesAccepted_append :
    PatchesAccepted (log ++ later) ↔ PatchesAccepted log ∧ PatchesAccepted later :=
  List.forall_mem_append

theorem lastComments_append {entryId : ℤ} : lastComments entryId (log ++ [x]) =
    (commentsOn entryId x).or (lastComments entryId log) := by
  unfold lastComments
  rw [List.filterMap_append]
  cases hx : commentsOn entryId x with
  | none => simp [hx]
  | some comments => simp [hx]

theorem Returned.append {verb : Verb} (h : Returned verb log) (later : Log) :
    Returned verb (log ++ later) := by
  obtain ⟨m, upid, hverb, hmem⟩ := h
  exact ⟨m, upid, hverb, List.mem_append_left _ hmem⟩

theorem Anchored.append (h : Anchored log) (later : Log) : Anchored (log ++ later) := by
  obtain ⟨vmId, kind, comments, entry, cancelled, hresolve, hcreate⟩ := h
  exact ⟨vmId, kind, comments, entry, cancelled, List.mem_append_left _ hresolve,
    List.mem_append_left _ hcreate⟩

theorem Sound.append {m : RetryMetadata} (h : Sound log m) (later : Log) :
    Sound (log ++ later) m :=
  ⟨fun hsucceeds => (h.comments hsucceeds).append later, h.interrupted, h.failed⟩

theorem Justified.append {cache : Option CachedResponse} (h : Justified log cache) (later : Log) :
    Justified (log ++ later) cache :=
  fun cached hcached m hm => (h cached hcached m hm).append later

theorem Justified.store {cache : Option CachedResponse} {new : CachedResponse}
    (h : Justified log cache) (hnew : ∀ m, new.retry = some m → Sound log m) :
    Justified log (new.store cache) := by
  intro cached hcached m hm
  unfold CachedResponse.store at hcached
  cases cache with
  | none =>
    cases hcached
    exact hnew m hm
  | some old =>
    dsimp only at hcached
    split at hcached
    · cases hcached
      exact h cached rfl m hm
    · cases hcached
      exact hnew m hm

end Logs

def any (q : Request) (_ : Reply q) : Prop := True

/-- The last comments on an entry carry a terminal result. -/
def Terminal (entryId : ℤ) (log : Log) : Prop :=
  ∃ comments, lastComments entryId log = some comments ∧ comments.result ≠ .inProgress

/-- The write-ahead entry is there, and is to be finalized. -/
structure Open (earlier : Log) (a : Audit) (log : Log) (ledger : Ledger) : Prop where
  anchored : Anchored log
  justified : Justified (earlier ++ log) ledger.cache
  entry : ∃ entry, createdEntries log = [entry] ∧
    journalEntryId (writeVerbJournalEntry entry) = some a.entryId ∧
      (entry.id ≠ a.entryId → ∃ comments, lastComments entry.id log = some comments ∧
        comments.result = .inProgress)
  terminal : ledger.terminal = true → Terminal a.entryId log

/-- The write-ahead entry is finalized, if NetBox accepts that. -/
structure Closed (earlier : Log) (a : Audit) (log : Log) (ledger : Ledger) : Prop extends
    Open earlier a log ledger where
  closed : PatchesAccepted log → Terminal a.entryId log

/-- The metadata of a finalization: what it writes is terminal. -/
structure Fine (log : Log) (m : RetryMetadata) : Prop extends Sound log m where
  terminal : m.comments.result ≠ .inProgress ∧ m.interruptedComments.result ≠ .inProgress ∧
    m.failedComments.result ≠ .inProgress

/-- What is raised is no `Exception`. -/
def Uncaught {α : Type} (r : Except Exn α) : Prop := ∀ e, r = .error e → e.isException = false

theorem uncaught_ok {α : Type} (v : α) : Uncaught (.ok v) := fun _ h => by cases h

section Finalization

variable {earlier log : Log} {a : Audit} {ledger : Ledger} {m : RetryMetadata}

theorem Fine.append (h : Fine log m) (later : Log) : Fine (log ++ later) m :=
  ⟨h.toSound.append later, h.terminal⟩

/-- Exchanges that do not concern the journal keep what is known of it. -/
theorem Open.quiet (h : Open earlier a log ledger) {x : Exchange} (hcreated : created x = none)
    (hcomments : ∀ id, commentsOn id x = none) : Open earlier a (log ++ [x]) ledger where
  anchored := h.anchored.append _
  justified := by
    rw [← List.append_assoc]
    exact h.justified.append _
  entry := by
    obtain ⟨entry, hentries, hread, hstray⟩ := h.entry
    refine ⟨entry, ?_, hread, ?_⟩
    · rw [createdEntries_append, hentries, createdEntries, List.filterMap_cons_none hcreated]
      rfl
    · rw [lastComments_append, hcomments]
      exact hstray
  terminal := by
    intro hterminal
    obtain ⟨comments, hlast, hresult⟩ := h.terminal hterminal
    exact ⟨comments, by rw [lastComments_append, hcomments, Option.none_or, hlast], hresult⟩

/-- A refused PATCH. -/
theorem Open.refused (h : Open earlier a log ledger) (kind : JournalKind)
    (comments : JournalComments) (e : Exn) (cancelled : Bool) :
    Open earlier a (log ++ [⟨.updateJournal a.entryId kind comments, ⟨.error e, cancelled⟩⟩])
      ledger :=
  h.quiet rfl fun _ => rfl

/-- An accepted PATCH finalizes the entry. -/
theorem Open.accepted (h : Open earlier a log ledger) (kind : JournalKind)
    {comments : JournalComments} (hcomments : comments.result ≠ .inProgress) (cancelled : Bool) :
    Closed earlier a
      (log ++ [⟨.updateJournal a.entryId kind comments, ⟨.ok (), cancelled⟩⟩])
      { ledger with terminal := true } := by
  have hterminal : Terminal a.entryId
      (log ++ [⟨.updateJournal a.entryId kind comments, ⟨.ok (), cancelled⟩⟩]) := by
    refine ⟨comments, ?_, hcomments⟩
    rw [lastComments_append, commentsOn, if_pos rfl]
    rfl
  refine ⟨⟨h.anchored.append _, ?_, ?_, fun _ => hterminal⟩, fun _ => hterminal⟩
  · rw [← List.append_assoc]
    exact h.justified.append _
  · obtain ⟨entry, hentries, hread, hstray⟩ := h.entry
    refine ⟨entry, ?_, hread, ?_⟩
    · rw [createdEntries_append, hentries]
      rfl
    · intro hne
      rw [lastComments_append, commentsOn, if_neg (Ne.symm hne)]
      exact hstray hne

theorem Open.store (h : Open earlier a log ledger) {new : CachedResponse}
    (hnew : ∀ m, new.retry = some m → Sound (earlier ++ log) m) :
    Open earlier a log { ledger with cache := new.store ledger.cache } :=
  ⟨h.anchored, h.justified.store hnew, h.entry, h.terminal⟩

/-- The PATCH of an entry: either one is accepted in the end, or one was refused. -/
theorem update_rule {I J : Log → Ledger → Prop}
    (hsound : ∀ log ledger, I log ledger → Sound (earlier ++ log) m)
    (hrefused : ∀ kind comments e cancelled log ledger, I log ledger →
      I (log ++ [⟨.updateJournal m.entryId kind comments, ⟨.error e, cancelled⟩⟩]) ledger)
    (haccepted : ∀ kind, ∀ comments ∈ [m.comments, m.interruptedComments, m.failedComments],
      ∀ cancelled log ledger, I log ledger →
        J (log ++ [⟨.updateJournal m.entryId kind comments, ⟨.ok (), cancelled⟩⟩])
          { ledger with terminal := true }) :
    Step.Rule any (Safe earlier) I
      (updateJournalEntryResistantToCancellation m.entryId m.kind m.comments m.interruptedComments
        m.failedComments)
      fun log r ledger => match r with
        | .ok _ => J log ledger
        | .error _ => J log ledger ∨ I log ledger ∧ ¬PatchesAccepted log := by
  -- the second attempt, after one that was refused
  have hbest : ∀ comments ∈ [m.interruptedComments, m.failedComments], Step.Rule any (Safe earlier)
      (fun log ledger => I log ledger ∧ ¬PatchesAccepted log)
      (bestEffortMarkJournalTerminal m.entryId comments)
      fun log _ ledger => J log ledger ∨ I log ledger ∧ ¬PatchesAccepted log := by
    intro comments hmem
    have hmem' : comments ∈ [m.comments, m.interruptedComments, m.failedComments] :=
      List.mem_cons_of_mem _ hmem
    have hsafe : ∀ log ledger, I log ledger →
        Safe earlier log (.updateJournal m.entryId .warning comments) := by
      intro log ledger hI hsucceeds
      have hs := hsound log ledger hI
      rcases List.mem_cons.mp hmem with rfl | hmem
      · rw [hs.interrupted] at hsucceeds
        contradiction
      · rw [List.mem_singleton.mp hmem, hs.failed] at hsucceeds
        contradiction
    refine Step.Rule.bind (Step.Rule.request (fun log r ledger => match r with
        | ⟨.ok _, _⟩ => J log { ledger with terminal := true }
        | ⟨.error _, _⟩ => I log ledger ∧ ¬PatchesAccepted log)
      (fun log ledger h => hsafe log ledger h.1) ?_) ?_
    · rintro log ledger ⟨_ | _, cancelled⟩ ⟨hI, hrefusal⟩ _
      · refine ⟨hrefused _ _ _ _ log ledger hI, ?_⟩
        rw [patchesAccepted_append]
        exact fun h => hrefusal h.1
      · exact haccepted _ comments hmem' _ log ledger hI
    · rintro ⟨_ | _, cancelled⟩
      · exact Step.Rule.ret fun log ledger h => .inr h
      · exact Step.Rule.modify fun log ledger h => .inl h
  refine Step.Rule.bind (Step.Rule.request (fun log r ledger => match r with
      | ⟨.ok _, _⟩ => J log { ledger with terminal := true }
      | ⟨.error _, _⟩ => I log ledger ∧ ¬PatchesAccepted log) ?_ ?_) ?_
  · intro log ledger hI hsucceeds
    exact (hsound log ledger hI).comments hsucceeds
  · rintro log ledger ⟨e | _, cancelled⟩ hI _
    · refine ⟨hrefused _ _ _ _ log ledger hI, ?_⟩
      intro haccepts
      have := haccepts _ (List.mem_append_right _ (List.mem_singleton_self _))
      cases this
    · exact haccepted _ m.comments (by simp) _ log ledger hI
  · rintro ⟨e | _, cancelled⟩
    · dsimp only
      split
      · exact (hbest _ (by simp)).bind fun _ => Step.Rule.ret fun log ledger h => h
      · split
        · exact Step.Rule.ret fun log ledger h => .inr h
        · exact (hbest _ (by simp)).bind fun _ => Step.Rule.ret fun log ledger h => h
    · cases cancelled with
      | false =>
        exact Step.Rule.after (fun log _ ledger => J log ledger)
          (Step.Rule.modify fun log ledger h => h) fun _ => Step.Rule.ret fun log ledger h => h
      | true =>
        exact Step.Rule.after (fun log _ ledger => J log ledger)
          (Step.Rule.modify fun log ledger h => h) fun _ =>
            Step.Rule.ret fun log ledger h => .inl h

variable {o : Outcome}

/-- An outcome that is recorded as it happened. -/
theorem fine_retry (hok : o.result.succeeds = true → Returned a.verb log)
    (hresult : o.result ≠ .inProgress) : Fine log (a.retry o) :=
  ⟨⟨hok, rfl, rfl⟩, hresult, by simp [Audit.retry, Audit.comments],
    by simp [Audit.retry, Audit.comments]⟩

theorem finalize_rule : Step.Rule any (Safe earlier)
    (fun log ledger => Open earlier a log ledger ∧ Fine (earlier ++ log) (a.retry o))
    (finalizeJournalEntry (a.retry o))
    fun log r ledger => (Closed earlier a log ledger ∧ Fine (earlier ++ log) (a.retry o)) ∧
      Uncaught r := by
  apply Step.Rule.read
  intro ledger₀
  split
  · rename_i hterminal
    refine Step.Rule.ret ?_
    rintro log ledger ⟨⟨hopen, hfine⟩, rfl⟩
    exact ⟨⟨⟨hopen, fun _ => hopen.terminal hterminal⟩, hfine⟩, uncaught_ok _⟩
  · refine Step.Rule.bind ((update_rule (m := a.retry o)
      (I := fun log ledger => Open earlier a log ledger ∧ Fine (earlier ++ log) (a.retry o))
      (J := fun log ledger => Closed earlier a log ledger ∧ Fine (earlier ++ log) (a.retry o))
      ?_ ?_ ?_).mono (fun log ledger h => h.1) fun log r ledger h => h) ?_
    · exact fun log ledger h => h.2.toSound
    · intro kind comments e cancelled log ledger h
      refine ⟨h.1.refused kind comments e cancelled, ?_⟩
      rw [← List.append_assoc]
      exact h.2.append _
    · intro kind comments hmem cancelled log ledger h
      have hterminal : comments.result ≠ .inProgress := by
        obtain ⟨h₁, h₂, h₃⟩ := h.2.terminal
        simp only [List.mem_cons, List.not_mem_nil, or_false] at hmem
        rcases hmem with rfl | rfl | rfl
        · exact h₁
        · exact h₂
        · exact h₃
      refine ⟨h.1.accepted kind hterminal cancelled, ?_⟩
      rw [← List.append_assoc]
      exact h.2.append _
    · have hend : ∀ log ledger, (Closed earlier a log ledger ∧ Fine (earlier ++ log) (a.retry o)) ∨
          (Open earlier a log ledger ∧ Fine (earlier ++ log) (a.retry o)) ∧ ¬PatchesAccepted log →
          Closed earlier a log ledger ∧ Fine (earlier ++ log) (a.retry o) := by
        rintro log ledger (h | ⟨⟨hopen, hfine⟩, hrefused⟩)
        · exact h
        · exact ⟨⟨hopen, fun haccepted => absurd haccepted hrefused⟩, hfine⟩
      rintro (e | _)
      · dsimp only
        split
        · exact Step.Rule.ret fun log ledger h => ⟨hend log ledger h, uncaught_ok _⟩
        · rename_i hexception
          refine Step.Rule.ret fun log ledger h => ⟨hend log ledger h, ?_⟩
          rintro _ ⟨⟩
          exact Bool.eq_false_iff.mpr hexception
      · exact Step.Rule.ret fun log ledger h => ⟨h, uncaught_ok _⟩

theorem auditAndRespond_rule : Step.Rule any (Safe earlier)
    (fun log ledger => Open earlier a log ledger ∧
      (o.result.succeeds = true → Returned a.verb (earlier ++ log)) ∧ o.result ≠ .inProgress)
    (auditAndRespond a o) fun log r ledger => Closed earlier a log ledger ∧ Uncaught r := by
  refine Step.Rule.after (fun log _ ledger =>
    Open earlier a log ledger ∧ Fine (earlier ++ log) (a.retry o)) ?_ fun _ => ?_
  · apply Step.Rule.read
    intro ledger₀
    split
    · refine Step.Rule.ret ?_
      rintro log ledger ⟨⟨hopen, hok, hresult⟩, _⟩
      exact ⟨hopen, fine_retry hok hresult⟩
    · unfold storePendingJournalFinalizationCache
      split
      · refine Step.Rule.modify ?_
        rintro log ledger ⟨⟨hopen, hok, hresult⟩, _⟩
        have hfine := fine_retry (a := a) hok hresult
        refine ⟨hopen.store ?_, hfine⟩
        intro m hm
        cases hm
        exact hfine.toSound
      · refine Step.Rule.ret ?_
        rintro log ledger ⟨⟨hopen, hok, hresult⟩, _⟩
        exact ⟨hopen, fine_retry hok hresult⟩
  · refine Step.Rule.bind finalize_rule ?_
    rintro (e | finalized)
    · refine Step.Rule.ret fun log ledger h => ⟨h.1.1, ?_⟩
      rintro _ ⟨⟩
      exact h.2 e rfl
    · refine Step.Rule.after (fun log _ ledger => Closed earlier a log ledger) ?_ fun _ =>
        Step.Rule.ret fun log ledger h => ⟨h, uncaught_ok _⟩
      split
      · refine Step.Rule.modify ?_
        rintro log ledger ⟨⟨hclosed, hfine⟩, _⟩
        refine ⟨hclosed.toOpen.store ?_, hclosed.closed⟩
        intro m hm
        split at hm
        · cases hm
        · cases hm
          exact hfine.toSound
      · exact Step.Rule.ret fun log ledger h => h.1.1

/-- The audit of an outcome closes the entry. -/
theorem audit_rule : Step.Rule any (Safe earlier)
    (fun log ledger => Open earlier a log ledger ∧
      (o.result.succeeds = true → Returned a.verb (earlier ++ log)) ∧ o.result ≠ .inProgress)
    (auditAndRespond a o) fun log _ ledger => Closed earlier a log ledger :=
  auditAndRespond_rule.mono (fun _ _ h => h) fun _ _ _ h => h.1

theorem unexpected_rule (e : Exn) : Step.Rule any (Safe earlier)
    (fun log ledger => Open earlier a log ledger) (finalizeAfterUnexpectedDispatchError a e)
    fun log _ ledger => Closed earlier a log ledger := by
  apply Step.Rule.read
  intro ledger₀
  split
  · rename_i hterminal
    refine Step.Rule.ret ?_
    rintro log ledger ⟨hopen, rfl⟩
    exact ⟨hopen, fun _ => hopen.terminal hterminal⟩
  · have hfails : (unexpectedDispatchResult e).1.succeeds = false := by cases e <;> rfl
    have hterminal : (unexpectedDispatchResult e).1 ≠ .inProgress := by
      cases e <;> simp [unexpectedDispatchResult]
    refine Step.Rule.bind (audit_rule.mono ?_ fun log r ledger h => h) fun _ =>
      Step.Rule.ret fun log ledger h => h
    rintro log ledger ⟨hopen, _⟩
    refine ⟨hopen, fun hsucceeds => ?_, hterminal⟩
    exact absurd (hfails.symm.trans hsucceeds) Bool.false_ne_true

/-- An awaited call: a `ProxmoxAPIError` is left to the caller, any other exception is audited. -/
theorem await_rule {α : Type} {p : Handler (Except Exn α)} (known : Log → Except Exn α → Prop)
    (hp : Step.Rule any (Safe earlier) (fun log ledger => Open earlier a log ledger) p
      fun log r ledger => Open earlier a log ledger ∧ known log r) :
    Step.Rule any (Safe earlier) (fun log ledger => Open earlier a log ledger)
      (awaitWithInterruptionJournal a p) fun log r ledger => match r with
        | .ok v => Open earlier a log ledger ∧ known log (.ok v)
        | .error (.proxmoxApi message) =>
          Open earlier a log ledger ∧ known log (.error (.proxmoxApi message))
        | .error _ => Closed earlier a log ledger := by
  refine Step.Rule.bind hp ?_
  rintro (e | v)
  · cases e with
    | proxmoxApi message => exact Step.Rule.ret fun log ledger h => h
    | proxbox | exception | cancelled | fatal =>
      refine Step.Rule.bind ((unexpected_rule _).mono ?_ fun log r ledger h => h) fun _ =>
        Step.Rule.ret fun log ledger h => h
      exact fun log ledger h => h.1
  · exact Step.Rule.ret fun log ledger h => h

end Finalization

section Dispatches

variable {earlier : Log} {a : Audit} {allowedText : Json.Fields → String}

/-- A request that does not concern the journal. -/
theorem ask_rule (q : Request) (hcreated : ∀ r, created ⟨q, r⟩ = none)
    (hcomments : ∀ r id, commentsOn id ⟨q, r⟩ = none)
    (hsafe : ∀ log, Anchored log → Safe earlier log q) :
    Step.Rule any (Safe earlier) (fun log ledger => Open earlier a log ledger) (ask q)
      fun log r ledger => Open earlier a log ledger ∧ ⟨q, r⟩ ∈ log :=
  Step.Rule.request _ (fun log _ h => hsafe log h.anchored) fun _ _ r h _ =>
    ⟨h.quiet (hcreated r) (hcomments r), List.mem_append_right _ (List.mem_singleton_self _)⟩

theorem vmStatus_rule : Step.Rule any (Safe earlier) (fun log ledger => Open earlier a log ledger)
    (ask .vmStatus) fun log _ ledger => Open earlier a log ledger :=
  (ask_rule .vmStatus (fun _ => rfl) (fun _ _ => rfl) fun _ _ => trivial).mono (fun _ _ h => h)
    fun _ _ _ h => h.1

/-- The mutation of the verb. -/
theorem mutate_rule {m : Mutation} (hverb : m.verb = a.verb) :
    Step.Rule any (Safe earlier) (fun log ledger => Open earlier a log ledger) (ask (.mutate m))
      fun log r ledger => Open earlier a log ledger ∧
        ∀ upid, r = .ok upid → Returned a.verb (earlier ++ log) := by
  refine (ask_rule (.mutate m) (fun _ => rfl) (fun _ _ => rfl) fun _ h => h).mono
    (fun _ _ h => h) ?_
  rintro log r ledger ⟨hopen, hmem⟩
  refine ⟨hopen, ?_⟩
  rintro upid rfl
  exact ⟨m, upid, hverb, List.mem_append_right _ hmem⟩

/-- The audit of a failure that Proxmox reports. -/
theorem proxmoxFailed_rule {message reason : String} : Step.Rule any (Safe earlier)
    (fun log ledger => Open earlier a log ledger)
    (auditAndRespond a (proxmoxFailed message reason))
    fun log _ ledger => Closed earlier a log ledger :=
  audit_rule.mono (fun _ _ h => ⟨h, by simp [proxmoxFailed, Result.succeeds],
    by simp [proxmoxFailed]⟩) fun _ _ _ h => h

theorem dispatchAndRespond_rule {call : Handler (Except Exn (Option String))} {result : Result}
    {statusCode : ℕ} (hcall : Step.Rule any (Safe earlier)
      (fun log ledger => Open earlier a log ledger) call fun log r ledger =>
        Open earlier a log ledger ∧ ∀ upid, r = .ok upid → Returned a.verb (earlier ++ log))
    (hresult : result ≠ .inProgress) : Step.Rule any (Safe earlier)
      (fun log ledger => Open earlier a log ledger) (dispatchAndRespond a call result statusCode)
      fun log _ ledger => Closed earlier a log ledger := by
  refine Step.Rule.bind (await_rule (fun log r =>
    ∀ upid, r = .ok upid → Returned a.verb (earlier ++ log)) hcall) ?_
  rintro (e | upid)
  · cases e with
    | proxmoxApi message => exact proxmoxFailed_rule.mono (fun log ledger h => h.1) fun _ _ _ h => h
    | proxbox | exception | cancelled | fatal => exact Step.Rule.ret fun log ledger h => h
  · exact audit_rule.mono (fun log ledger h => ⟨h.1, fun _ => h.2 upid rfl, hresult⟩)
      fun log r ledger h => h

theorem dispatchUnless_rule {state : String} {already : Result} {m : Mutation}
    (hverb : m.verb = a.verb) (halready : already.succeeds = false ∧ already ≠ .inProgress) :
    Step.Rule any (Safe earlier) (fun log ledger => Open earlier a log ledger)
      (dispatchUnless a state already m) fun log _ ledger => Closed earlier a log ledger := by
  refine Step.Rule.bind (await_rule (fun _ _ => True) (vmStatus_rule.mono
    (fun _ _ h => h) fun _ _ _ h => ⟨h, trivial⟩)) ?_
  rintro (e | current)
  · cases e with
    | proxmoxApi message => exact proxmoxFailed_rule.mono (fun log ledger h => h.1) fun _ _ _ h => h
    | proxbox | exception | cancelled | fatal => exact Step.Rule.ret fun log ledger h => h
  · dsimp only
    split
    · refine audit_rule.mono (fun log ledger h => ⟨h.1, fun hsucceeds => ?_, halready.2⟩)
        fun log r ledger h => h
      exact absurd (halready.1.symm.trans hsucceeds) Bool.false_ne_true
    · exact (dispatchAndRespond_rule (mutate_rule hverb) (by simp)).mono (fun log ledger h => h.1)
        fun log r ledger h => h

/-- What is known of a preparation: its failures are audited, and it raises no `ProxmoxAPIError`. -/
def PreparedDelete (entryId : ℤ) (log : Log) : Except Exn (Option Response) → Prop
  | .ok none => True
  | .ok (some _) => PatchesAccepted log → Terminal entryId log
  | .error e => ∀ message, e ≠ .proxmoxApi message

/-- A failure before the deletion is audited and answered. -/
theorem prepareFailed_rule (message reason : String) : Step.Rule any (Safe earlier)
    (fun log ledger => Open earlier a log ledger)
    ((auditAndRespond a (proxmoxFailed message reason)).bind fun
      | .error e => Step.ret (.error e)
      | .ok response => Step.ret (.ok (some response)))
    fun log r ledger => Open earlier a log ledger ∧ PreparedDelete a.entryId log r := by
  refine Step.Rule.bind (auditAndRespond_rule.mono (fun _ _ h => ⟨h, by
    simp [proxmoxFailed, Result.succeeds], by simp [proxmoxFailed]⟩) fun _ _ _ h => h) ?_
  rintro (e | response)
  · refine Step.Rule.ret fun log ledger h => ⟨h.1.toOpen, ?_⟩
    rintro message rfl
    have := h.2 _ rfl
    cases this
  · exact Step.Rule.ret fun log ledger h => ⟨h.1.toOpen, h.1.closed⟩

/-- The preparation of a deletion may stop the VM, and audits its own failures. -/
theorem prepareDelete_rule : Step.Rule any (Safe earlier)
    (fun log ledger => Open earlier a log ledger) (prepareDeleteDispatch a)
    fun log r ledger => Open earlier a log ledger ∧ PreparedDelete a.entryId log r := by
  have hnone : Step.Rule any (Safe earlier) (fun log ledger => Open earlier a log ledger)
      (Step.ret (.ok none)) fun log r ledger =>
        Open earlier a log ledger ∧ PreparedDelete a.entryId log r :=
    Step.Rule.ret fun log ledger h => ⟨h, trivial⟩
  refine Step.Rule.bind vmStatus_rule ?_
  rintro (e | current)
  · cases e with
    | proxmoxApi message => exact prepareFailed_rule _ _
    | proxbox | exception | cancelled | fatal =>
      exact Step.Rule.ret fun log ledger h => ⟨h, fun message => by simp⟩
  · dsimp only
    split
    · exact hnone
    · refine Step.Rule.bind ((ask_rule (.mutate .stopVm) (fun _ => rfl) (fun _ _ => rfl)
        fun _ h => h).mono (fun _ _ h => h) fun _ _ _ h => h.1) ?_
      rintro (e | upid)
      · cases e with
        | proxmoxApi message => exact prepareFailed_rule _ _
        | proxbox | exception | cancelled | fatal =>
          exact Step.Rule.ret fun log ledger h => ⟨h, fun message => by simp⟩
      · exact hnone

theorem destroy_rule (hverb : a.verb = .delete) : Step.Rule any (Safe earlier)
    (fun log ledger => Open earlier a log ledger) (deleteVmViaIntentDispatcher a)
    fun log r ledger => Open earlier a log ledger ∧
      ∀ upid, r = .ok upid → Returned a.verb (earlier ++ log) := by
  have hraised : ∀ e, Step.Rule any (Safe earlier) (fun log ledger => Open earlier a log ledger)
      (Step.ret (.error e)) fun log (r : Except Exn (Option String)) ledger =>
        Open earlier a log ledger ∧
          ∀ upid, r = .ok upid → Returned a.verb (earlier ++ log) :=
    fun e => Step.Rule.ret fun log ledger h => ⟨h, fun v hv => by cases hv⟩
  refine Step.Rule.bind ((ask_rule (.endpoint a.endpoint.id) (fun _ => rfl) (fun _ _ => rfl)
    fun _ _ => trivial).mono (fun _ _ h => h) fun _ _ _ h => h.1) ?_
  rintro (e | found)
  · exact hraised _
  · dsimp only
    split
    · refine Step.Rule.bind ((ask_rule .proxmoxSession (fun _ => rfl) (fun _ _ => rfl)
        fun _ _ => trivial).mono (fun _ _ h => h) fun _ _ _ h => h.1) ?_
      rintro (e | _)
      · exact hraised _
      · refine Step.Rule.bind (mutate_rule (by rw [hverb]; rfl)) ?_
        rintro (e | upid)
        · exact (hraised _).mono (fun _ _ h => h.1) fun _ _ _ h => h
        · exact Step.Rule.ret fun log ledger h => ⟨h.1, fun _ _ => h.2 upid rfl⟩
    · exact hraised _

theorem dispatchDelete_rule (hverb : a.verb = .delete) : Step.Rule any (Safe earlier)
    (fun log ledger => Open earlier a log ledger) (dispatchDelete a)
    fun log _ ledger => Closed earlier a log ledger := by
  refine Step.Rule.bind (await_rule (PreparedDelete a.entryId) prepareDelete_rule) ?_
  rintro (e | _ | response)
  · cases e with
    | proxmoxApi message => exact Step.Rule.ret fun log ledger h => absurd rfl (h.2 message)
    | proxbox | exception | cancelled | fatal => exact Step.Rule.ret fun log ledger h => h
  · exact (dispatchAndRespond_rule (destroy_rule hverb) (by simp)).mono (fun log ledger h => h.1)
      fun log r ledger h => h
  · exact Step.Rule.ret fun log ledger h => ⟨h.1, h.2⟩

theorem dispatchMigrate_rule (hverb : a.verb = .migrate) (target : String) (online : Bool) :
    Step.Rule any (Safe earlier) (fun log ledger => Open earlier a log ledger)
      (dispatchMigrate allowedText a target online)
      fun log _ ledger => Closed earlier a log ledger := by
  refine Step.Rule.bind (await_rule (fun _ _ => True) ((ask_rule .migratePreflight (fun _ => rfl)
    (fun _ _ => rfl) fun _ _ => trivial).mono (fun _ _ h => h)
      fun _ _ _ h => ⟨h.1, trivial⟩)) ?_
  rintro (e | preflight)
  · cases e with
    | proxmoxApi message => exact proxmoxFailed_rule.mono (fun log ledger h => h.1) fun _ _ _ h => h
    | proxbox | exception | cancelled | fatal => exact Step.Rule.ret fun log ledger h => h
  · dsimp only
    split
    · exact audit_rule.mono (fun log ledger h => ⟨h.1, by simp [Result.succeeds], by simp⟩)
        fun log r ledger h => h
    · exact (dispatchAndRespond_rule (mutate_rule (by rw [hverb]; rfl)) (by simp)).mono
        (fun log ledger h => h.1) fun log r ledger h => h

/-- Every verb closes its write-ahead entry. -/
theorem dispatchCall_rule {inv : Invocation} (hverb : a.verb = inv.call.verb) :
    Step.Rule any (Safe earlier) (fun log ledger => Open earlier a log ledger)
      (dispatchCall allowedText inv a) fun log _ ledger => Closed earlier a log ledger := by
  unfold dispatchCall
  cases hcall : inv.call with
  | start => exact dispatchUnless_rule (by rw [hverb, hcall]; rfl) (by simp [Result.succeeds])
  | stop => exact dispatchUnless_rule (by rw [hverb, hcall]; rfl) (by simp [Result.succeeds])
  | reboot => exact dispatchUnless_rule (by rw [hverb, hcall]; rfl) (by simp [Result.succeeds])
  | delete => exact dispatchDelete_rule (by rw [hverb, hcall]; rfl)
  | snapshot | backup | deleteSnapshot =>
    exact dispatchAndRespond_rule (mutate_rule (by rw [hverb, hcall]; rfl)) (by simp)
  | migrate target online => exact dispatchMigrate_rule (by rw [hverb, hcall]; rfl) target online

end Dispatches

/-- The write-ahead entry is not created yet. -/
structure Fresh (earlier log : Log) (ledger : Ledger) : Prop where
  entries : createdEntries log = []
  justified : Justified (earlier ++ log) ledger.cache
  terminal : ledger.terminal = false

/-- What the audit says once the handler has ended. -/
structure Done (earlier log : Log) (ledger : Ledger) : Prop where
  justified : Justified (earlier ++ log) ledger.cache
  audited : PatchesAccepted log → (AuditedOnce log ↔ EntryRead log)

section Handlers

variable {earlier log : Log} {a : Audit} {ledger : Ledger} {inv : Invocation}
  {allowedText : Json.Fields → String}

theorem audited_iff_of_none (h : createdEntries log = []) : AuditedOnce log ↔ EntryRead log := by
  constructor
  · rintro ⟨entry, comments, hentries, _⟩
    rw [h] at hentries
    cases hentries
  · rintro ⟨entry, hmem, _⟩
    rw [h] at hmem
    cases hmem

theorem Fresh.done (h : Fresh earlier log ledger) : Done earlier log ledger :=
  ⟨h.justified, fun _ => audited_iff_of_none h.entries⟩

theorem Fresh.quiet (h : Fresh earlier log ledger) {x : Exchange} (hcreated : created x = none) :
    Fresh earlier (log ++ [x]) ledger := by
  refine ⟨?_, ?_, h.terminal⟩
  · rw [createdEntries_append, h.entries, createdEntries, List.filterMap_cons_none hcreated]
    rfl
  · rw [← List.append_assoc]
    exact h.justified.append _

/-- An entry whose last comments are still those of its creation is not audited. -/
theorem not_auditedOnce {entry : JournalEntry} {comments : JournalComments}
    (hentries : createdEntries log = [entry]) (hlast : lastComments entry.id log = some comments)
    (hresult : comments.result = .inProgress) : ¬AuditedOnce log := by
  rintro ⟨entry', comments', hentries', hlast', hresult'⟩
  rw [hentries] at hentries'
  cases hentries'
  rw [hlast] at hlast'
  cases hlast'
  exact hresult' hresult

theorem entryRead_iff {entry : JournalEntry} (hentries : createdEntries log = [entry]) :
    EntryRead log ↔ journalEntryId (writeVerbJournalEntry entry) = some entry.id := by
  simp [EntryRead, hentries]

theorem Closed.done (h : Closed earlier a log ledger) : Done earlier log ledger := by
  refine ⟨h.justified, fun haccepted => ?_⟩
  obtain ⟨entry, hentries, hread, hstray⟩ := h.entry
  rw [entryRead_iff hentries, hread, Option.some_inj]
  by_cases hid : entry.id = a.entryId
  · obtain ⟨comments, hlast, hresult⟩ := h.closed haccepted
    refine iff_of_true ⟨entry, comments, hentries, ?_, hresult⟩ hid.symm
    rw [hid, hlast]
  · obtain ⟨comments, hlast, hresult⟩ := hstray hid
    exact iff_of_false (not_auditedOnce hentries hlast hresult) (Ne.symm hid)

/-- A request before the journal is written. -/
theorem fresh_rule (q : Request) (hcreated : ∀ r, created ⟨q, r⟩ = none)
    (hsafe : ∀ log, Safe earlier log q) :
    Step.Rule any (Safe earlier) (fun log ledger => Fresh earlier log ledger) (ask q)
      fun log r ledger => Fresh earlier log ledger ∧ ⟨q, r⟩ ∈ log :=
  Step.Rule.request _ (fun log _ _ => hsafe log) fun _ _ r h _ =>
    ⟨h.quiet (hcreated r), List.mem_append_right _ (List.mem_singleton_self _)⟩

/-- An answer before the journal is written. -/
theorem answer_rule {r : Except Exn Response} : Step.Rule any (Safe earlier)
    (fun log ledger => Fresh earlier log ledger) (Step.ret r)
    fun log _ ledger => Done earlier log ledger :=
  Step.Rule.ret fun _ _ h => h.done

/-- The entry that is written ahead is open, if its id can be read. -/
theorem createJournal_rule {endpoint : Endpoint} {vmId : ℤ} : Step.Rule any (Safe earlier)
    (fun log ledger => Fresh earlier log ledger ∧ (⟨.resolveVm, .ok (some vmId)⟩ : Exchange) ∈ log)
    (ask (.createJournal vmId .info ((Audit.comments ⟨inv.call.verb, inv.actor, endpoint,
      inv.dispatchedAt, inv.idempotencyKey, 0⟩) .inProgress none none)))
    fun log r ledger => match r with
    | ⟨.ok entry, _⟩ => match journalEntryId (writeVerbJournalEntry entry) with
      | none => Done earlier log ledger
      | some entryId => Open earlier ⟨inv.call.verb, inv.actor, endpoint, inv.dispatchedAt,
          inv.idempotencyKey, entryId⟩ log ledger
    | ⟨.error _, _⟩ => Done earlier log ledger := by
  refine Step.Rule.request _ ?_ ?_
  · refine fun log ledger h => ⟨h.2, fun hsucceeds => ?_⟩
    cases hsucceeds
  · rintro log ledger ⟨e | entry, cancelled⟩ ⟨hfresh, hresolve⟩ _
    · exact (hfresh.quiet rfl).done
    · generalize hx : (⟨.createJournal vmId .info _, ⟨.ok entry, cancelled⟩⟩ : Exchange) = x
      have hentries : createdEntries (log ++ [x]) = [entry] := by
        rw [createdEntries_append, hfresh.entries, ← hx]
        rfl
      have hlast : ∃ comments, lastComments entry.id (log ++ [x]) = some comments ∧
          comments.result = .inProgress := by
        rw [lastComments_append, ← hx, commentsOn, if_pos rfl]
        exact ⟨_, rfl, rfl⟩
      have hjustified : Justified (earlier ++ (log ++ [x])) ledger.cache := by
        rw [← List.append_assoc]
        exact hfresh.justified.append _
      dsimp only
      split
      · rename_i hread
        obtain ⟨comments, hlast, hresult⟩ := hlast
        refine ⟨hjustified, fun _ => iff_of_false (not_auditedOnce hentries hlast hresult) ?_⟩
        rw [entryRead_iff hentries, hread]
        simp
      · rename_i entryId hread
        refine ⟨?_, hjustified, ⟨entry, hentries, hread, fun _ => hlast⟩, ?_⟩
        · have hmem : x ∈ log ++ [x] := List.mem_append_right _ (List.mem_singleton_self _)
          rw [← hx] at hmem ⊢
          exact ⟨vmId, _, _, entry, cancelled, List.mem_append_left _ hresolve, hmem⟩
        · intro hterminal
          rw [hfresh.terminal] at hterminal
          cases hterminal

/-- The write-ahead entry is there for a verb to go on. -/
theorem writeahead_rule {endpoint : Endpoint} {vmId : ℤ} : Step.Rule any (Safe earlier)
    (fun log ledger => Fresh earlier log ledger ∧ (⟨.resolveVm, .ok (some vmId)⟩ : Exchange) ∈ log)
    (createWriteaheadJournalOrError inv endpoint vmId)
    fun log r ledger => match r with
      | .ok (.entry a) => Open earlier a log ledger ∧ a.verb = inv.call.verb
      | _ => Done earlier log ledger := by
  unfold createWriteaheadJournalOrError
  refine Step.Rule.bind createJournal_rule ?_
  rintro ⟨e | entry, cancelled⟩
  · dsimp only
    split
    · exact Step.Rule.ret fun log ledger h => h
    · split
      · exact Step.Rule.ret fun log ledger h => h
      · exact Step.Rule.ret fun log ledger h => h
  · dsimp only
    cases journalEntryId (writeVerbJournalEntry entry) with
    | none =>
      dsimp only
      split
      · exact Step.Rule.ret fun log ledger h => h
      · exact Step.Rule.ret fun log ledger h => h
    | some entryId =>
      dsimp only
      split
      · exact (unexpected_rule _).bind fun _ => Step.Rule.ret fun log ledger h => h.done
      · exact Step.Rule.ret fun log ledger h => ⟨h, rfl⟩

theorem prepare_rule {endpoint : Endpoint} : Step.Rule any (Safe earlier)
    (fun log ledger => Fresh earlier log ledger) (prepare inv endpoint)
    fun log r ledger => match r with
      | .ok (.entry a) => Open earlier a log ledger ∧ a.verb = inv.call.verb
      | _ => Done earlier log ledger := by
  have hend : ∀ r : Except Exn Prepared, (∀ a, r ≠ .ok (.entry a)) → Step.Rule any (Safe earlier)
      (fun log ledger => Fresh earlier log ledger) (Step.ret r)
      fun log r ledger => match r with
        | .ok (.entry a) => Open earlier a log ledger ∧ a.verb = inv.call.verb
        | _ => Done earlier log ledger := by
    intro r hr
    refine Step.Rule.ret fun log ledger h => ?_
    split
    · exact absurd rfl (hr _)
    · exact h.done
  refine Step.Rule.bind ((fresh_rule .proxmoxSession (fun _ => rfl) fun _ => trivial).mono
    (fun _ _ h => h) fun _ _ _ h => h.1) ?_
  rintro (e | _)
  · dsimp only
    split
    · exact hend _ (by simp)
    · exact hend _ (by simp)
  · refine Step.Rule.bind ((fresh_rule .clusterResources (fun _ => rfl) fun _ => trivial).mono
      (fun _ _ h => h) fun _ _ _ h => h.1) ?_
    rintro (e | resources)
    · cases e with
      | proxmoxApi | proxbox | exception | cancelled | fatal => exact hend _ (by simp)
    · dsimp only
      split
      · exact hend _ (by simp)
      · refine Step.Rule.bind (fresh_rule .resolveVm (fun _ => rfl) fun _ => trivial) ?_
        rintro (e | _ | vmId)
        · dsimp only
          split
          · exact (hend _ (by simp)).mono (fun _ _ h => h.1) fun _ _ _ h => h
          · exact (hend _ (by simp)).mono (fun _ _ h => h.1) fun _ _ _ h => h
        · exact (hend _ (by simp)).mono (fun _ _ h => h.1) fun _ _ _ h => h
        · exact writeahead_rule

/-- A cached answer creates no entry, and may finalize the entry of an earlier request. -/
theorem cached_rule {cached : CachedResponse} : Step.Rule any (Safe earlier)
    (fun log ledger => Fresh earlier log ledger ∧ ledger.cache = some cached)
    (cachedIdempotencyResponse cached) fun log _ ledger => Done earlier log ledger := by
  have hanswer : Step.Rule any (Safe earlier)
      (fun log ledger => Fresh earlier log ledger ∧ ledger.cache = some cached)
      (Step.ret (.ok cached.response))
      fun log (_ : Except Exn Response) ledger => Done earlier log ledger :=
    Step.Rule.ret fun log ledger h => h.1.done
  unfold cachedIdempotencyResponse
  cases hretry : cached.retry with
  | none => exact hanswer
  | some m =>
    dsimp only
    split
    · exact hanswer
    · let I : Log → Ledger → Prop := fun log ledger => createdEntries log = [] ∧
        Justified (earlier ++ log) ledger.cache ∧ Sound (earlier ++ log) m
      have hquiet : ∀ x log ledger terminal, created x = none → I log ledger →
          I (log ++ [x]) { ledger with terminal := terminal } := by
        rintro x log ledger terminal hcreated ⟨hentries, hjustified, hsound⟩
        refine ⟨?_, ?_, ?_⟩
        · rw [createdEntries_append, hentries, createdEntries, List.filterMap_cons_none hcreated]
          rfl
        · rw [← List.append_assoc]
          exact hjustified.append _
        · rw [← List.append_assoc]
          exact hsound.append _
      have hdone : ∀ log ledger, I log ledger → Done earlier log ledger :=
        fun log ledger h => ⟨h.2.1, fun _ => audited_iff_of_none h.1⟩
      have hstore : ∀ new, (∀ m', new.retry = some m' → m' = m) → Step.Rule any (Safe earlier) I
          (storeCached new) fun log _ ledger => Done earlier log ledger := by
        intro new hnew
        refine Step.Rule.modify fun log ledger h => hdone _ _ ⟨h.1, h.2.1.store ?_, h.2.2⟩
        intro m' hm'
        rw [hnew m' hm']
        exact h.2.2
      have hupdate : Step.Rule any (Safe earlier) I
          (updateJournalEntryResistantToCancellation m.entryId m.kind m.comments
            m.interruptedComments m.failedComments) fun log _ ledger => I log ledger := by
        refine (update_rule (m := m) (I := I) (J := I) ?_ ?_ ?_).mono (fun _ _ h => h) ?_
        · exact fun log ledger h => h.2.2
        · exact fun kind comments e cancelled log ledger h => hquiet _ log ledger _ rfl h
        · exact fun kind comments _ cancelled log ledger h => hquiet _ log ledger true rfl h
        · rintro log (e | _) ledger h
          · exact h.elim id And.left
          · exact h
      refine Step.Rule.after (fun log _ ledger => I log ledger) ?_ ?_
      · refine Step.Rule.bind (hupdate.mono ?_ fun _ _ _ h => h) ?_
        · rintro log ledger ⟨hfresh, hcache⟩
          exact ⟨hfresh.entries, hfresh.justified, hfresh.justified cached hcache m hretry⟩
        · rintro (e | _)
          · dsimp only
            split
            · exact Step.Rule.ret fun log ledger h => h
            · exact Step.Rule.ret fun log ledger h => h
          · exact Step.Rule.ret fun log ledger h => h
      · rintro (e | _ | _)
        · exact Step.Rule.ret fun log ledger h => hdone log ledger h
        · exact (hstore _ (by simp [eq_comm])).bind fun _ => Step.Rule.ret fun log ledger h => h
        · exact (hstore _ (by simp)).bind fun _ => Step.Rule.ret fun log ledger h => h

theorem dispatch_rule {endpoint : Endpoint} : Step.Rule any (Safe earlier)
    (fun log ledger => Fresh earlier log ledger) (dispatch allowedText inv endpoint)
    fun log _ ledger => Done earlier log ledger := by
  apply Step.Rule.read
  intro ledger₀
  split
  · rename_i cached hcached
    refine cached_rule.mono ?_ fun _ _ _ h => h
    rintro log ledger ⟨hfresh, rfl⟩
    refine ⟨hfresh, ?_⟩
    split at hcached
    · exact hcached
    · cases hcached
  · refine Step.Rule.bind (prepare_rule.mono (fun _ _ h => h.1) fun _ _ _ h => h) ?_
    rintro (e | response | a)
    · exact Step.Rule.ret fun log ledger h => h
    · refine Step.Rule.of_pre ?_
      rintro log ledger ⟨hopen, hverb⟩
      refine (dispatchCall_rule hverb).mono ?_ fun _ _ _ h => h.done
      rintro log' ledger' ⟨rfl, rfl⟩
      exact hopen
    · exact Step.Rule.ret fun log ledger h => h

theorem handle_rule : Step.Rule any (Safe earlier) (fun log ledger => Fresh earlier log ledger)
    (handle allowedText inv) fun log _ ledger => Done earlier log ledger := by
  refine Step.Rule.after (fun log _ ledger => Fresh earlier log ledger) ?_ ?_
  · unfold gate
    cases inv.endpointId with
    | none => exact Step.Rule.ret fun log ledger h => h
    | some id =>
      refine Step.Rule.bind ((fresh_rule (.endpoint id) (fun _ => rfl) fun _ => trivial).mono
        (fun _ _ h => h) fun _ _ _ h => h.1) ?_
      rintro (e | _ | endpoint)
      · exact Step.Rule.ret fun log ledger h => h
      · exact Step.Rule.ret fun log ledger h => h
      · dsimp only
        split
        · exact Step.Rule.ret fun log ledger h => h
        · exact Step.Rule.ret fun log ledger h => h
  · rintro (e | response | endpoint)
    · exact answer_rule
    · exact answer_rule
    · dsimp only
      split
      · exact answer_rule
      · refine Step.Rule.bind ((fresh_rule .netboxSession (fun _ => rfl) fun _ => trivial).mono
          (fun _ _ h => h) fun _ _ _ h => h.1) ?_
        rintro (e | _)
        · dsimp only
          split
          · exact answer_rule
          · exact answer_rule
        · dsimp only
          split
          · refine Step.Rule.bind ((fresh_rule .singleFlight (fun _ => rfl)
              fun _ => trivial).mono (fun _ _ h => h) fun _ _ _ h => h.1) ?_
            rintro (e | _)
            · exact answer_rule
            · exact dispatch_rule
          · exact dispatch_rule

/-- What the requests of a key leave in the cache is sound. -/
theorem Served.justified {cache : Option CachedResponse} (h : Served allowedText log cache) :
    Justified log cache := by
  induction h with
  | start => exact fun cached hcached => by cases hcached
  | expire _ _ => exact fun cached hcached => by cases hcached
  | serve _ hrun ih =>
    have hend := Prog.Always.of_runs (handle_rule _ _ ⟨rfl, by rwa [List.append_nil], rfl⟩) hrun
      fun _ _ => trivial
    exact hend.justified

end Handlers

/-- Write-ahead audit.  Each mutation has its journal entry, a success is recorded after its
mutation has returned, and at the end one entry with a terminal result was created just if NetBox
created one whose id the handler could read. -/
theorem handle_audits {allowedText : Json.Fields → String} {earlier : Log}
    {cache : Option CachedResponse} (h : Served allowedText earlier cache) (inv : Invocation) :
    (handle allowedText inv ⟨false, cache⟩).Always any (Safe earlier)
      (fun log _ => PatchesAccepted log → (AuditedOnce log ↔ EntryRead log)) [] :=
  (handle_rule [] ⟨false, cache⟩ ⟨rfl, by rw [List.append_nil]; exact h.justified, rfl⟩).mono
    fun _ _ hdone => hdone.audited

/-- The start of VM 101 on an endpoint. -/
def startCall : Invocation :=
  ⟨.start, 101, some 1, none, "alice", "2026-01-01T00:00:00Z", "20260101-000000"⟩

theorem handle_audits_start : (handle (fun _ => "") startCall ⟨false, none⟩).Always any (Safe [])
    (fun log _ => PatchesAccepted log → (AuditedOnce log ↔ EntryRead log)) [] :=
  handle_audits .start startCall

/-- A journal entry as NetBox answers it, with its fields at the top of the object. -/
def startEntry : JournalEntry :=
  ⟨789, [("assigned_object_type", .str "virtualization.virtualmachine"),
    ("assigned_object_id", .int 7), ("kind", .str "info")]⟩

def startLog : Log :=
  [⟨.endpoint 1, .ok (some ⟨1, "pve", true⟩)⟩, ⟨.netboxSession, .ok ()⟩,
    ⟨.proxmoxSession, .ok ()⟩, ⟨.clusterResources, .ok [⟨some 101, some "node1"⟩]⟩,
    ⟨.resolveVm, .ok (some 7)⟩,
    ⟨.createJournal 7 .info ⟨.start, "alice", .inProgress, "pve", 1, "2026-01-01T00:00:00Z", none,
      none, none⟩, ⟨.ok startEntry, false⟩⟩]

/-- The id of the entry is looked for under `data`: the VM is not started, and the entry stays in
progress. -/
theorem start_leaves_inProgress : ∃ ledger,
    (handle (fun _ => "") startCall ⟨false, none⟩).Runs startLog
      (.ok writeaheadJournalFailureResponse, ledger) ∧
    PatchesAccepted startLog ∧ createdEntries startLog = [startEntry] ∧
      (lastComments 789 startLog).map JournalComments.result = some .inProgress ∧
      ¬AuditedOnce startLog := by
  refine ⟨⟨false, none⟩, ?_, ?_, rfl, rfl, not_auditedOnce rfl rfl rfl⟩
  · exact .ask _ (.ask _ (.ask _ (.ask _ (.ask _ (.ask _ (.ret _))))))
  · unfold PatchesAccepted
    decide

end ProxboxApi.Verbs
