import ProxboxApi.Runs

/-! The requests of one `CacheKey` (endpoint, verb, vmid, Idempotency-Key) on the
idempotency cache: the entry of the key, its single flight, and the handlers that share
them.  The cache mutex is never held across an await, so each use of the cache is one step.
-/

namespace ProxboxApi.Idempotency

/-- `TTL_SECONDS`. -/
def ttlSeconds : ℕ := 60

/-- What a retry of the journal finalization needs to know of the answer it completes. -/
structure RetryMetadata where
  terminalStatusCode : ℕ
  deriving DecidableEq, Repr

/-- A stored answer: its status, its `journal_finalized` mark and the retry metadata. -/
structure CachedResponse where
  statusCode : ℕ
  journalFinalized : Bool
  journalFinalization : Option RetryMetadata
  deriving DecidableEq, Repr

def CachedResponse.unfinalized (r : CachedResponse) : Bool :=
  r.journalFinalization.isSome || !r.journalFinalized

structure Entry where
  response : CachedResponse
  expiresAt : ℕ
  deriving DecidableEq, Repr

/-- `_prune`, at the one key. -/
def prune (now : ℕ) : Option Entry → Option Entry
  | some e => if e.expiresAt ≤ now then none else some e
  | none => none

/-- The entry stored before the journal PATCH of an answer with status `code`. -/
def pendingAnswer (code : ℕ) : CachedResponse := ⟨502, false, some ⟨code⟩⟩

/-- The entry stored after the journal PATCH of an answer with status `code`. -/
def finalAnswer (code : ℕ) (patched : Bool) : CachedResponse :=
  if patched then ⟨code, true, none⟩
  else ⟨if 400 ≤ code then code else 502, false, some ⟨code⟩⟩

/-- The entry stored after a cached answer's journal PATCH was tried again. -/
def retriedAnswer (code terminal : ℕ) (patched : Bool) : CachedResponse :=
  if patched then ⟨terminal, true, none⟩ else ⟨code, false, some ⟨terminal⟩⟩

/-- The await a request is suspended at. -/
inductive Phase where
  | queued
  | preparing
  | checking
  | dispatching
  | interrupted
  | recovering
  | finalizing (code : ℕ)
  | retrying (code terminal : ℕ)
  | draining
  | cleaning
  | done
  deriving DecidableEq, Repr

/-- How the await ends. -/
inductive Event where
  | refused
  | ready
  | noop
  | go
  | apiError
  | task
  | interrupted
  | started
  | patched (ok : Bool)
  | cancelled
  | drained
  deriving DecidableEq, Repr

/-- What the handler does before it is suspended again. -/
structure Action where
  next : Phase
  stored : Option CachedResponse := none
  dispatches : Bool := false
  deriving DecidableEq, Repr

/-- A verb handler between two awaits.  An exception of the Proxmox calls other than
`ProxmoxAPIError`, a cancellation among them, starts the shielded task which audits it; a
cancellation of the journal PATCH waits for the PATCH and stores nothing. -/
def resume : Phase → Event → Option Action
  | .queued, .cancelled => some { next := .cleaning }
  | .preparing, .refused => some { next := .cleaning }
  | .preparing, .ready => some { next := .checking }
  | .preparing, .interrupted => some { next := .interrupted }
  | .checking, .apiError => some { next := .finalizing 502, stored := pendingAnswer 502 }
  | .checking, .noop => some { next := .finalizing 200, stored := pendingAnswer 200 }
  | .checking, .go => some { next := .dispatching, dispatches := true }
  | .checking, .interrupted => some { next := .interrupted }
  | .dispatching, .task => some { next := .finalizing 200, stored := pendingAnswer 200 }
  | .dispatching, .apiError => some { next := .finalizing 502, stored := pendingAnswer 502 }
  | .dispatching, .interrupted => some { next := .interrupted }
  | .interrupted, .started => some { next := .recovering, stored := pendingAnswer 500 }
  | .recovering, .patched ok => some { next := .cleaning, stored := finalAnswer 500 ok }
  | .finalizing code, .patched ok => some { next := .cleaning, stored := finalAnswer code ok }
  | .finalizing _, .cancelled => some { next := .draining }
  | .retrying code terminal, .patched ok =>
    some { next := .cleaning, stored := retriedAnswer code terminal ok }
  | .retrying _ _, .cancelled => some { next := .draining }
  | .draining, .drained => some { next := .cleaning }
  | _, _ => none

/-- What the handler does with the outcome of `get_entry`. -/
def lookup : Option Entry → Phase
  | none => .preparing
  | some e => match e.response.journalFinalized, e.response.journalFinalization with
    | false, some m => .retrying e.response.statusCode m.terminalStatusCode
    | _, _ => .cleaning

/-- The request still counts as a user of its flight. -/
def Phase.live : Phase → Bool
  | .done => false
  | _ => true

/-- The request holds the lock of its flight. -/
def Phase.holding : Phase → Bool
  | .queued | .cleaning | .done => false
  | _ => true

/-- The lookup missed and nothing has been stored since. -/
def Phase.missed : Phase → Bool
  | .preparing | .checking | .dispatching | .interrupted => true
  | _ => false

/-- The lookup missed and the verb has not been dispatched. -/
def Phase.early : Phase → Bool
  | .preparing | .checking => true
  | _ => false

/-- The verb may have been dispatched and its answer is not yet stored. -/
def Phase.undecided : Phase → Bool
  | .dispatching | .interrupted => true
  | _ => false

theorem Phase.missed.holding {p : Phase} (h : p.missed = true) : p.holding = true := by
  cases p <;> simp_all [Phase.missed, Phase.holding]

theorem Phase.early.missed {p : Phase} (h : p.early = true) : p.missed = true := by
  cases p <;> simp_all [Phase.missed, Phase.early]

theorem Phase.undecided.missed {p : Phase} (h : p.undecided = true) : p.missed = true := by
  cases p <;> simp_all [Phase.missed, Phase.undecided]

theorem Phase.holding.live {p : Phase} (h : p.holding = true) : p.live = true := by
  cases p <;> simp_all [Phase.live, Phase.holding]

/-- All that one resumption can do. -/
structure Resumes (p : Phase) (a : Action) : Prop where
  live : p.live = true ∧ a.next.live = true
  holding : a.next.holding = true → p.holding = true
  stored : a.stored.isSome = true → p.holding = true ∧ a.next.missed = false
  missed : a.next.missed = true → p.missed = true
  early : a.next.early = true → p.early = true ∧ a.dispatches = false
  dispatches : a.dispatches = true →
    p.early = true ∧ a.next.undecided = true ∧ a.stored.isSome = false
  undecided : p.undecided = true → a.next.undecided = true ∨ a.stored.isSome = true

theorem resume_cases {p : Phase} {e : Event} {a : Action} (h : resume p e = some a) :
    Resumes p a := by
  unfold resume at h
  split at h <;> cases h <;> constructor <;>
    simp [Phase.live, Phase.holding, Phase.missed, Phase.early, Phase.undecided]

/-- `_Flight`: the users of the keyed lock and the request that holds it. -/
structure Flight where
  users : ℕ
  holder : Option ℕ
  deriving DecidableEq, Repr

/-- A request: its reference to a flight object and the await it is suspended at. -/
structure Caller where
  flight : ℕ
  phase : Phase
  deriving DecidableEq, Repr

/-- `flights` are the flight objects made so far and `slot` the one in `_flights`;
`storedUntil` is the expiry of the last answer stored, kept after its entry is pruned. -/
structure World where
  now : ℕ
  entry : Option Entry
  storedUntil : Option ℕ
  flights : List Flight
  slot : Option ℕ
  callers : List Caller
  firstAt : Option ℕ
  dispatched : ℕ
  deriving DecidableEq, Repr

def World.initial (now : ℕ) : World :=
  { now, entry := none, storedUntil := none, flights := [], slot := none, callers := [],
    firstAt := none, dispatched := 0 }

variable (ttl : ℕ)

/-- `IdempotencyCache.store`: a finalized answer is not replaced by an unfinalized one. -/
def World.store (w : World) (r : CachedResponse) : World :=
  let put := { w with
    entry := some ⟨r, w.now + ttl⟩
    storedUntil := some (w.now + ttl) }
  match w.entry with
  | some e => if !e.response.unfinalized && r.unfinalized then w else put
  | none => put

/-- The pruning and the flight look-up that open `single_flight`. -/
def World.enter (w : World) : World :=
  let w := { w with
    entry := prune w.now w.entry
    firstAt := some (w.firstAt.getD w.now) }
  match w.slot with
  | some f => { w with
    flights := w.flights.modify f fun fl => { fl with users := fl.users + 1 }
    callers := w.callers ++ [⟨f, .queued⟩] }
  | none => { w with
    flights := w.flights ++ [⟨1, none⟩]
    slot := some w.flights.length
    callers := w.callers ++ [⟨w.flights.length, .queued⟩] }

theorem World.enter_none {w : World} (hs : w.slot = none) : w.enter = { w with
    entry := prune w.now w.entry
    firstAt := some (w.firstAt.getD w.now)
    flights := w.flights ++ [⟨1, none⟩]
    slot := some w.flights.length
    callers := w.callers ++ [⟨w.flights.length, .queued⟩] } := by
  simp [World.enter, hs]

theorem World.enter_some {w : World} {f : ℕ} (hs : w.slot = some f) : w.enter = { w with
    entry := prune w.now w.entry
    firstAt := some (w.firstAt.getD w.now)
    flights := w.flights.modify f fun fl => { fl with users := fl.users + 1 }
    callers := w.callers ++ [⟨f, .queued⟩] } := by
  simp [World.enter, hs]

def World.setLock (w : World) (f : ℕ) (holder : Option ℕ) : World :=
  { w with flights := w.flights.modify f fun fl => { fl with holder } }

/-- `_release_single_flight`. -/
def World.release (w : World) (f : ℕ) : World :=
  let w := { w with flights := w.flights.modify f fun fl => { fl with users := fl.users - 1 } }
  match w.flights[f]? with
  | some fl => if fl.users = 0 ∧ w.slot = some f then { w with slot := none } else w
  | none => w

theorem World.release_eq {w : World} {f : ℕ} {fl : Flight} (hfl : w.flights[f]? = some fl) :
    w.release f = { w with
      flights := w.flights.modify f fun fl => { fl with users := fl.users - 1 }
      slot := if fl.users - 1 = 0 ∧ w.slot = some f then none else w.slot } := by
  simp only [World.release, List.getElem?_modify, hfl]
  by_cases h : fl.users - 1 = 0 ∧ w.slot = some f <;> simp [h]

def World.setCaller (w : World) (i : ℕ) (t : Caller) : World :=
  { w with callers := w.callers.set i t }

/-- What a resumed request stores. -/
def World.storeOpt (w : World) : Option CachedResponse → World
  | some r => w.store ttl r
  | none => w

inductive Label where
  | enter
  | acquire (i : ℕ)
  | resume (i : ℕ) (e : Event)
  | cleanup (i : ℕ)
  | tick (d : ℕ)
  deriving DecidableEq, Repr

/-- One request runs from the await it is suspended at to its next one, or time passes.
The keyed lock is taken together with the lookup and released with the last store. -/
def step (w : World) : Label → Option World
  | .enter => some w.enter
  | .acquire i => match w.callers[i]? with
    | some ⟨f, .queued⟩ => match w.flights[f]? with
      | some ⟨_, none⟩ =>
        let entry := prune w.now w.entry
        let p := lookup entry
        let w := { w with entry }.setCaller i ⟨f, p⟩
        some (if p.holding then w.setLock f (some i) else w)
      | _ => none
    | _ => none
  | .resume i e => match w.callers[i]? with
    | some ⟨f, p⟩ => match resume p e with
      | some a =>
        let w := { w.storeOpt ttl a.stored with
          dispatched := w.dispatched + if a.dispatches then 1 else 0 }.setCaller i ⟨f, a.next⟩
        some (if p.holding && !a.next.holding then w.setLock f none else w)
      | none => none
    | none => none
  | .cleanup i => match w.callers[i]? with
    | some ⟨f, .cleaning⟩ => some ((w.setCaller i ⟨f, .done⟩).release f)
    | _ => none
  | .tick d => some { w with now := w.now + d }

/-- The flight in the dictionary is the one of every live request and counts them; the
lock names the request that holds it. -/
structure Exclusive (w : World) : Prop where
  slot : ∀ (i : ℕ) (t : Caller), w.callers[i]? = some t → t.phase.live = true → w.slot = some t.flight
  users : ∀ (f : ℕ), w.slot = some f → ∃ fl : Flight, w.flights[f]? = some fl ∧
    fl.users = w.callers.countP fun t => t.phase.live
  holder : ∀ (i : ℕ) (t : Caller), w.callers[i]? = some t → t.phase.holding = true →
    ∃ fl : Flight, w.flights[t.flight]? = some fl ∧ fl.holder = some i

theorem exclusive_initial (now : ℕ) : Exclusive (World.initial now) := by
  constructor <;> simp [World.initial]

theorem Exclusive.single {w : World} (hw : Exclusive w) {i j : ℕ} {t u : Caller}
    (hi : w.callers[i]? = some t) (hj : w.callers[j]? = some u) (ht : t.phase.holding = true)
    (hu : u.phase.holding = true) : i = j := by
  have hst := hw.slot i t hi (Phase.holding.live ht)
  have hsu := hw.slot j u hj (Phase.holding.live hu)
  have hf : t.flight = u.flight := Option.some.inj (hst.symm.trans hsu)
  obtain ⟨fl, hfl, hli⟩ := hw.holder i t hi ht
  obtain ⟨fl', hfl', hlj⟩ := hw.holder j u hj hu
  rw [← hf, hfl] at hfl'
  cases hfl'
  exact Option.some.inj (hli.symm.trans hlj)

theorem Exclusive.enter {w : World} (hw : Exclusive w) : Exclusive w.enter := by
  have hold : ∀ {f j : ℕ} {t : Caller}, (w.callers ++ [⟨f, .queued⟩])[j]? = some t →
      t = ⟨f, .queued⟩ ∨ w.callers[j]? = some t := by
    intro f j t hj
    rcases Runs.party_concat hj with ⟨-, rfl⟩ | ⟨-, hj⟩
    · exact Or.inl rfl
    · exact Or.inr hj
  cases hs : w.slot with
  | none =>
    rw [World.enter_none hs]
    have hdead : ∀ (i : ℕ) (t : Caller), w.callers[i]? = some t → t.phase.live = false := by
      intro i t hi
      by_contra hl
      have := hw.slot i t hi (by simpa using hl)
      simp [hs] at this
    refine ⟨?_, ?_, ?_⟩
    · intro i t hi hl
      rcases hold hi with rfl | hi
      · rfl
      · simp [hdead i t hi] at hl
    · intro f hf
      cases hf
      refine ⟨⟨1, none⟩, by simp, ?_⟩
      have h0 : w.callers.countP (fun t => t.phase.live) = 0 := by
        rw [List.countP_eq_zero]
        intro t ht
        obtain ⟨i, hi⟩ := List.mem_iff_getElem?.mp ht
        simp [hdead i t hi]
      rw [List.countP_append, h0]
      rfl
    · intro i t hi hh
      rcases hold hi with rfl | hi
      · simp [Phase.holding] at hh
      · have hl := Phase.holding.live hh
        simp [hdead i t hi] at hl
  | some g =>
    rw [World.enter_some hs]
    obtain ⟨fl, hfl, hcount⟩ := hw.users g hs
    refine ⟨?_, ?_, ?_⟩
    · intro i t hi hl
      rcases hold hi with rfl | hi
      · exact hs
      · exact hw.slot i t hi hl
    · intro f hf
      have hfg : g = f := Option.some.inj (hs.symm.trans hf)
      subst hfg
      refine ⟨{ fl with users := fl.users + 1 }, by simp [hfl], ?_⟩
      simp [List.countP_append, Phase.live, hcount]
    · intro i t hi hh
      rcases hold hi with rfl | hi
      · simp [Phase.holding] at hh
      · obtain ⟨fl', hfl', hlock⟩ := hw.holder i t hi hh
        simp only [List.getElem?_modify, hfl']
        by_cases hgt : g = t.flight
        · exact ⟨{ fl' with users := fl'.users + 1 }, by simp [hgt], hlock⟩
        · exact ⟨fl', by simp [hgt], hlock⟩

theorem countP_live_set {w : World} {i : ℕ} {t u : Caller} (hi : w.callers[i]? = some t)
    (ht : t.phase.live = true) (hu : u.phase.live = true) :
    (w.setCaller i u).callers.countP (fun t => t.phase.live) =
      w.callers.countP fun t => t.phase.live := by
  obtain ⟨hlt, hget⟩ := List.getElem?_eq_some_iff.mp hi
  have hpos : 0 < w.callers.countP (fun t => t.phase.live) := by
    rw [List.countP_pos_iff]
    exact ⟨t, List.mem_of_getElem? hi, ht⟩
  simp only [World.setCaller, List.countP_set hlt, hget, ht, hu, if_true]
  omega

/-- A live request moves on; if it holds the lock afterwards, the lock names it. -/
theorem Exclusive.setCaller {w : World} (hw : Exclusive w) {i f : ℕ} {p p' : Phase}
    (hi : w.callers[i]? = some ⟨f, p⟩) (hp : p.live = true) (hp' : p'.live = true)
    (hlock : p'.holding = true → ∃ fl : Flight, w.flights[f]? = some fl ∧ fl.holder = some i) :
    Exclusive (w.setCaller i ⟨f, p'⟩) := by
  refine ⟨?_, ?_, ?_⟩
  · intro j t hj hl
    rcases Runs.party_set hj with ⟨-, rfl⟩ | ⟨-, hj⟩
    · exact hw.slot i ⟨f, p⟩ hi hp
    · exact hw.slot j t hj hl
  · intro g hg
    obtain ⟨fl, hfl, hcount⟩ := hw.users g hg
    exact ⟨fl, hfl, hcount.trans (countP_live_set hi hp hp').symm⟩
  · intro j t hj hh
    rcases Runs.party_set hj with ⟨rfl, rfl⟩ | ⟨-, hj⟩
    · exact hlock hh
    · exact hw.holder j t hj hh

/-- The lock changes hands: it may name only the request that holds it, if there is one. -/
theorem Exclusive.setLock {w : World} (hw : Exclusive w) {f : ℕ} {holder : Option ℕ}
    (hold : ∀ (j : ℕ) (t : Caller), w.callers[j]? = some t → t.phase.holding = true → t.flight = f →
      holder = some j) : Exclusive (w.setLock f holder) := by
  refine ⟨hw.slot, ?_, ?_⟩
  · intro g hg
    obtain ⟨fl, hfl, hcount⟩ := hw.users g hg
    simp only [World.setLock, List.getElem?_modify, hfl]
    by_cases hfg : f = g
    · exact ⟨{ fl with holder }, by simp [hfg], hcount⟩
    · exact ⟨fl, by simp [hfg], hcount⟩
  · intro j t hj hh
    obtain ⟨fl, hfl, hlock⟩ := hw.holder j t hj hh
    simp only [World.setLock, List.getElem?_modify, hfl]
    by_cases hft : f = t.flight
    · exact ⟨{ fl with holder }, by simp [hft], hold j t hj hh hft.symm⟩
    · exact ⟨fl, by simp [hft], hlock⟩

theorem Exclusive.acquire {w : World} (hw : Exclusive w) {i f users : ℕ} {p : Phase}
    (hi : w.callers[i]? = some ⟨f, .queued⟩) (hf : w.flights[f]? = some ⟨users, none⟩)
    (hp : p.live = true) :
    Exclusive (if p.holding then (w.setCaller i ⟨f, p⟩).setLock f (some i)
      else w.setCaller i ⟨f, p⟩) := by
  have hfree : ∀ (j : ℕ) (t : Caller), w.callers[j]? = some t → t.phase.holding = true → t.flight = f → False := by
    intro j t hj hh htf
    obtain ⟨fl, hfl, hlock⟩ := hw.holder j t hj hh
    rw [htf, hf] at hfl
    cases hfl
    contradiction
  by_cases hh : p.holding = true
  · rw [if_pos hh]
    have hlocked : Exclusive (w.setLock f (some i)) :=
      hw.setLock fun j t hj hj' htf => (hfree j t hj hj' htf).elim
    refine hlocked.setCaller hi rfl hp fun _ => ⟨⟨users, some i⟩, ?_, rfl⟩
    simp [World.setLock, hf]
  · rw [if_neg hh]
    exact hw.setCaller hi rfl hp fun h => absurd h hh

theorem Exclusive.resumed {w : World} (hw : Exclusive w) {i f : ℕ} {p : Phase} {a : Action}
    (hi : w.callers[i]? = some ⟨f, p⟩) (ha : Resumes p a) :
    Exclusive (if p.holding && !a.next.holding then (w.setCaller i ⟨f, a.next⟩).setLock f none
      else w.setCaller i ⟨f, a.next⟩) := by
  have hmoved : Exclusive (w.setCaller i ⟨f, a.next⟩) :=
    hw.setCaller hi ha.live.1 ha.live.2 fun h => hw.holder i _ hi (ha.holding h)
  by_cases hrel : p.holding = true ∧ a.next.holding = false
  · rw [if_pos (by simp [hrel])]
    refine hmoved.setLock ?_
    intro j t hj hh _
    rcases Runs.party_set hj with ⟨-, rfl⟩ | ⟨hji, hj⟩
    · simp [hrel.2] at hh
    · exact absurd (hw.single hj hi hh hrel.1) hji
  · rw [if_neg (by simpa using hrel)]
    exact hmoved

theorem Exclusive.cleanup {w : World} (hw : Exclusive w) {i f : ℕ}
    (hi : w.callers[i]? = some ⟨f, .cleaning⟩) :
    Exclusive ((w.setCaller i ⟨f, .done⟩).release f) := by
  have hslot : w.slot = some f := hw.slot i _ hi rfl
  obtain ⟨fl, hfl, hcount⟩ := hw.users f hslot
  obtain ⟨hlt, hget⟩ := List.getElem?_eq_some_iff.mp hi
  have hcount' : (w.callers.set i ⟨f, .done⟩).countP (fun t => t.phase.live) = fl.users - 1 := by
    simp [List.countP_set hlt, hget, Phase.live, hcount]
  have hold : ∀ (j : ℕ) (t : Caller), (w.callers.set i ⟨f, .done⟩)[j]? = some t → t.phase.live = true →
      w.callers[j]? = some t := by
    intro j t hj hl
    rcases Runs.party_set hj with ⟨-, rfl⟩ | ⟨-, hj⟩
    · simp [Phase.live] at hl
    · exact hj
  have hholder : ∀ (j : ℕ) (t : Caller), (w.callers.set i ⟨f, .done⟩)[j]? = some t → t.phase.holding = true →
      ∃ fl' : Flight, (w.flights.modify f fun fl => { fl with users := fl.users - 1 })[t.flight]? =
        some fl' ∧ fl'.holder = some j := by
    intro j t hj hh
    have hj' := hold j t hj (Phase.holding.live hh)
    obtain ⟨fl', hfl', hlock⟩ := hw.holder j t hj' hh
    simp only [List.getElem?_modify, hfl']
    by_cases hft : f = t.flight
    · exact ⟨{ fl' with users := fl'.users - 1 }, by simp [hft], hlock⟩
    · exact ⟨fl', by simp [hft], hlock⟩
  rw [World.release_eq (w := w.setCaller i ⟨f, .done⟩) hfl]
  by_cases h0 : fl.users - 1 = 0
  · have hdead : ∀ (j : ℕ) (t : Caller), (w.callers.set i ⟨f, .done⟩)[j]? = some t → t.phase.live = true →
        False := by
      intro j t hj hl
      rw [h0, List.countP_eq_zero] at hcount'
      exact hcount' t (List.mem_of_getElem? hj) hl
    refine ⟨?_, ?_, hholder⟩
    · intro j t hj hl
      exact (hdead j t hj hl).elim
    · intro g hg
      simp [World.setCaller, h0, hslot] at hg
  · refine ⟨?_, ?_, hholder⟩
    · intro j t hj hl
      simp only [h0, false_and, if_false]
      exact hw.slot j t (hold j t hj hl) hl
    · intro g hg
      simp only [h0, false_and, if_false] at hg
      have hgf : f = g := Option.some.inj (hslot.symm.trans hg)
      subst hgf
      exact ⟨{ fl with users := fl.users - 1 }, by simp [World.setCaller, hfl],
        hcount'.symm⟩

theorem storeOpt_control (w : World) (r : Option CachedResponse) :
    (w.storeOpt ttl r).callers = w.callers ∧ (w.storeOpt ttl r).flights = w.flights ∧
      (w.storeOpt ttl r).slot = w.slot := by
  cases r with
  | none => exact ⟨rfl, rfl, rfl⟩
  | some r =>
    simp only [World.storeOpt, World.store]
    cases w.entry with
    | none => exact ⟨rfl, rfl, rfl⟩
    | some e =>
      dsimp only
      split <;> exact ⟨rfl, rfl, rfl⟩

theorem exclusive_step {w w' : World} {l : Label} (hw : Exclusive w)
    (hstep : step ttl w l = some w') : Exclusive w' := by
  cases l with
  | enter =>
    cases hstep
    exact hw.enter
  | acquire i =>
    simp only [step] at hstep
    split at hstep
    case h_2 => contradiction
    case h_1 f hi =>
      split at hstep
      case h_2 => contradiction
      case h_1 users hf =>
        cases hstep
        have hp : ∀ e, (lookup e).live = true := by
          intro e
          unfold lookup
          split <;> [rfl; split] <;> rfl
        have hw' : Exclusive { w with entry := prune w.now w.entry } :=
          ⟨hw.slot, hw.users, hw.holder⟩
        exact hw'.acquire hi hf (hp _)
  | resume i e =>
    simp only [step] at hstep
    split at hstep
    case h_2 => contradiction
    case h_1 f p hi =>
      split at hstep
      case h_2 => contradiction
      case h_1 a ha =>
        cases hstep
        obtain ⟨hc, hf, hs⟩ := storeOpt_control ttl w a.stored
        have hw' : Exclusive { w.storeOpt ttl a.stored with
            dispatched := w.dispatched + if a.dispatches then 1 else 0 } := by
          refine ⟨?_, ?_, ?_⟩
          · simpa only [hc, hs] using hw.slot
          · simpa only [hc, hs, hf] using hw.users
          · simpa only [hc, hf] using hw.holder
        exact hw'.resumed (by simpa only [hc] using hi) (resume_cases ha)
  | cleanup i =>
    simp only [step] at hstep
    split at hstep <;> cases hstep
    exact hw.cleanup ‹_›
  | tick d =>
    cases hstep
    exact ⟨hw.slot, hw.users, hw.holder⟩

/-- The last stored answer is still in the cache, or it has expired. -/
def Covered (w : World) : Prop :=
  ∃ u, w.storedUntil = some u ∧ ((∃ e, w.entry = some e ∧ e.expiresAt = u) ∨ u ≤ w.now)

/-- The verb was dispatched at most once; after that its caller has yet to store the
answer, or the answer is covered. -/
structure Once (w : World) : Prop where
  missed : ∀ (i : ℕ) (t : Caller), w.callers[i]? = some t → t.phase.missed = true →
    w.entry = none
  early : ∀ (i : ℕ) (t : Caller), w.callers[i]? = some t → t.phase.early = true →
    w.dispatched = 0
  once : w.dispatched = 0 ∨ (w.dispatched = 1 ∧
    ((∃ (i : ℕ) (t : Caller), w.callers[i]? = some t ∧ t.phase.undecided = true) ∨
      Covered w))

theorem once_initial (now : ℕ) : Once (World.initial now) := by
  constructor <;> simp [World.initial]

theorem covered_prune {w : World} (h : Covered w) :
    Covered { w with entry := prune w.now w.entry } := by
  obtain ⟨u, hu, ⟨e, he, hexp⟩ | hle⟩ := h
  · refine ⟨u, hu, ?_⟩
    by_cases hle : e.expiresAt ≤ w.now
    · exact Or.inr (hexp ▸ hle)
    · exact Or.inl ⟨e, by simp [prune, he, hle], hexp⟩
  · exact ⟨u, hu, Or.inr hle⟩

theorem covered_store {w : World} {r : CachedResponse} (h : w.entry = none ∨ Covered w) :
    Covered (w.store ttl r) := by
  have hput : Covered { w with
      entry := some ⟨r, w.now + ttl⟩, storedUntil := some (w.now + ttl) } :=
    ⟨w.now + ttl, rfl, Or.inl ⟨_, rfl, rfl⟩⟩
  unfold World.store
  cases he : w.entry with
  | none => exact hput
  | some e =>
    have hcov : Covered w := by
      rcases h with hnone | hcov
      · simp [he] at hnone
      · exact hcov
    dsimp only
    split
    · exact hcov
    · exact hput

theorem Once.setLock {w : World} (hw : Once w) (f : ℕ) (holder : Option ℕ) :
    Once (w.setLock f holder) := ⟨hw.missed, hw.early, hw.once⟩

theorem Once.enter {w : World} (hw : Once w) : Once w.enter := by
  obtain ⟨f, hcallers⟩ : ∃ f, w.enter.callers = w.callers ++ [⟨f, .queued⟩] := by
    cases hs : w.slot with
    | none => exact ⟨_, congrArg World.callers (World.enter_none hs)⟩
    | some f => exact ⟨_, congrArg World.callers (World.enter_some hs)⟩
  obtain ⟨hentry, hdisp, hstored, hnow⟩ : w.enter.entry = prune w.now w.entry ∧
      w.enter.dispatched = w.dispatched ∧ w.enter.storedUntil = w.storedUntil ∧
      w.enter.now = w.now := by
    cases hs : w.slot with
    | none => simp [World.enter_none hs]
    | some f => simp [World.enter_some hs]
  have hold : ∀ {j : ℕ} {t : Caller}, w.enter.callers[j]? = some t →
      t = ⟨f, .queued⟩ ∨ w.callers[j]? = some t := by
    intro j t hj
    rw [hcallers] at hj
    rcases Runs.party_concat hj with ⟨-, rfl⟩ | ⟨-, hj⟩
    · exact Or.inl rfl
    · exact Or.inr hj
  refine ⟨?_, ?_, ?_⟩
  · intro j t hj hm
    rcases hold hj with rfl | hj
    · simp [Phase.missed] at hm
    · simp [hentry, prune, hw.missed j t hj hm]
  · intro j t hj he
    rcases hold hj with rfl | hj
    · simp [Phase.early] at he
    · rw [hdisp]
      exact hw.early j t hj he
  · rw [hdisp]
    rcases hw.once with h0 | ⟨h1, ⟨j, t, hj, hu⟩ | hcov⟩
    · exact Or.inl h0
    · refine Or.inr ⟨h1, Or.inl ⟨j, t, ?_, hu⟩⟩
      have hlt := (List.getElem?_eq_some_iff.mp hj).1
      rw [hcallers, List.getElem?_append_left hlt, hj]
    · have hpruned := covered_prune hcov
      refine Or.inr ⟨h1, Or.inr ?_⟩
      simpa only [Covered, hentry, hstored, hnow] using hpruned

/-- The lookup of the request that takes a free lock finds the stored answer, if any. -/
theorem Once.acquire {w : World} (hw : Once w) (hx : Exclusive w) {i f users : ℕ}
    (hi : w.callers[i]? = some ⟨f, .queued⟩) (hf : w.flights[f]? = some ⟨users, none⟩)
    (htimely : ∀ u ∈ w.storedUntil, w.now < u) :
    Once ({ w with entry := prune w.now w.entry }.setCaller i
      ⟨f, lookup (prune w.now w.entry)⟩) := by
  have hfree : ∀ (j : ℕ) (t : Caller), w.callers[j]? = some t → t.phase.holding = false := by
    intro j t hj
    by_contra hh
    have hh' : t.phase.holding = true := by simpa using hh
    have hslot := hx.slot j t hj (Phase.holding.live hh')
    have hft : t.flight = f :=
      Option.some.inj (hslot.symm.trans (hx.slot i ⟨f, .queued⟩ hi rfl))
    obtain ⟨fl, hfl, hlock⟩ := hx.holder j t hj hh'
    rw [hft, hf] at hfl
    cases hfl
    contradiction
  have hmissed : ∀ {j : ℕ} {t : Caller}, w.callers[j]? = some t → t.phase.missed = true →
      False := by
    intro j t hj hm
    have := hfree j t hj
    simp [Phase.missed.holding hm] at this
  have hmiss : (lookup (prune w.now w.entry)).missed = true → prune w.now w.entry = none := by
    intro hm
    unfold lookup at hm
    split at hm
    · assumption
    · split at hm <;> simp [Phase.missed] at hm
  have hcovered : w.dispatched = 0 ∨ (w.dispatched = 1 ∧ Covered w) := by
    rcases hw.once with h0 | ⟨h1, ⟨j, t, hj, hu⟩ | hcov⟩
    · exact Or.inl h0
    · exact (hmissed hj (Phase.undecided.missed hu)).elim
    · exact Or.inr ⟨h1, hcov⟩
  refine ⟨?_, ?_, ?_⟩
  · intro j t hj hm
    rcases Runs.party_set hj with ⟨-, rfl⟩ | ⟨-, hj⟩
    · exact hmiss hm
    · exact (hmissed hj hm).elim
  · intro j t hj he
    rcases Runs.party_set hj with ⟨-, rfl⟩ | ⟨-, hj⟩
    · rcases hcovered with h0 | ⟨-, u, hu, hlive⟩
      · exact h0
      · have hlt := htimely u hu
        rcases hlive with ⟨e, hentry, hexp⟩ | hle
        · have hnone := hmiss (Phase.early.missed he)
          simp [prune, hentry, show ¬ e.expiresAt ≤ w.now by omega] at hnone
        · omega
    · exact (hmissed hj (Phase.early.missed he)).elim
  · rcases hcovered with h0 | ⟨h1, hcov⟩
    · exact Or.inl h0
    · exact Or.inr ⟨h1, Or.inr (covered_prune hcov)⟩

theorem Once.cleanup {w : World} (hw : Once w) {i f : ℕ}
    (hi : w.callers[i]? = some ⟨f, .cleaning⟩) : Once ((w.setCaller i ⟨f, .done⟩).release f) := by
  have hset : Once (w.setCaller i ⟨f, .done⟩) := by
    refine ⟨?_, ?_, ?_⟩
    · intro j t hj hm
      rcases Runs.party_set hj with ⟨-, rfl⟩ | ⟨-, hj⟩
      · simp [Phase.missed] at hm
      · exact hw.missed j t hj hm
    · intro j t hj he
      rcases Runs.party_set hj with ⟨-, rfl⟩ | ⟨-, hj⟩
      · simp [Phase.early] at he
      · exact hw.early j t hj he
    · rcases hw.once with h0 | ⟨h1, ⟨j, t, hj, hu⟩ | hcov⟩
      · exact Or.inl h0
      · refine Or.inr ⟨h1, Or.inl ⟨j, t, ?_, hu⟩⟩
        have hji : i ≠ j := by
          rintro rfl
          rw [hi] at hj
          cases hj
          simp [Phase.undecided] at hu
        simpa [World.setCaller, List.getElem?_set_ne hji] using hj
      · exact Or.inr ⟨h1, Or.inr hcov⟩
  simp only [World.release]
  split
  · split
    · exact ⟨hset.missed, hset.early, hset.once⟩
    · exact ⟨hset.missed, hset.early, hset.once⟩
  · exact ⟨hset.missed, hset.early, hset.once⟩

theorem Once.resumed {w : World} (hw : Once w) (hx : Exclusive w) {i f : ℕ} {p : Phase}
    {a : Action} (hi : w.callers[i]? = some ⟨f, p⟩) (ha : Resumes p a) :
    Once ({ w.storeOpt ttl a.stored with
      dispatched := w.dispatched + if a.dispatches then 1 else 0 }.setCaller i ⟨f, a.next⟩) := by
  have hcallers := (storeOpt_control ttl w a.stored).1
  have hother : ∀ {j : ℕ} {t : Caller}, j ≠ i → w.callers[j]? = some t →
      t.phase.missed = true → p.holding = false := by
    intro j t hji hj hm
    by_contra hh
    exact hji (hx.single hj hi (Phase.missed.holding hm) (by simpa using hh))
  have hkept : a.stored.isSome = false → w.storeOpt ttl a.stored = w := by
    intro h
    simp only [Option.isSome_eq_false_iff, Option.isNone_iff_eq_none] at h
    rw [h]
    rfl
  have hentry : ∀ {j : ℕ} {t : Caller},
      ((w.storeOpt ttl a.stored).callers.set i ⟨f, a.next⟩)[j]? = some t →
      t.phase.missed = true → w.entry = none ∧ a.stored.isSome = false := by
    intro j t hj hm
    rw [hcallers] at hj
    rcases Runs.party_set hj with ⟨-, rfl⟩ | ⟨hji, hj⟩
    · refine ⟨hw.missed i _ hi (ha.missed hm), ?_⟩
      by_contra hs
      have := (ha.stored ((Bool.not_eq_false _).mp hs)).2
      simp [this] at hm
    · refine ⟨hw.missed j t hj hm, ?_⟩
      by_contra hs
      have := (ha.stored ((Bool.not_eq_false _).mp hs)).1
      simp [hother hji hj hm] at this
  refine ⟨?_, ?_, ?_⟩
  · intro j t hj hm
    obtain ⟨hnone, hs⟩ := hentry hj hm
    simpa only [World.setCaller, hkept hs] using hnone
  · intro j t hj he
    simp only [World.setCaller, hcallers] at hj ⊢
    rcases Runs.party_set hj with ⟨-, rfl⟩ | ⟨hji, hj⟩
    · obtain ⟨hp, hd⟩ := ha.early he
      simpa [hd] using hw.early i _ hi hp
    · have hd : a.dispatches = false := by
        by_contra hd
        have hp := (ha.dispatches (by simpa using hd)).1
        have := hother hji hj (Phase.early.missed he)
        simp [Phase.missed.holding (Phase.early.missed hp)] at this
      simpa [hd] using hw.early j t hj he
  · cases hd : a.dispatches with
    | true =>
      obtain ⟨hp, hu, -⟩ := ha.dispatches hd
      have hlt := (List.getElem?_eq_some_iff.mp hi).1
      refine Or.inr ⟨by simp [World.setCaller, hw.early i _ hi hp], Or.inl
        ⟨i, ⟨f, a.next⟩, ?_, hu⟩⟩
      simp [World.setCaller, hcallers, hlt]
    | false =>
      simp only [World.setCaller, Bool.false_eq_true, if_false, Nat.add_zero]
      rcases hw.once with h0 | ⟨h1, ⟨j, t, hj, hu⟩ | hcov⟩
      · exact Or.inl h0
      · refine Or.inr ⟨h1, ?_⟩
        have hlt := (List.getElem?_eq_some_iff.mp hj).1
        by_cases hji : j = i
        · subst hji
          rw [hi] at hj
          cases hj
          rcases ha.undecided hu with hnext | hstored
          · left
            exact ⟨j, ⟨f, a.next⟩, by simp [hcallers, hlt], hnext⟩
          · right
            obtain ⟨r, hr⟩ := Option.isSome_iff_exists.mp hstored
            have hnone := hw.missed j _ hi (Phase.undecided.missed hu)
            rw [hr]
            exact covered_store ttl (Or.inl hnone)
        · left
          exact ⟨j, t, by simp [hcallers, List.getElem?_set_ne (Ne.symm hji), hj], hu⟩
      · refine Or.inr ⟨h1, Or.inr ?_⟩
        cases hr : a.stored with
        | none => exact hcov
        | some r => exact covered_store ttl (Or.inr hcov)

/-- No request looks the key up at or after the expiry of the last answer stored for it. -/
def TimelyLookup (w : World) : Label → Prop
  | .acquire _ => ∀ u ∈ w.storedUntil, w.now < u
  | _ => True

instance (w : World) (l : Label) : Decidable (TimelyLookup w l) := by
  unfold TimelyLookup
  split <;> infer_instance

/-- Every request is posted within the TTL of the first one. -/
def WithinWindow (w : World) : Label → Prop
  | .enter => ∀ t ∈ w.firstAt, w.now < t + ttl
  | _ => True

instance (w : World) (l : Label) : Decidable (WithinWindow ttl w l) := by
  unfold WithinWindow
  split <;> infer_instance

theorem once_step {w w' : World} {l : Label} (hx : Exclusive w) (hw : Once w)
    (htimely : TimelyLookup w l) (hstep : step ttl w l = some w') : Once w' := by
  cases l with
  | enter =>
    cases hstep
    exact hw.enter
  | acquire i =>
    simp only [step] at hstep
    split at hstep
    case h_2 => contradiction
    case h_1 f hi =>
      split at hstep
      case h_2 => contradiction
      case h_1 users hf =>
        cases hstep
        have htaken := hw.acquire hx hi hf htimely
        split
        · exact htaken.setLock f (some i)
        · exact htaken
  | resume i e =>
    simp only [step] at hstep
    split at hstep
    case h_2 => contradiction
    case h_1 f p hi =>
      split at hstep
      case h_2 => contradiction
      case h_1 a ha =>
        cases hstep
        have hresumed := hw.resumed ttl hx hi (resume_cases ha)
        split
        · exact hresumed.setLock f none
        · exact hresumed
  | cleanup i =>
    simp only [step] at hstep
    split at hstep <;> cases hstep
    exact hw.cleanup ‹_›
  | tick d =>
    cases hstep
    refine ⟨hw.missed, hw.early, ?_⟩
    rcases hw.once with h0 | ⟨h1, hu | ⟨u, hu, hlive⟩⟩
    · exact Or.inl h0
    · exact Or.inr ⟨h1, Or.inl hu⟩
    · refine Or.inr ⟨h1, Or.inr ⟨u, hu, hlive.imp_right ?_⟩⟩
      intro hle
      exact Nat.le_add_right_of_le hle

/-- Along every run whose lookups are timely, whatever the awaits of the requests end in,
the verb is dispatched at most once. -/
theorem dispatched_once_of_timely (now : ℕ) (ls : List Label) (w : World)
    (hrun : Runs.exec (step ttl) (World.initial now) ls = some w)
    (htimely : Runs.Guarded (step ttl) TimelyLookup (World.initial now) ls) :
    w.dispatched ≤ 1 := by
  have hinv : Exclusive w ∧ Once w := by
    refine Runs.invariant_of_guarded (fun w => Exclusive w ∧ Once w) ?_
      ⟨exclusive_initial now, once_initial now⟩ htimely hrun
    intro s l t hs hok hstep
    exact ⟨exclusive_step ttl hs.1 hstep, once_step ttl hs.1 hs.2 hok hstep⟩
  rcases hinv.2.once with h0 | ⟨h1, -⟩ <;> omega

/-- A dispatch whose journal PATCH fails, and a second request waiting for the same key,
whose own PATCH finalizes the cached answer. -/
def retriedRun : List Label :=
  [.enter, .acquire 0, .resume 0 .ready, .resume 0 .go, .enter, .resume 0 .task, .tick 30,
    .resume 0 (.patched false), .acquire 1, .cleanup 0, .resume 1 (.patched true), .cleanup 1]

theorem dispatched_once_of_timely_retriedRun : ∃ w,
    Runs.exec (step ttlSeconds) (World.initial 0) retriedRun = some w ∧
      w.slot = none ∧ w.entry = some ⟨⟨200, true, none⟩, 90⟩ ∧ w.dispatched ≤ 1 := by
  let w : World :=
    { now := 30
      entry := some ⟨⟨200, true, none⟩, 90⟩
      storedUntil := some 90
      flights := [⟨0, none⟩]
      slot := none
      callers := [⟨0, .done⟩, ⟨0, .done⟩]
      firstAt := some 0
      dispatched := 1 }
  have hrun : Runs.exec (step ttlSeconds) (World.initial 0) retriedRun = some w := by decide
  exact ⟨w, hrun, rfl, rfl, dispatched_once_of_timely ttlSeconds 0 retriedRun w hrun (by decide)⟩

/-- The first request is cancelled during its journal PATCH, which ends after the TTL of the
pending entry: the request that waited for the key finds nothing and dispatches again. -/
theorem dispatched_twice_in_window : ¬ ∀ (now : ℕ) (ls : List Label) (w : World),
    Runs.exec (step ttlSeconds) (World.initial now) ls = some w →
      Runs.Guarded (step ttlSeconds) (WithinWindow ttlSeconds) (World.initial now) ls →
      w.dispatched ≤ 1 := by
  intro hall
  let schedule : List Label := [.enter, .acquire 0, .resume 0 .ready, .resume 0 .go,
    .resume 0 .task, .enter, .resume 0 .cancelled, .tick 60, .resume 0 .drained, .acquire 1,
    .resume 1 .ready, .resume 1 .go]
  have hle := hall 0 schedule _ rfl (by decide)
  exact absurd hle (by decide)

end ProxboxApi.Idempotency
