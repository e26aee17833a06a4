import Mathlib.Algebra.Order.Ring.Rat
import Mathlib.Data.List.Induction
import Mathlib.Data.List.Perm.Subperm
import ProxboxApi.Dict
import ProxboxApi.Text

/-! The tickets of the browser SSH terminal: the manager that keeps the sessions, and the WebSocket
handlers that take a ticket, relay and release their session. -/

namespace ProxboxApi.TerminalSessions

inductive TerminalTargetType where
  | node
  | endpoint
  deriving DecidableEq, Repr

/-- An inline credential for one session. -/
structure OneShotTerminalCredential where
  username : String
  port : ℕ
  knownHostFingerprint : String
  password : Option String
  privateKey : Option String
  deriving DecidableEq, Repr

/-- What a session is asked for. -/
structure Target where
  targetType : TerminalTargetType
  endpointId : ℤ
  nodeId : Option ℤ
  host : Option String
  actor : Option String
  cols : ℤ
  rows : ℤ
  oneShotCredential : Option OneShotTerminalCredential
  deriving DecidableEq, Repr

structure TerminalSession where
  sessionId : String
  ticketHash : String
  target : Target
  createdAt : ℚ
  expiresAt : ℚ
  lastActivityAt : ℚ
  consumed : Bool
  deriving DecidableEq, Repr

/-- `_env_int`: `value` is the number in the variable, `none` without one. -/
def envInt (value : Option ℤ) (default : ℕ) : ℕ :=
  match value with
  | none => default
  | some n => (max 1 n).toNat

/-- The limits of `TerminalSessionManager`. -/
structure Limits where
  ticketTtlSeconds : ℕ
  idleTimeoutSeconds : ℕ
  maxLifetimeSeconds : ℕ
  maxSessions : ℕ
  deriving DecidableEq, Repr

/-- The limits from the environment. -/
def Limits.ofEnv (ticketTtl idleTimeout maxLifetime maxSessions : Option ℤ) : Limits where
  ticketTtlSeconds := envInt ticketTtl 60
  idleTimeoutSeconds := envInt idleTimeout 900
  maxLifetimeSeconds := envInt maxLifetime 7200
  maxSessions := envInt maxSessions 10

inductive TerminalSessionError where
  | tooMany
  | notFound
  | alreadyUsed
  | expired
  | invalid
  deriving DecidableEq, Repr

def TerminalSessionError.message : TerminalSessionError → String
  | .tooMany => "Maximum SSH terminal session count reached"
  | .notFound => "SSH terminal session not found"
  | .alreadyUsed => "SSH terminal ticket has already been used"
  | .expired => "SSH terminal ticket has expired"
  | .invalid => "Invalid SSH terminal ticket"

abbrev Sessions := List (String × TerminalSession)

section Manager

variable (limits : Limits) (hashTicket : String → String)

/-- The sessions that `_cleanup_locked` drops: unused tickets after their time, and every session
after its lifetime. -/
def stale (now : ℚ) (session : TerminalSession) : Bool :=
  (decide (session.expiresAt < now) && !session.consumed) ||
    decide (session.createdAt + limits.maxLifetimeSeconds < now)

def cleanupLocked (now : ℚ) (sessions : Sessions) : Sessions :=
  sessions.filter fun kv => !stale limits now kv.2

/-- `host.strip() if host else None`. -/
def stripped (text : Option String) : Option String :=
  match text with
  | none => none
  | some text => if text = "" then none else some (Text.strip text)

def newSession (now : ℚ) (sessionId ticket : String) (target : Target) : TerminalSession where
  sessionId := sessionId
  ticketHash := hashTicket ticket
  target := { target with host := stripped target.host, actor := stripped target.actor }
  createdAt := now
  expiresAt := now + limits.ticketTtlSeconds
  lastActivityAt := now
  consumed := false

/-- `create_session` with the identifiers that `secrets` makes. -/
def createSession (now : ℚ) (sessionId ticket : String) (target : Target) (sessions : Sessions) :
    Sessions × Except TerminalSessionError TerminalSession :=
  let sessions := cleanupLocked limits now sessions
  if limits.maxSessions ≤ sessions.length then (sessions, .error .tooMany)
  else
    let session := newSession limits hashTicket now sessionId ticket target
    (Dict.set sessionId session sessions, .ok session)

/-- `consume_ticket`. -/
def consumeTicket (now : ℚ) (sessionId ticket : String) (sessions : Sessions) :
    Sessions × Except TerminalSessionError TerminalSession :=
  let sessions := cleanupLocked limits now sessions
  match Dict.get sessionId sessions with
  | none => (sessions, .error .notFound)
  | some session =>
    if session.consumed then (sessions, .error .alreadyUsed)
    else if session.expiresAt < now then (Dict.erase sessionId sessions, .error .expired)
    else if session.ticketHash ≠ hashTicket ticket then (sessions, .error .invalid)
    else
      let session := { session with consumed := true, lastActivityAt := now }
      (Dict.set sessionId session sessions, .ok session)

def idleRemainingSeconds (now : ℚ) (session : TerminalSession) : ℚ :=
  max 0 (session.lastActivityAt + limits.idleTimeoutSeconds - now)

def lifetimeRemainingSeconds (now : ℚ) (session : TerminalSession) : ℚ :=
  max 0 (session.createdAt + limits.maxLifetimeSeconds - now)

/-- How long `_read_terminal_message` waits for a frame. -/
def readTimeout (now : ℚ) (session : TerminalSession) : ℚ :=
  min (idleRemainingSeconds limits now session) (lifetimeRemainingSeconds limits now session)

end Manager

/-- What happens in the order of the manager's lock; `receive` is a frame that a relay waited for
from `asked` on. -/
inductive Label where
  | create (now : ℚ) (sessionId ticket : String) (target : Target)
  | consume (now : ℚ) (sessionId ticket : String)
  | markActivity (now : ℚ) (sessionId : String)
  | receive (asked received : ℚ) (sessionId : String)
  | release (sessionId : String)

/-- The times at which the manager looks at the clock. -/
def Label.now : Label → Option ℚ
  | .create now .. | .consume now .. | .markActivity now _ => some now
  | .receive .. | .release _ => none

/-- The identifier of a session that a label may create. -/
def Label.newId : Label → Option String
  | .create _ sessionId .. => some sessionId
  | _ => none

inductive Event where
  | created (sessionId ticketHash : String) (time : ℚ)
  | opened (sessionId ticket : String) (time : ℚ)
  | received (sessionId : String) (time : ℚ)
  deriving DecidableEq, Repr

/-- The stored sessions, the sessions of the handlers that took a ticket and have not released it,
and what happened. -/
structure State where
  sessions : Sessions
  relays : List TerminalSession
  log : List Event

def State.empty : State := ⟨[], [], []⟩

section System

variable (limits : Limits) (hashTicket : String → String)

/-- `mark_activity`; a relay's session is the stored one as long as that is there. -/
def State.touch (s : State) (now : ℚ) (sessionId : String) : State :=
  match Dict.get sessionId s.sessions with
  | none => s
  | some session =>
    { s with
      sessions := Dict.set sessionId { session with lastActivityAt := now } s.sessions
      relays := s.relays.map fun r =>
        if r.sessionId = sessionId then { r with lastActivityAt := now } else r }

/-- A label that does not apply changes nothing. -/
def step (s : State) : Label → State
  | .create now sessionId ticket target =>
    match createSession limits hashTicket now sessionId ticket target s.sessions with
    | (sessions, .error _) => { s with sessions }
    | (sessions, .ok session) =>
      { s with sessions, log := s.log ++ [.created sessionId session.ticketHash now] }
  | .consume now sessionId ticket =>
    match consumeTicket limits hashTicket now sessionId ticket s.sessions with
    | (sessions, .error _) => { s with sessions }
    | (sessions, .ok session) =>
      ⟨sessions, session :: s.relays, s.log ++ [.opened sessionId ticket now]⟩
  | .markActivity now sessionId => s.touch now sessionId
  | .receive asked received sessionId =>
    match s.relays.find? fun r => r.sessionId = sessionId with
    | none => s
    | some r =>
      let timeout := readTimeout limits asked r
      if 0 < timeout ∧ received ≤ asked + timeout then
        { s with log := s.log ++ [.received sessionId received] }
      else s
  | .release sessionId =>
    if s.relays.any fun r => r.sessionId = sessionId then
      { s with
        sessions := Dict.erase sessionId s.sessions
        relays := s.relays.filter fun r => r.sessionId ≠ sessionId }
    else s

def run (labels : List Label) : State := labels.foldl (step limits hashTicket) State.empty

/-- How often a session was opened. -/
def openings (sessionId : String) (log : List Event) : ℕ :=
  log.countP fun e => match e with
    | .opened id _ _ => id = sessionId
    | _ => false

/-- The identifiers of the created sessions. -/
def createdIds (log : List Event) : List String :=
  log.filterMap fun e => match e with
    | .created id _ _ => some id
    | _ => none

end System

section Log

variable {log : List Event} {e : Event} {id : String}

theorem openings_append : openings id (log ++ [e]) = openings id log + openings id [e] :=
  List.countP_append

theorem createdIds_append : createdIds (log ++ [e]) = createdIds log ++ createdIds [e] :=
  List.filterMap_append

theorem mem_createdIds {hash : String} {time : ℚ} (h : .created id hash time ∈ log) :
    id ∈ createdIds log :=
  List.mem_filterMap.mpr ⟨_, h, rfl⟩

theorem openings_eq_zero (h : ∀ ticket time, .opened id ticket time ∉ log) :
    openings id log = 0 := by
  unfold openings
  rw [List.countP_eq_zero]
  intro e he
  cases e with
  | opened id' ticket time =>
    intro hid
    obtain rfl : id' = id := by simpa using hid
    exact h ticket time he
  | created => simp
  | received => simp

end Log

section Invariant

variable (limits : Limits) (hashTicket : String → String)

/-- The lifetime of a relay's session has passed at some look at the clock. -/
def Outlived (labels : List Label) (r : TerminalSession) : Prop :=
  ∃ l ∈ labels, ∃ now, l.now = some now ∧ r.createdAt + limits.maxLifetimeSeconds < now

/-- What a run of labels keeps. -/
structure Holds (labels : List Label) (s : State) : Prop where
  nodup : (Dict.keys s.sessions).Nodup
  few : s.sessions.length ≤ limits.maxSessions
  stored : ∀ id session, Dict.get id s.sessions = some session → session.sessionId = id ∧
    session.expiresAt = session.createdAt + limits.ticketTtlSeconds ∧
      .created id session.ticketHash session.createdAt ∈ s.log
  ids : ∀ id ∈ createdIds s.log, id ∈ labels.filterMap Label.newId
  unused : ∀ id session, Dict.get id s.sessions = some session → session.consumed = false →
    openings id s.log = 0
  once : ∀ id, openings id s.log ≤ 1
  opened : ∀ id ticket (time : ℚ), .opened id ticket time ∈ s.log →
    ∃ created : ℚ, .created id (hashTicket ticket) created ∈ s.log ∧
      time ≤ created + limits.ticketTtlSeconds
  relayIds : (s.relays.map (·.sessionId)).Nodup
  relay : ∀ r ∈ s.relays, 0 < openings r.sessionId s.log ∧
    (∃ hash, .created r.sessionId hash r.createdAt ∈ s.log) ∧
    ((∃ session, Dict.get r.sessionId s.sessions = some session ∧ session.consumed = true ∧
      session.createdAt = r.createdAt) ∨ Outlived limits labels r)
  received : ∀ id (time : ℚ), .received id time ∈ s.log →
    ∃ hash, ∃ created : ℚ, .created id hash created ∈ s.log ∧
      time ≤ created + limits.maxLifetimeSeconds

variable {limits hashTicket} {labels : List Label} {s : State} {l : Label}

theorem holds_empty : Holds limits hashTicket [] State.empty where
  nodup := List.nodup_nil
  few := Nat.zero_le _
  stored _ _ h := by simp [State.empty, Dict.get] at h
  ids _ h := by simp [State.empty, createdIds] at h
  unused _ _ h := by simp [State.empty, Dict.get] at h
  once _ := Nat.zero_le _
  opened _ _ _ h := by simp [State.empty] at h
  relayIds := List.nodup_nil
  relay _ h := by simp [State.empty] at h
  received _ _ h := by simp [State.empty] at h

theorem Outlived.concat {r : TerminalSession} (h : Outlived limits labels r) :
    Outlived limits (labels ++ [l]) r := by
  obtain ⟨l', hl', hnow⟩ := h
  exact ⟨l', List.mem_append_left _ hl', hnow⟩

theorem Holds.concat (h : Holds limits hashTicket labels s) :
    Holds limits hashTicket (labels ++ [l]) s :=
  { h with
    ids := by
      intro id hid
      rw [List.filterMap_append]
      exact List.mem_append_left _ (h.ids id hid)
    relay := by
      intro r hr
      obtain ⟨hopen, hcreated, hstored⟩ := h.relay r hr
      exact ⟨hopen, hcreated, hstored.imp_right Outlived.concat⟩ }

theorem get_cleanup {now : ℚ} {id : String} (hnodup : (Dict.keys s.sessions).Nodup) :
    Dict.get id (cleanupLocked limits now s.sessions) =
      (Dict.get id s.sessions).filter fun session => !stale limits now session :=
  Dict.get_filter_of_nodup hnodup

/-- A session that is there after the cleanup was there before it. -/
theorem get_of_cleanup {now : ℚ} {id : String} {session : TerminalSession}
    (hnodup : (Dict.keys s.sessions).Nodup)
    (hget : Dict.get id (cleanupLocked limits now s.sessions) = some session) :
    Dict.get id s.sessions = some session := by
  rw [get_cleanup hnodup, Option.filter_eq_some_iff] at hget
  exact hget.1

/-- The cleanup at a label's time. -/
theorem Holds.cleanup {now : ℚ} (h : Holds limits hashTicket labels s) (hl : l ∈ labels)
    (hnow : l.now = some now) :
    Holds limits hashTicket labels { s with sessions := cleanupLocked limits now s.sessions } :=
  { h with
    nodup := h.nodup.sublist Dict.keys_filter_sublist
    few := (List.length_filter_le _ _).trans h.few
    stored := fun id session hget => h.stored id session (get_of_cleanup h.nodup hget)
    unused := fun id session hget => h.unused id session (get_of_cleanup h.nodup hget)
    relay := by
      intro r hr
      obtain ⟨hopen, hcreated, hstored⟩ := h.relay r hr
      refine ⟨hopen, hcreated, ?_⟩
      rcases hstored with ⟨session, hget, hconsumed, htime⟩ | hout
      · by_cases hstale : stale limits now session = true
        · -- a used session is only dropped after its lifetime
          right
          have hlate : session.createdAt + limits.maxLifetimeSeconds < now := by
            simpa [stale, hconsumed] using hstale
          exact ⟨l, hl, now, hnow, htime ▸ hlate⟩
        · left
          refine ⟨session, ?_, hconsumed, htime⟩
          rw [get_cleanup h.nodup, hget]
          simpa [Option.filter] using hstale
      · exact .inr hout }

/-- A new session under a new identifier. -/
theorem Holds.create {now : ℚ} {id ticket : String} {target : Target}
    (h : Holds limits hashTicket labels s) (hroom : s.sessions.length < limits.maxSessions)
    (hfresh : id ∉ createdIds s.log) (hid : id ∈ labels.filterMap Label.newId) :
    Holds limits hashTicket labels
      { s with
        sessions := Dict.set id (newSession limits hashTicket now id ticket target) s.sessions
        log := s.log ++ [.created id (hashTicket ticket) now] } := by
  have hopenings : ∀ id', openings id' (s.log ++ [.created id (hashTicket ticket) now]) =
      openings id' s.log := by
    intro id'
    rw [openings_append]
    rfl
  have hzero : openings id s.log = 0 := by
    apply openings_eq_zero
    intro ticket' time hopened
    obtain ⟨created, hcreated, -⟩ := h.opened id ticket' time hopened
    exact hfresh (mem_createdIds hcreated)
  constructor
  · exact Dict.nodup_keys_set h.nodup
  · exact Dict.length_set_le.trans hroom
  · intro id' session hget
    rw [Dict.get_set] at hget
    split at hget
    · rename_i hid'
      obtain rfl := Option.some.inj hget
      exact ⟨hid', rfl, hid' ▸ List.mem_append_right _ List.mem_cons_self⟩
    · obtain ⟨hsession, hexpires, hcreated⟩ := h.stored id' session hget
      exact ⟨hsession, hexpires, List.mem_append_left _ hcreated⟩
  · intro id' hid'
    rw [createdIds_append] at hid'
    rcases List.mem_append.mp hid' with hid' | hid'
    · exact h.ids id' hid'
    · obtain rfl : id' = id := by simpa [createdIds] using hid'
      exact hid
  · intro id' session hget hconsumed
    rw [hopenings]
    rw [Dict.get_set] at hget
    split at hget
    · rename_i hid'
      exact hid' ▸ hzero
    · exact h.unused id' session hget hconsumed
  · intro id'
    rw [hopenings]
    exact h.once id'
  · intro id' ticket' time hopened
    have hold : .opened id' ticket' time ∈ s.log := by simpa using hopened
    obtain ⟨created, hcreated, htime⟩ := h.opened id' ticket' time hold
    exact ⟨created, List.mem_append_left _ hcreated, htime⟩
  · exact h.relayIds
  · intro r hr
    obtain ⟨hopen, ⟨hash, hcreated⟩, hstored⟩ := h.relay r hr
    refine ⟨hopenings _ ▸ hopen, ⟨hash, List.mem_append_left _ hcreated⟩, hstored.imp_left ?_⟩
    rintro ⟨session, hget, hsession⟩
    refine ⟨session, ?_, hsession⟩
    have hne : id ≠ r.sessionId := by
      rintro rfl
      exact hfresh (mem_createdIds hcreated)
    rw [Dict.get_set_of_ne hne]
    exact hget
  · intro id' time hreceived
    have hold : .received id' time ∈ s.log := by simpa using hreceived
    obtain ⟨hash, created, hcreated, htime⟩ := h.received id' time hold
    exact ⟨hash, created, List.mem_append_left _ hcreated, htime⟩

/-- An unused session has no relay, so dropping it is no loss. -/
theorem Holds.drop {id : String} {session : TerminalSession} (h : Holds limits hashTicket labels s)
    (hget : Dict.get id s.sessions = some session) (hunused : session.consumed = false) :
    Holds limits hashTicket labels { s with sessions := Dict.erase id s.sessions } :=
  { h with
    nodup := h.nodup.sublist Dict.keys_filter_sublist
    few := (List.length_filter_le _ _).trans h.few
    stored := by
      intro id' session' hget'
      rw [Dict.get_erase] at hget'
      split at hget'
      · simp at hget'
      · exact h.stored id' session' hget'
    unused := by
      intro id' session' hget'
      rw [Dict.get_erase] at hget'
      split at hget'
      · simp at hget'
      · exact h.unused id' session' hget'
    relay := by
      intro r hr
      obtain ⟨hopen, hcreated, hstored⟩ := h.relay r hr
      refine ⟨hopen, hcreated, hstored.imp_left ?_⟩
      rintro ⟨session', hget', hsession⟩
      refine ⟨session', ?_, hsession⟩
      have hne : ¬ id = r.sessionId := by
        intro heq
        rw [← heq, h.unused id session hget hunused] at hopen
        exact absurd hopen (lt_irrefl 0)
      rw [Dict.get_erase, if_neg hne]
      exact hget' }

/-- A ticket is taken. -/
theorem Holds.take {now : ℚ} {id ticket : String} {session : TerminalSession}
    (h : Holds limits hashTicket labels s) (hget : Dict.get id s.sessions = some session)
    (hunused : session.consumed = false) (htime : now ≤ session.expiresAt)
    (hhash : session.ticketHash = hashTicket ticket) :
    Holds limits hashTicket labels
      ⟨Dict.set id { session with consumed := true, lastActivityAt := now } s.sessions,
        { session with consumed := true, lastActivityAt := now } :: s.relays,
        s.log ++ [.opened id ticket now]⟩ := by
  obtain ⟨hid, hexpires, hcreated⟩ := h.stored id session hget
  have hzero := h.unused id session hget hunused
  have hopenings : ∀ id', openings id' (s.log ++ [.opened id ticket now]) =
      openings id' s.log + if id = id' then 1 else 0 := by
    intro id'
    rw [openings_append]
    congr 1
    by_cases heq : id = id' <;> simp [openings, heq]
  constructor
  · exact Dict.nodup_keys_set h.nodup
  · have hmem : id ∈ Dict.keys s.sessions := Dict.mem_keys_iff.mpr ⟨session, hget⟩
    have hkeys := congrArg List.length (Dict.keys_set (k := id) (d := s.sessions)
      (v := { session with consumed := true, lastActivityAt := now }))
    rw [if_pos hmem] at hkeys
    simp only [Dict.keys, List.length_map] at hkeys
    exact hkeys.trans_le h.few
  · intro id' session' hget'
    rw [Dict.get_set] at hget'
    split at hget'
    · rename_i heq
      obtain rfl := Option.some.inj hget'
      exact ⟨hid.trans heq, hexpires, heq ▸ List.mem_append_left _ hcreated⟩
    · obtain ⟨hid', hexpires', hcreated'⟩ := h.stored id' session' hget'
      exact ⟨hid', hexpires', List.mem_append_left _ hcreated'⟩
  · intro id' hid'
    rw [createdIds_append] at hid'
    exact h.ids id' (by simpa [createdIds] using hid')
  · intro id' session' hget' hconsumed'
    rw [Dict.get_set] at hget'
    split at hget'
    · obtain rfl := Option.some.inj hget'
      simp at hconsumed'
    · rename_i hne
      rw [hopenings, if_neg hne]
      exact h.unused id' session' hget' hconsumed'
  · intro id'
    rw [hopenings]
    split
    · rename_i heq
      rw [← heq, hzero]
    · exact h.once id'
  · intro id' ticket' time hopened
    rcases List.mem_append.mp hopened with hopened | hopened
    · obtain ⟨created, hcreated', htime'⟩ := h.opened id' ticket' time hopened
      exact ⟨created, List.mem_append_left _ hcreated', htime'⟩
    · obtain ⟨rfl, rfl, rfl⟩ := Event.opened.inj (List.mem_singleton.mp hopened)
      exact ⟨session.createdAt, List.mem_append_left _ (hhash ▸ hcreated), hexpires ▸ htime⟩
  · rw [List.map_cons, List.nodup_cons]
    refine ⟨?_, h.relayIds⟩
    intro hmem
    obtain ⟨r, hr, hsame⟩ := List.mem_map.mp hmem
    have hopen := (h.relay r hr).1
    rw [hsame, hid, hzero] at hopen
    exact absurd hopen (lt_irrefl 0)
  · intro r hr
    rcases List.mem_cons.mp hr with rfl | hr
    · refine ⟨?_, ⟨session.ticketHash, ?_⟩, .inl ⟨_, ?_, rfl, rfl⟩⟩
      · rw [hopenings, if_pos hid.symm]
        omega
      · exact List.mem_append_left _ (hid.symm ▸ hcreated)
      · simp only [hid]
        exact Dict.get_set_self
    · obtain ⟨hopen, ⟨hash, hcreated'⟩, hstored⟩ := h.relay r hr
      refine ⟨?_, ⟨hash, List.mem_append_left _ hcreated'⟩, hstored.imp_left ?_⟩
      · rw [hopenings]
        omega
      · rintro ⟨session', hget', hsession⟩
        refine ⟨session', ?_, hsession⟩
        have hne : id ≠ r.sessionId := by
          intro heq
          rw [← heq, hzero] at hopen
          exact absurd hopen (lt_irrefl 0)
        rw [Dict.get_set_of_ne hne]
        exact hget'
  · intro id' time hreceived
    have hold : .received id' time ∈ s.log := by simpa using hreceived
    obtain ⟨hash, created, hcreated', htime'⟩ := h.received id' time hold
    exact ⟨hash, created, List.mem_append_left _ hcreated', htime'⟩

/-- Activity changes no session but its last activity. -/
theorem Holds.touch (h : Holds limits hashTicket labels s) (now : ℚ) (id : String) :
    Holds limits hashTicket labels (s.touch now id) := by
  unfold State.touch
  cases hget : Dict.get id s.sessions with
  | none => exact h
  | some session =>
    obtain ⟨hid, hexpires, hcreated⟩ := h.stored id session hget
    have hlookup : ∀ id' session', Dict.get id' (Dict.set id
        { session with lastActivityAt := now } s.sessions) = some session' →
        ∃ old, Dict.get id' s.sessions = some old ∧
          session' = { old with lastActivityAt := session'.lastActivityAt } := by
      intro id' session' hget'
      rw [Dict.get_set] at hget'
      split at hget'
      · rename_i heq
        obtain rfl := Option.some.inj hget'
        exact ⟨session, heq ▸ hget, rfl⟩
      · exact ⟨session', hget', rfl⟩
    have hids : (s.relays.map fun r =>
        if r.sessionId = id then { r with lastActivityAt := now } else r).map (·.sessionId) =
          s.relays.map (·.sessionId) := by
      rw [List.map_map]
      apply List.map_congr_left
      intro r _
      simp only [Function.comp_apply]
      split <;> rfl
    refine { h with nodup := ?_, few := ?_, stored := ?_, unused := ?_, relayIds := ?_,
                    relay := ?_ }
    · exact Dict.nodup_keys_set h.nodup
    · have hmem : id ∈ Dict.keys s.sessions := Dict.mem_keys_iff.mpr ⟨session, hget⟩
      have hkeys := congrArg List.length (Dict.keys_set (k := id) (d := s.sessions)
        (v := { session with lastActivityAt := now }))
      rw [if_pos hmem] at hkeys
      simp only [Dict.keys, List.length_map] at hkeys
      exact hkeys.trans_le h.few
    · intro id' session' hget'
      obtain ⟨old, hold, heq⟩ := hlookup id' session' hget'
      obtain ⟨hid', hexpires', hcreated'⟩ := h.stored id' old hold
      rw [heq]
      exact ⟨hid', hexpires', hcreated'⟩
    · intro id' session' hget' hconsumed
      obtain ⟨old, hold, heq⟩ := hlookup id' session' hget'
      rw [heq] at hconsumed
      exact h.unused id' old hold hconsumed
    · rw [hids]
      exact h.relayIds
    · intro r' hr'
      obtain ⟨r, hr, rfl⟩ := List.mem_map.mp hr'
      have hsame : (if r.sessionId = id then { r with lastActivityAt := now } else r) =
          { r with lastActivityAt := (if r.sessionId = id then now else r.lastActivityAt) } := by
        split <;> rfl
      obtain ⟨hopen, hcreated', hstored⟩ := h.relay r hr
      rw [hsame]
      refine ⟨hopen, hcreated', ?_⟩
      rcases hstored with ⟨session', hget', hconsumed, htime⟩ | hout
      · left
        by_cases heq : id = r.sessionId
        · refine ⟨{ session with lastActivityAt := now }, heq ▸ Dict.get_set_self, ?_, ?_⟩
          · rw [← heq, hget] at hget'
            exact Option.some.inj hget' ▸ hconsumed
          · rw [← heq, hget] at hget'
            exact Option.some.inj hget' ▸ htime
        · exact ⟨session', (Dict.get_set_of_ne heq).trans hget', hconsumed, htime⟩
      · exact .inr hout

/-- A frame that comes before the relay stops waiting. -/
theorem Holds.receive {r : TerminalSession} {asked received : ℚ}
    (h : Holds limits hashTicket labels s) (hr : r ∈ s.relays)
    (hwait : 0 < readTimeout limits asked r)
    (htime : received ≤ asked + readTimeout limits asked r) :
    Holds limits hashTicket labels
      { s with log := s.log ++ [.received r.sessionId received] } := by
  have hopenings : ∀ id, openings id (s.log ++ [.received r.sessionId received]) =
      openings id s.log := by
    intro id
    rw [openings_append]
    rfl
  refine { h with stored := ?_, ids := ?_, unused := ?_, once := ?_, opened := ?_, relay := ?_,
                  received := ?_ }
  · intro id session hget
    obtain ⟨hid, hexpires, hcreated⟩ := h.stored id session hget
    exact ⟨hid, hexpires, List.mem_append_left _ hcreated⟩
  · intro id hid
    rw [createdIds_append] at hid
    exact h.ids id (by simpa [createdIds] using hid)
  · intro id session hget hunused
    rw [hopenings]
    exact h.unused id session hget hunused
  · intro id
    rw [hopenings]
    exact h.once id
  · intro id ticket time hopened
    have hold : .opened id ticket time ∈ s.log := by simpa using hopened
    obtain ⟨created, hcreated, hle⟩ := h.opened id ticket time hold
    exact ⟨created, List.mem_append_left _ hcreated, hle⟩
  · intro r' hr'
    obtain ⟨hopen, ⟨hash, hcreated⟩, hstored⟩ := h.relay r' hr'
    exact ⟨hopenings _ ▸ hopen, ⟨hash, List.mem_append_left _ hcreated⟩, hstored⟩
  · intro id time hreceived
    rcases List.mem_append.mp hreceived with hold | hnew
    · obtain ⟨hash, created, hcreated, hle⟩ := h.received id time hold
      exact ⟨hash, created, List.mem_append_left _ hcreated, hle⟩
    · obtain ⟨rfl, rfl⟩ := Event.received.inj (List.mem_singleton.mp hnew)
      obtain ⟨-, ⟨hash, hcreated⟩, -⟩ := h.relay r hr
      refine ⟨hash, r.createdAt, List.mem_append_left _ hcreated, ?_⟩
      -- a positive wait ends at the deadline of the lifetime at the latest
      have hlife : readTimeout limits asked r ≤ lifetimeRemainingSeconds limits asked r :=
        min_le_right _ _
      unfold lifetimeRemainingSeconds at hlife
      rcases max_cases 0 (r.createdAt + limits.maxLifetimeSeconds - asked) with hmax | hmax
      · rw [hmax.1] at hlife
        exact absurd (hwait.trans_le hlife) (lt_irrefl 0)
      · rw [hmax.1] at hlife
        calc _
            ≤ asked + readTimeout limits asked r := htime
          _ ≤ asked + (r.createdAt + limits.maxLifetimeSeconds - asked) := by gcongr
          _ = r.createdAt + limits.maxLifetimeSeconds := add_sub_cancel _ _

/-- A handler ends: its session is not stored any more. -/
theorem Holds.release (h : Holds limits hashTicket labels s) (id : String) :
    Holds limits hashTicket labels
      { s with
        sessions := Dict.erase id s.sessions
        relays := s.relays.filter fun r => r.sessionId ≠ id } := by
  refine { h with nodup := ?_, few := ?_, stored := ?_, unused := ?_, relayIds := ?_, relay := ?_ }
  · exact h.nodup.sublist Dict.keys_filter_sublist
  · exact (List.length_filter_le _ _).trans h.few
  · intro id' session hget
    rw [Dict.get_erase] at hget
    split at hget
    · simp at hget
    · exact h.stored id' session hget
  · intro id' session hget
    rw [Dict.get_erase] at hget
    split at hget
    · simp at hget
    · exact h.unused id' session hget
  · exact h.relayIds.sublist (List.filter_sublist.map _)
  · intro r hr
    obtain ⟨hr, hne⟩ := List.mem_filter.mp hr
    obtain ⟨hopen, hcreated, hstored⟩ := h.relay r hr
    refine ⟨hopen, hcreated, hstored.imp_left ?_⟩
    rintro ⟨session, hget, hsession⟩
    refine ⟨session, ?_, hsession⟩
    have hne' : ¬ id = r.sessionId := fun heq => (of_decide_eq_true hne) heq.symm
    rw [Dict.get_erase, if_neg hne']
    exact hget

/-- One more label, with an identifier that no earlier one created. -/
theorem Holds.step (h : Holds limits hashTicket labels s)
    (hfresh : ∀ id, l.newId = some id → id ∉ labels.filterMap Label.newId) :
    Holds limits hashTicket (labels ++ [l]) (step limits hashTicket s l) := by
  have hl : l ∈ labels ++ [l] := by simp
  cases l with
  | create now id ticket target =>
    have hclean := h.concat.cleanup hl rfl
    have hnew : id ∉ createdIds s.log := fun hid => hfresh id rfl (h.ids id hid)
    by_cases hroom : limits.maxSessions ≤ (cleanupLocked limits now s.sessions).length
    · have hstep : TerminalSessions.step limits hashTicket s (.create now id ticket target) =
          { s with sessions := cleanupLocked limits now s.sessions } := by
        simp [TerminalSessions.step, createSession, hroom]
      rw [hstep]
      exact hclean
    · have hstep : TerminalSessions.step limits hashTicket s (.create now id ticket target) =
          { s with
            sessions := Dict.set id (newSession limits hashTicket now id ticket target)
              (cleanupLocked limits now s.sessions)
            log := s.log ++ [.created id (hashTicket ticket) now] } := by
        simp [TerminalSessions.step, createSession, hroom, newSession]
      rw [hstep]
      exact hclean.create (not_le.mp hroom) hnew (by simp [Label.newId])
  | consume now id ticket =>
    have hclean := h.concat.cleanup hl rfl
    cases hget : Dict.get id (cleanupLocked limits now s.sessions) with
    | none =>
      have hstep : TerminalSessions.step limits hashTicket s (.consume now id ticket) =
          { s with sessions := cleanupLocked limits now s.sessions } := by
        simp [TerminalSessions.step, consumeTicket, hget]
      rw [hstep]
      exact hclean
    | some session =>
      by_cases hconsumed : session.consumed = true
      · have hstep : TerminalSessions.step limits hashTicket s (.consume now id ticket) =
            { s with sessions := cleanupLocked limits now s.sessions } := by
          simp [TerminalSessions.step, consumeTicket, hget, hconsumed]
        rw [hstep]
        exact hclean
      have hunused : session.consumed = false := by simpa using hconsumed
      by_cases hexpired : session.expiresAt < now
      · have hstep : TerminalSessions.step limits hashTicket s (.consume now id ticket) =
            { s with sessions := Dict.erase id (cleanupLocked limits now s.sessions) } := by
          simp [TerminalSessions.step, consumeTicket, hget, hunused, hexpired]
        rw [hstep]
        exact hclean.drop hget hunused
      by_cases hhash : session.ticketHash = hashTicket ticket
      · have hstep : TerminalSessions.step limits hashTicket s (.consume now id ticket) =
            ⟨Dict.set id { session with consumed := true, lastActivityAt := now }
                (cleanupLocked limits now s.sessions),
              { session with consumed := true, lastActivityAt := now } :: s.relays,
              s.log ++ [.opened id ticket now]⟩ := by
          simp [TerminalSessions.step, consumeTicket, hget, hunused, hexpired, hhash]
        rw [hstep]
        exact hclean.take hget hunused (not_lt.mp hexpired) hhash
      · have hstep : TerminalSessions.step limits hashTicket s (.consume now id ticket) =
            { s with sessions := cleanupLocked limits now s.sessions } := by
          simp [TerminalSessions.step, consumeTicket, hget, hunused, hexpired, hhash]
        rw [hstep]
        exact hclean
  | markActivity now id => exact h.concat.touch now id
  | receive asked received id =>
    cases hfind : s.relays.find? fun r => r.sessionId = id with
    | none =>
      have hstep : TerminalSessions.step limits hashTicket s (.receive asked received id) = s := by
        simp [TerminalSessions.step, hfind]
      rw [hstep]
      exact h.concat
    | some r =>
      have hid : r.sessionId = id := by simpa using List.find?_some hfind
      by_cases hwait : 0 < readTimeout limits asked r ∧
          received ≤ asked + readTimeout limits asked r
      · have hstep : TerminalSessions.step limits hashTicket s (.receive asked received id) =
            { s with log := s.log ++ [.received r.sessionId received] } := by
          simp [TerminalSessions.step, hfind, hwait, hid]
        rw [hstep]
        exact h.concat.receive (List.mem_of_find?_eq_some hfind) hwait.1 hwait.2
      · have hstep : TerminalSessions.step limits hashTicket s (.receive asked received id) =
            s := by
          simp only [TerminalSessions.step, hfind, hwait, if_false]
        rw [hstep]
        exact h.concat
  | release id =>
    by_cases hany : s.relays.any fun r => r.sessionId = id
    · have hstep : TerminalSessions.step limits hashTicket s (.release id) =
          { s with
            sessions := Dict.erase id s.sessions
            relays := s.relays.filter fun r => r.sessionId ≠ id } := by
        simp only [TerminalSessions.step, hany, if_true]
      rw [hstep]
      exact h.concat.release id
    · have hstep : TerminalSessions.step limits hashTicket s (.release id) = s := by
        simp only [TerminalSessions.step, hany, if_false, Bool.false_eq_true]
      rw [hstep]
      exact h.concat

/-- A run in which no identifier is made twice. -/
theorem holds_run (hfresh : (labels.filterMap Label.newId).Nodup) :
    Holds limits hashTicket labels (run limits hashTicket labels) := by
  induction labels using List.reverseRecOn with
  | nil => exact holds_empty
  | append_singleton labels l ih =>
    rw [List.filterMap_append, List.nodup_append] at hfresh
    unfold run
    rw [List.foldl_append]
    refine (ih hfresh.1).step ?_
    intro id hid hmem
    exact hfresh.2.2 id hmem id (by simp [hid]) rfl

end Invariant

/-- Where the identifiers of sessions are distinct, a ticket opens one terminal at most, within its
time and with the right hash, and no frame reaches a host after the lifetime of its session. -/
theorem tickets_single_use (limits : Limits) (hashTicket : String → String) (labels : List Label)
    (hfresh : (labels.filterMap Label.newId).Nodup) :
    (∀ id, openings id (run limits hashTicket labels).log ≤ 1) ∧
    (∀ id ticket (time : ℚ), .opened id ticket time ∈ (run limits hashTicket labels).log →
      ∃ created : ℚ, .created id (hashTicket ticket) created ∈ (run limits hashTicket labels).log ∧
        time ≤ created + limits.ticketTtlSeconds) ∧
    ∀ id (time : ℚ), .received id time ∈ (run limits hashTicket labels).log →
      ∃ hash, ∃ created : ℚ, .created id hash created ∈ (run limits hashTicket labels).log ∧
        time ≤ created + limits.maxLifetimeSeconds := by
  have h : Holds limits hashTicket labels (run limits hashTicket labels) := holds_run hfresh
  exact ⟨h.once, h.opened, h.received⟩

/-- SHA-256 on the ticket of the examples. -/
def sampleHash (ticket : String) : String :=
  if ticket = "q7Ue" then "7b649debb5f7120ba30360c29c475774fd182ebc49bcbddcdbb840add0c7e2ee" else ""

def sampleTarget : Target := ⟨.endpoint, 3, none, some " pve1 ", none, 120, 32, none⟩

/-- A ticket is taken, tried again, and its terminal gets a frame. -/
def reusedTicket : List Label :=
  [.create 0 "s1" "q7Ue" sampleTarget, .consume 5 "s1" "q7Ue", .consume 6 "s1" "q7Ue",
    .receive 7 8 "s1"]

theorem reusedTicket_opens_once :
    (run (.ofEnv none none none none) sampleHash reusedTicket).log =
      [.created "s1" (sampleHash "q7Ue") 0, .opened "s1" "q7Ue" 5, .received "s1" 8] ∧
    openings "s1" (run (.ofEnv none none none none) sampleHash reusedTicket).log ≤ 1 :=
  ⟨by decide +kernel, (tickets_single_use (.ofEnv none none none none) sampleHash reusedTicket
    (by decide)).1 "s1"⟩

/-- The store never has more sessions than the limit, and neither are there more handlers that have
not outlived their sessions. -/
theorem terminals_limited (limits : Limits) (hashTicket : String → String) (labels : List Label)
    (hfresh : (labels.filterMap Label.newId).Nodup) (now : ℚ)
    (hnow : ∀ l ∈ labels, ∀ time, l.now = some time → time ≤ now) :
    (run limits hashTicket labels).sessions.length ≤ limits.maxSessions ∧
    ((run limits hashTicket labels).relays.filter fun r =>
      now ≤ r.createdAt + limits.maxLifetimeSeconds).length ≤ limits.maxSessions := by
  have h : Holds limits hashTicket labels (run limits hashTicket labels) := holds_run hfresh
  refine ⟨h.few, ?_⟩
  set live := (run limits hashTicket labels).relays.filter fun r =>
    now ≤ r.createdAt + limits.maxLifetimeSeconds with hlive
  have hnodup : (live.map (·.sessionId)).Nodup :=
    h.relayIds.sublist (List.filter_sublist.map _)
  have hsubset : live.map (·.sessionId) ⊆ Dict.keys (run limits hashTicket labels).sessions := by
    intro id hid
    obtain ⟨r, hr, rfl⟩ := List.mem_map.mp hid
    obtain ⟨hr, hlife⟩ := List.mem_filter.mp hr
    rcases (h.relay r hr).2.2 with ⟨session, hget, -⟩ | ⟨l, hl, time, htime, hout⟩
    · exact Dict.mem_keys_iff.mpr ⟨session, hget⟩
    · have hle := (of_decide_eq_true hlife).trans_lt (hout.trans_le (hnow l hl time htime))
      exact absurd hle (lt_irrefl _)
  calc live.length
      = (live.map (·.sessionId)).length := (List.length_map _).symm
    _ ≤ (Dict.keys (run limits hashTicket labels).sessions).length :=
        (List.subperm_of_subset hnodup hsubset).length_le
    _ = (run limits hashTicket labels).sessions.length := List.length_map _
    _ ≤ limits.maxSessions := h.few

/-- One session is allowed, and the second one is asked for while the first one has a relay. -/
def secondTerminal : List Label :=
  [.create 0 "s1" "q7Ue" sampleTarget, .consume 5 "s1" "q7Ue", .create 9 "s2" "q7Ue" sampleTarget]

theorem secondTerminal_refused :
    (run (.ofEnv none none none (some 1)) sampleHash secondTerminal).relays.map (·.sessionId) =
      ["s1"] ∧
    Dict.keys (run (.ofEnv none none none (some 1)) sampleHash secondTerminal).sessions = ["s1"] ∧
    ((run (.ofEnv none none none (some 1)) sampleHash secondTerminal).relays.filter fun r =>
      (9 : ℚ) ≤ r.createdAt + (7200 : ℕ)).length ≤ 1 := by
  refine ⟨by decide +kernel, by decide +kernel, ?_⟩
  refine (terminals_limited (.ofEnv none none none (some 1)) sampleHash secondTerminal (by decide)
    9 ?_).2
  intro l hl time htime
  simp only [secondTerminal, List.mem_cons, List.not_mem_nil, or_false] at hl
  rcases hl with rfl | rfl | rfl <;> cases htime <;> decide

end ProxboxApi.TerminalSessions
