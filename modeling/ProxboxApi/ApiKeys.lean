import Mathlib.Data.Int.Notation
import Mathlib.Data.List.Nodup
import ProxboxApi.Runs

/-! The registration, creation and retirement of API keys by any number of worker processes on one
database.  Each handler has its own session: a sequence of reads and one commit, at each of which
it may be suspended. -/

namespace ProxboxApi.ApiKeys

/-- `ApiKey`. -/
structure Key where
  id : ℤ
  isActive : Bool
  deriving DecidableEq, Repr

/-- The committed rows: whether there is an `ApiKeyBootstrapClaim`, and the keys. -/
structure Database where
  claimed : Bool
  keys : List Key
  nodup : (keys.map (·.id)).Nodup

namespace Database

/-- `session.get(ApiKey, key_id)`. -/
def key (db : Database) (id : ℤ) : Option Key := db.keys.find? (·.id = id)

/-- `_active_key_count`. -/
def activeKeyCount (db : Database) : ℕ := (db.keys.filter (·.isActive)).length

def claim (db : Database) : Database := { db with claimed := true }

/-- An active key with a fresh primary key. -/
def insert (db : Database) (id : ℤ) (h : id ∉ db.keys.map (·.id)) : Database where
  claimed := db.claimed
  keys := db.keys ++ [⟨id, true⟩]
  nodup := by
    rw [List.map_append, List.map_singleton]
    exact List.nodup_append'.mpr ⟨db.nodup, by simp, by simpa using h⟩

def remove (db : Database) (id : ℤ) : Database where
  claimed := db.claimed
  keys := db.keys.filter (·.id ≠ id)
  nodup := db.nodup.sublist (List.filter_sublist.map _)

def setActive (db : Database) (id : ℤ) (active : Bool) : Database where
  claimed := db.claimed
  keys := db.keys.map fun k => if k.id = id then { k with isActive := active } else k
  nodup := by
    have hids : ((fun k : Key => k.id) ∘ fun k => if k.id = id then { k with isActive := active }
        else k) = fun k => k.id := by
      funext k
      dsimp only [Function.comp]
      split <;> rfl
    rw [List.map_map, hids]
    exact db.nodup

def HasActive (db : Database) : Prop := ∃ k ∈ db.keys, k.isActive = true

/-- Some key other than the given one is active. -/
def HasOther (db : Database) (id : ℤ) : Prop := ∃ k ∈ db.keys, k.isActive = true ∧ k.id ≠ id

variable {db : Database} {id : ℤ}

theorem hasActive_insert (h : id ∉ db.keys.map (·.id)) : (db.insert id h).HasActive :=
  ⟨⟨id, true⟩, by simp [insert], rfl⟩

theorem hasActive_remove (h : db.HasOther id) : (db.remove id).HasActive := by
  obtain ⟨k, hk, hactive, hne⟩ := h
  exact ⟨k, List.mem_filter.mpr ⟨hk, by simpa using hne⟩, hactive⟩

theorem hasActive_deactivate (h : db.HasOther id) : (db.setActive id false).HasActive := by
  obtain ⟨k, hk, hactive, hne⟩ := h
  refine ⟨k, List.mem_map.mpr ⟨k, hk, ?_⟩, hactive⟩
  rw [if_neg hne]

theorem hasActive_activate (h : db.HasActive) : (db.setActive id true).HasActive := by
  obtain ⟨k, hk, hactive⟩ := h
  refine ⟨_, List.mem_map.mpr ⟨k, hk, rfl⟩, ?_⟩
  split
  · rfl
  · exact hactive

/-- Of two active keys one is another than the given one. -/
theorem hasOther_of_count (h : 1 < db.activeKeyCount) : db.HasOther id := by
  by_contra hnone
  have hall : ∀ k ∈ db.keys.filter (·.isActive), k.id = id := by
    intro k hk
    by_contra hne
    obtain ⟨hmem, hactive⟩ := List.mem_filter.mp hk
    exact hnone ⟨k, hmem, hactive, hne⟩
  have hids : (db.keys.filter (·.isActive)).map (·.id) =
      List.replicate db.activeKeyCount id := by
    rw [List.eq_replicate_iff]
    refine ⟨by rw [List.length_map, activeKeyCount], ?_⟩
    intro i hi
    obtain ⟨k, hk, rfl⟩ := List.mem_map.mp hi
    exact hall k hk
  have hnodup := db.nodup.sublist (List.filter_sublist (p := (·.isActive)).map _)
  rw [hids, List.nodup_replicate] at hnodup
  omega

/-- Where the row of a key is inactive, the active keys are others. -/
theorem hasOther_of_inactive {k : Key} (hkey : db.key id = some k) (hk : k.isActive = false)
    (h : db.HasActive) : db.HasOther id := by
  obtain ⟨k', hk', hactive⟩ := h
  refine ⟨k', hk', hactive, ?_⟩
  intro hid
  have hmem : k ∈ db.keys := List.mem_of_find?_eq_some hkey
  have hkid : k.id = id := by simpa using List.find?_some hkey
  have heq : k' = k := List.inj_on_of_nodup_map db.nodup hk' hmem (hid.trans hkid.symm)
  rw [heq, hk] at hactive
  cases hactive

end Database

inductive Call where
  | register (apiKey : String)
  | create
  | delete (keyId : ℤ)
  | deactivate (keyId : ℤ)
  | activate (keyId : ℤ)
  deriving DecidableEq, Repr

/-- The await at which a handler is suspended: before its first read, at the read of the key
rows, at the hash and the commit of a new key, within a serialized write, or with the row of the
key to activate; or how it ended. -/
inductive Phase where
  | start
  | checkingRecords
  | hashing
  | serialized
  | counting
  | retiring
  | loaded (isActive : Bool)
  | responded (status : ℕ)
  | raised
  deriving DecidableEq, Repr

/-- A handler and the worker process that it runs in. -/
structure Handler where
  process : ℕ
  call : Call
  phase : Phase
  deriving DecidableEq, Repr

/-- `writer` is the handler that has begun an immediate transaction. -/
structure Server where
  db : Database
  handlers : List Handler
  writer : Option ℕ

namespace Server

def initial (db : Database) : Server := ⟨db, [], none⟩

def put (s : Server) (i : ℕ) (h : Handler) (phase : Phase) : Server :=
  { s with handlers := s.handlers.set i { h with phase } }

/-- `rollback`, and the response. -/
def rollback (s : Server) (i : ℕ) (h : Handler) (status : ℕ) : Server :=
  { s.put i h (.responded status) with writer := none }

/-- `commit`, and the response. -/
def commit (s : Server) (i : ℕ) (h : Handler) (db : Database) (status : ℕ) : Server :=
  { s.put i h (.responded status) with db, writer := none }

/-- `_BOOTSTRAP_LOCK` of the process is held. -/
def bootstrapLocked (s : Server) (process : ℕ) : Bool :=
  s.handlers.any fun h => h.process = process && (h.call matches .register _) &&
    (h.phase = .checkingRecords || h.phase = .hashing)

end Server

inductive Label where
  | arrive (process : ℕ) (call : Call)
  | resume (i : ℕ)
  | commitNew (i : ℕ) (newId : ℤ)
  | fail (i : ℕ)
  | migrate
  deriving DecidableEq, Repr

/-- `register_key` up to the hash. -/
def register (s : Server) (i : ℕ) (h : Handler) (apiKey : String) : Phase → Option Server
  | .start =>
    if apiKey.length < 32 then some (s.put i h (.responded 400))
    else if s.bootstrapLocked h.process then none
    else if s.db.claimed then some (s.put i h (.responded 409))
    else some (s.put i h .checkingRecords)
  | .checkingRecords =>
    if s.db.keys = [] then some (s.put i h .hashing) else some (s.put i h (.responded 409))
  | _ => none

/-- `_delete_key_safely` and `_deactivate_key_safely`; `retire` is what the commit writes. -/
def retireSafely (s : Server) (i : ℕ) (h : Handler) (keyId : ℤ) (retire : Database → Database)
    (status : ℕ) : Phase → Option Server
  | .start =>
    if s.writer = none then some { s.put i h .serialized with writer := some i } else none
  | .serialized => match s.db.key keyId with
    | none => some (s.rollback i h 404)
    | some key => some (s.put i h (if key.isActive then .counting else .retiring))
  | .counting =>
    if s.db.activeKeyCount ≤ 1 then some (s.rollback i h 409) else some (s.put i h .retiring)
  | .retiring => some (s.commit i h (retire s.db) status)
  | _ => none

/-- `activate_key`: the column is written only if it changes, and no row at all is an error. -/
def activate (s : Server) (i : ℕ) (h : Handler) (keyId : ℤ) : Phase → Option Server
  | .start => match s.db.key keyId with
    | none => some (s.put i h (.responded 404))
    | some key => some (s.put i h (.loaded key.isActive))
  | .loaded isActive =>
    if s.db.key keyId = none then some (s.put i h .raised)
    else if isActive then some (s.put i h (.responded 200))
    else if s.writer = none then some (s.commit i h (s.db.setActive keyId true) 200)
    else none
  | _ => none

/-- A handler runs from the await it is suspended at to its next one. -/
def resume (s : Server) (i : ℕ) (h : Handler) : Option Server :=
  match h.call with
  | .register apiKey => register s i h apiKey h.phase
  | .create => if h.phase = .start then some (s.put i h .hashing) else none
  | .delete keyId => retireSafely s i h keyId (·.remove keyId) 204 h.phase
  | .deactivate keyId => retireSafely s i h keyId (·.setActive keyId false) 200 h.phase
  | .activate keyId => activate s i h keyId h.phase

/-- The commit of `bootstrap_first_key_async` and of `store_key_async`: the rows of the claim and
of the key, or of the key alone. -/
def commitNew (s : Server) (i : ℕ) (h : Handler) (newId : ℤ) : Option Server :=
  if hnew : newId ∉ s.db.keys.map (·.id) then
    if h.phase = .hashing ∧ s.writer = none then
      match h.call with
      | .register _ =>
        if s.db.claimed then some (s.put i h (.responded 409))
        else some (s.commit i h (s.db.insert newId hnew).claim 201)
      | .create => some (s.commit i h (s.db.insert newId hnew) 201)
      | _ => none
    else none
  else none

def step (s : Server) : Label → Option Server
  | .arrive process call => some { s with handlers := s.handlers ++ [⟨process, call, .start⟩] }
  | .resume i => s.handlers[i]?.bind fun h => resume s i h
  | .commitNew i newId => s.handlers[i]?.bind fun h => commitNew s i h newId
  | .fail i => s.handlers[i]?.bind fun h => match h.phase with
    -- An exception or the end of the process rolls the transaction back.
    | .responded _ | .raised => none
    | _ => some { s.put i h .raised with
        writer := if s.writer = some i then none else s.writer }
  -- `_migrate_api_key_bootstrap_claim` at the start of a process.
  | .migrate =>
    if s.writer = none then some { s with db := if s.db.keys = [] then s.db else s.db.claim }
    else none

/-- The handler has registered the first key. -/
def Server.Registered (s : Server) (i : ℕ) : Prop :=
  ∃ h apiKey, s.handlers[i]? = some h ∧ h.call = .register apiKey ∧ h.phase = .responded 201

/-- The call deletes or deactivates the key. -/
def Call.Retires (c : Call) (keyId : ℤ) : Prop := c = .delete keyId ∨ c = .deactivate keyId

/-- The phases within an immediate transaction. -/
def Phase.serial : Phase → Bool
  | .serialized | .counting | .retiring => true
  | _ => false

/-- All that one handler does to its phase, to the rows and to the writer. -/
inductive Moves (s : Server) (i : ℕ) (h : Handler) : Phase → Database → Option ℕ → Prop where
  | idle {q : Phase} : h.phase.serial = false → q.serial = false → q ≠ .responded 201 →
    Moves s i h q s.db s.writer
  | begin {keyId : ℤ} : h.call.Retires keyId → s.writer = none →
    Moves s i h .serialized s.db (some i)
  | inspect {q : Phase} {keyId : ℤ} : h.call.Retires keyId → h.phase.serial = true →
    q.serial = true → (q = .retiring → s.db.HasActive → s.db.HasOther keyId) →
    Moves s i h q s.db s.writer
  | refuse {status : ℕ} {keyId : ℤ} : h.call.Retires keyId → h.phase.serial = true →
    Moves s i h (.responded status) s.db none
  | retire {status : ℕ} {keyId : ℤ} {db : Database} : h.call.Retires keyId →
    h.phase = .retiring → db.claimed = s.db.claimed → (s.db.HasOther keyId → db.HasActive) →
    Moves s i h (.responded status) db none
  | activate {keyId : ℤ} : h.call = .activate keyId → s.writer = none →
    Moves s i h (.responded 200) (s.db.setActive keyId true) none
  | create {newId : ℤ} (hnew : newId ∉ s.db.keys.map (·.id)) : h.call = .create →
    s.writer = none → Moves s i h (.responded 201) (s.db.insert newId hnew) none
  | register {newId : ℤ} {apiKey : String} (hnew : newId ∉ s.db.keys.map (·.id)) :
    h.call = .register apiKey → s.writer = none → s.db.claimed = false →
    Moves s i h (.responded 201) (s.db.insert newId hnew).claim none
  | fail : Moves s i h .raised s.db (if s.writer = some i then none else s.writer)

/-- A server after a handler has moved. -/
def Moved (s : Server) (i : ℕ) (h : Handler) (t : Server) : Prop :=
  ∃ q, Moves s i h q t.db t.writer ∧ t.handlers = s.handlers.set i { h with phase := q }

variable {s t : Server} {i : ℕ} {h : Handler}

theorem moved_register {apiKey : String} {p : Phase} (hp : h.phase = p)
    (ht : register s i h apiKey p = some t) : Moved s i h t := by
  unfold register at ht
  split at ht
  · have hidle : h.phase.serial = false := by rw [hp]; rfl
    split_ifs at ht
    · cases ht
      exact ⟨_, .idle hidle rfl (by decide), rfl⟩
    · cases ht
      exact ⟨_, .idle hidle rfl (by decide), rfl⟩
    · cases ht
      exact ⟨_, .idle hidle rfl (by decide), rfl⟩
  · have hidle : h.phase.serial = false := by rw [hp]; rfl
    split_ifs at ht
    · cases ht
      exact ⟨_, .idle hidle rfl (by decide), rfl⟩
    · cases ht
      exact ⟨_, .idle hidle rfl (by decide), rfl⟩
  · cases ht

theorem moved_retireSafely {keyId : ℤ} {retire : Database → Database} {status : ℕ} {p : Phase}
    (hcall : h.call.Retires keyId) (hclaimed : (retire s.db).claimed = s.db.claimed)
    (hretire : s.db.HasOther keyId → (retire s.db).HasActive) (hp : h.phase = p)
    (ht : retireSafely s i h keyId retire status p = some t) : Moved s i h t := by
  unfold retireSafely at ht
  split at ht
  · split_ifs at ht with hwriter
    cases ht
    exact ⟨_, .begin hcall hwriter, rfl⟩
  · have hserial : h.phase.serial = true := by rw [hp]; rfl
    cases hkey : s.db.key keyId with
    | none =>
      rw [hkey] at ht
      cases ht
      exact ⟨_, .refuse hcall hserial, rfl⟩
    | some key =>
      rw [hkey] at ht
      cases ht
      cases hactive : key.isActive with
      | true => exact ⟨.counting, .inspect hcall hserial rfl (by rintro ⟨⟩), by simp [Server.put]⟩
      | false =>
        refine ⟨.retiring, .inspect hcall hserial rfl ?_, by simp [Server.put]⟩
        intro _ hany
        exact Database.hasOther_of_inactive hkey hactive hany
  · have hserial : h.phase.serial = true := by rw [hp]; rfl
    split_ifs at ht with hcount
    · cases ht
      exact ⟨_, .refuse hcall hserial, rfl⟩
    · cases ht
      refine ⟨_, .inspect hcall hserial rfl ?_, rfl⟩
      intro _ _
      exact Database.hasOther_of_count (by omega)
  · cases ht
    exact ⟨_, .retire hcall hp hclaimed hretire, rfl⟩
  · cases ht

theorem moved_activate {keyId : ℤ} {p : Phase} (hcall : h.call = .activate keyId)
    (hp : h.phase = p) (ht : activate s i h keyId p = some t) : Moved s i h t := by
  unfold activate at ht
  split at ht
  · have hidle : h.phase.serial = false := by rw [hp]; rfl
    split at ht
    · cases ht
      exact ⟨_, .idle hidle rfl (by decide), rfl⟩
    · cases ht
      exact ⟨_, .idle hidle rfl (by rintro ⟨⟩), rfl⟩
  · have hidle : h.phase.serial = false := by rw [hp]; rfl
    split_ifs at ht with hkey hactive hwriter
    · cases ht
      exact ⟨_, .idle hidle rfl (by decide), rfl⟩
    · cases ht
      exact ⟨_, .idle hidle rfl (by decide), rfl⟩
    · cases ht
      exact ⟨_, .activate hcall hwriter, rfl⟩
  · cases ht

theorem moved_resume (ht : resume s i h = some t) : Moved s i h t := by
  unfold resume at ht
  cases hcall : h.call with
  | register apiKey =>
    rw [hcall] at ht
    exact moved_register rfl ht
  | create =>
    rw [hcall] at ht
    dsimp only at ht
    split_ifs at ht with hstart
    cases ht
    exact ⟨_, .idle (by rw [hstart]; rfl) rfl (by decide), rfl⟩
  | delete keyId =>
    rw [hcall] at ht
    exact moved_retireSafely (.inl hcall) rfl Database.hasActive_remove rfl ht
  | deactivate keyId =>
    rw [hcall] at ht
    exact moved_retireSafely (.inr hcall) rfl Database.hasActive_deactivate rfl ht
  | activate keyId =>
    rw [hcall] at ht
    exact moved_activate hcall rfl ht

theorem moved_commitNew {newId : ℤ} (ht : commitNew s i h newId = some t) : Moved s i h t := by
  unfold commitNew at ht
  by_cases hnew : newId ∉ s.db.keys.map (·.id)
  · rw [dif_pos hnew] at ht
    by_cases hphase : h.phase = .hashing ∧ s.writer = none
    · rw [if_pos hphase] at ht
      obtain ⟨hhashing, hwriter⟩ := hphase
      split at ht
      next apiKey hcall =>
        split_ifs at ht with hclaimed
        · cases ht
          exact ⟨_, .idle (by rw [hhashing]; rfl) rfl (by decide), rfl⟩
        · cases ht
          exact ⟨_, .register hnew hcall hwriter (by simpa using hclaimed), rfl⟩
      next hcall =>
        cases ht
        exact ⟨_, .create hnew hcall hwriter, rfl⟩
      next => cases ht
    · rw [if_neg hphase] at ht
      cases ht
  · rw [dif_neg hnew] at ht
    cases ht

/-- One step is a new handler, a move of a handler, or the start of a process. -/
theorem step_cases {l : Label} (ht : step s l = some t) :
    (∃ process call, t = { s with handlers := s.handlers ++ [⟨process, call, .start⟩] }) ∨
    (∃ i h, s.handlers[i]? = some h ∧ Moved s i h t) ∨
    (s.writer = none ∧
      (t = s ∨ t = { s with db := s.db.claim })) := by
  cases l with
  | arrive process call =>
    cases ht
    exact .inl ⟨process, call, rfl⟩
  | resume i =>
    obtain ⟨h, hi, ht⟩ := Option.bind_eq_some_iff.mp ht
    exact .inr (.inl ⟨i, h, hi, moved_resume ht⟩)
  | commitNew i newId =>
    obtain ⟨h, hi, ht⟩ := Option.bind_eq_some_iff.mp ht
    exact .inr (.inl ⟨i, h, hi, moved_commitNew ht⟩)
  | fail i =>
    obtain ⟨h, hi, ht⟩ := Option.bind_eq_some_iff.mp ht
    refine .inr (.inl ⟨i, h, hi, ?_⟩)
    split at ht
    · cases ht
    · cases ht
    · cases ht
      exact ⟨_, .fail, rfl⟩
  | migrate =>
    unfold step at ht
    split_ifs at ht with hwriter hkeys
    · cases ht
      exact .inr (.inr ⟨hwriter, .inl rfl⟩)
    · cases ht
      exact .inr (.inr ⟨hwriter, .inr rfl⟩)

/-- What holds in every state of a run: an immediate transaction is the writer's, a key about to
be retired leaves another active one, and at most one handler has registered the first key. -/
structure Consistent (s : Server) : Prop where
  writer : ∀ (i : ℕ) (h : Handler), s.handlers[i]? = some h → h.phase.serial = true → s.writer = some i
  other : ∀ (i : ℕ) (h : Handler) (keyId : ℤ), s.handlers[i]? = some h → h.phase = .retiring →
    h.call.Retires keyId → s.db.HasActive → s.db.HasOther keyId
  claimed : ∀ i, s.Registered i → s.db.claimed = true
  once : ∀ i j, s.Registered i → s.Registered j → i = j

theorem consistent_initial (db : Database) : Consistent (.initial db) where
  writer _ _ hi := by simp [Server.initial] at hi
  other _ _ _ hi := by simp [Server.initial] at hi
  claimed := by
    rintro i ⟨h, apiKey, hi, -⟩
    simp [Server.initial] at hi
  once := by
    rintro i j ⟨h, apiKey, hi, -⟩
    simp [Server.initial] at hi

theorem Call.Retires.unique {c : Call} {a b : ℤ} (ha : c.Retires a) (hb : c.Retires b) : a = b := by
  rcases ha with rfl | rfl <;> rcases hb with hb | hb <;> cases hb <;> rfl

theorem Call.Retires.not_register {c : Call} {keyId : ℤ} {apiKey : String} (h : c.Retires keyId) :
    c ≠ .register apiKey := by
  rcases h with rfl | rfl <;> exact Call.noConfusion

section Moves

variable {q : Phase} {db : Database} {w : Option ℕ}

/-- While another handler is in an immediate transaction, a move leaves the rows and the writer. -/
theorem Moves.frame (hm : Moves s i h q db w) (hinv : Consistent s) (hi : s.handlers[i]? = some h)
    {j : ℕ} (hj : s.writer = some j) (hij : j ≠ i) : db = s.db ∧ w = s.writer := by
  have hself : s.writer ≠ some i := by
    rw [hj]
    intro heq
    exact hij (Option.some.inj heq)
  cases hm with
  | idle => exact ⟨rfl, rfl⟩
  | begin _ hwriter => rw [hwriter] at hj; cases hj
  | inspect => exact ⟨rfl, rfl⟩
  | refuse _ hserial => exact absurd (hinv.writer i h hi hserial) hself
  | retire _ hphase => exact absurd (hinv.writer i h hi (by rw [hphase]; rfl)) hself
  | activate _ hwriter => rw [hwriter] at hj; cases hj
  | create _ _ hwriter => rw [hwriter] at hj; cases hj
  | register _ _ hwriter => rw [hwriter] at hj; cases hj
  | fail => exact ⟨rfl, if_neg hself⟩

theorem Moves.claimed (hm : Moves s i h q db w) (hs : s.db.claimed = true) :
    db.claimed = true := by
  cases hm with
  | retire _ _ hsame => rw [hsame, hs]
  | register => rfl
  | idle | begin | inspect | refuse | activate | create | fail => exact hs

/-- A handler registers the first key where there was no claim, and leaves one. -/
theorem Moves.registers {apiKey : String} (hm : Moves s i h q db w)
    (hcall : h.call = .register apiKey) (hq : q = .responded 201) :
    s.db.claimed = false ∧ db.claimed = true := by
  cases hm with
  | idle _ _ hne => exact absurd hq hne
  | begin | fail => cases hq
  | inspect _ _ hserial =>
    rw [hq] at hserial
    cases hserial
  | refuse hretires => exact absurd hcall hretires.not_register
  | retire hretires => exact absurd hcall hretires.not_register
  | activate hactivate =>
    rw [hactivate] at hcall
    cases hcall
  | create _ hcreate =>
    rw [hcreate] at hcall
    cases hcall
  | register _ _ _ hclaimed => exact ⟨hclaimed, rfl⟩

theorem Moves.hasActive (hm : Moves s i h q db w) (hinv : Consistent s) (hi : s.handlers[i]? = some h)
    (hactive : s.db.HasActive) : db.HasActive := by
  cases hm with
  | idle | begin | inspect | refuse | fail => exact hactive
  | retire hretires hphase _ hkept => exact hkept (hinv.other i h _ hi hphase hretires hactive)
  | activate => exact Database.hasActive_activate hactive
  | create hnew => exact Database.hasActive_insert hnew
  | register hnew => exact Database.hasActive_insert hnew

/-- The phase of an immediate transaction is the writer's. -/
theorem Moves.writer (hm : Moves s i h q db w) (hinv : Consistent s) (hi : s.handlers[i]? = some h)
    (hq : q.serial = true) : w = some i := by
  cases hm with
  | begin => rfl
  | inspect _ hserial => exact hinv.writer i h hi hserial
  | idle _ hnot =>
    rw [hnot] at hq
    cases hq
  | refuse | retire | activate | create | register | fail => cases hq

/-- A key that comes to be retired leaves another. -/
theorem Moves.other {keyId : ℤ} (hm : Moves s i h q db w) (hq : q = .retiring)
    (hretires : h.call.Retires keyId) (hactive : db.HasActive) : db.HasOther keyId := by
  cases hm with
  | inspect hretires' _ _ hother =>
    rw [hretires.unique hretires']
    exact hother hq hactive
  | idle _ hnot =>
    rw [hq] at hnot
    cases hnot
  | begin | refuse | retire | activate | create | register | fail => cases hq

end Moves

/-- The handlers that registered in a state after a move: those from before, and the moved one if
it did now. -/
theorem registered_of_moved {q : Phase} {j : ℕ}
    (hhandlers : t.handlers = s.handlers.set i { h with phase := q }) (hj : t.Registered j) :
    (j = i ∧ q = .responded 201 ∧ ∃ apiKey, h.call = .register apiKey) ∨
      (j ≠ i ∧ s.Registered j) := by
  obtain ⟨h', apiKey, hj, hcall, hphase⟩ := hj
  rw [hhandlers] at hj
  rcases Runs.party_set hj with ⟨rfl, rfl⟩ | ⟨hne, hj⟩
  · exact .inl ⟨rfl, hphase, apiKey, hcall⟩
  · exact .inr ⟨hne, h', apiKey, hj, hcall, hphase⟩

theorem registered_of_arrived {process : ℕ} {call : Call} {j : ℕ}
    (hj : Server.Registered { s with handlers := s.handlers ++ [⟨process, call, .start⟩] } j) :
    s.Registered j := by
  obtain ⟨h', apiKey, hj, hcall, hphase⟩ := hj
  rcases Runs.party_concat hj with ⟨-, rfl⟩ | ⟨-, hj⟩
  · cases hphase
  · exact ⟨h', apiKey, hj, hcall, hphase⟩

theorem consistent_moved (hinv : Consistent s) (hi : s.handlers[i]? = some h) (ht : Moved s i h t) : Consistent t := by
  obtain ⟨q, hm, hhandlers⟩ := ht
  constructor
  · intro j h' hj hserial
    rw [hhandlers] at hj
    rcases Runs.party_set hj with ⟨rfl, rfl⟩ | ⟨hne, hj⟩
    · exact hm.writer hinv hi hserial
    · have hwriter := hinv.writer j h' hj hserial
      rw [(hm.frame hinv hi hwriter hne).2, hwriter]
  · intro j h' keyId hj hphase hretires hactive
    rw [hhandlers] at hj
    rcases Runs.party_set hj with ⟨rfl, rfl⟩ | ⟨hne, hj⟩
    · exact hm.other hphase hretires hactive
    · have hwriter := hinv.writer j h' hj (by rw [hphase]; rfl)
      rw [(hm.frame hinv hi hwriter hne).1] at hactive ⊢
      exact hinv.other j h' keyId hj hphase hretires hactive
  · intro j hj
    rcases registered_of_moved hhandlers hj with ⟨-, hq, apiKey, hcall⟩ | ⟨-, hj⟩
    · exact (hm.registers hcall hq).2
    · exact hm.claimed (hinv.claimed j hj)
  · -- A second registration would have found the claim of the first.
    have fresh {j : ℕ} {apiKey : String} (hq : q = .responded 201)
        (hcall : h.call = .register apiKey) : ¬ s.Registered j := by
      intro hj
      have hclaimed := hinv.claimed j hj
      rw [(hm.registers hcall hq).1] at hclaimed
      cases hclaimed
    intro j k hj hk
    rcases registered_of_moved hhandlers hj with ⟨rfl, hq, apiKey, hcall⟩ | ⟨-, hj⟩
    · rcases registered_of_moved hhandlers hk with ⟨rfl, -⟩ | ⟨-, hk⟩
      · rfl
      · exact absurd hk (fresh hq hcall)
    · rcases registered_of_moved hhandlers hk with ⟨rfl, hq, apiKey, hcall⟩ | ⟨-, hk⟩
      · exact absurd hj (fresh hq hcall)
      · exact hinv.once j k hj hk

theorem consistent_arrived (hinv : Consistent s) (process : ℕ) (call : Call) :
    Consistent { s with handlers := s.handlers ++ [⟨process, call, .start⟩] } := by
  constructor
  · intro j h' hj hserial
    rcases Runs.party_concat hj with ⟨-, rfl⟩ | ⟨-, hj⟩
    · cases hserial
    · exact hinv.writer j h' hj hserial
  · intro j h' keyId hj hphase hretires hactive
    rcases Runs.party_concat hj with ⟨-, rfl⟩ | ⟨-, hj⟩
    · cases hphase
    · exact hinv.other j h' keyId hj hphase hretires hactive
  · intro j hj
    exact hinv.claimed j (registered_of_arrived hj)
  · intro j k hj hk
    exact hinv.once j k (registered_of_arrived hj) (registered_of_arrived hk)

theorem consistent_step {l : Label} (hinv : Consistent s) (ht : step s l = some t) : Consistent t := by
  rcases step_cases ht with ⟨process, call, rfl⟩ | ⟨i, h, hi, hmoved⟩ | ⟨-, rfl | rfl⟩
  · exact consistent_arrived hinv process call
  · exact consistent_moved hinv hi hmoved
  · exact hinv
  · exact ⟨hinv.writer, hinv.other, fun _ _ => rfl, hinv.once⟩

/-- Some key stays active, the claim stays, and after it no handler registers. -/
theorem kept_step {l : Label} (hinv : Consistent s) (ht : step s l = some t) :
    (s.db.HasActive → t.db.HasActive) ∧
      (s.db.claimed = true → t.db.claimed = true ∧ ∀ i, t.Registered i → s.Registered i) := by
  rcases step_cases ht with ⟨process, call, rfl⟩ | ⟨i, h, hi, q, hm, hhandlers⟩ | ⟨-, rfl | rfl⟩
  · exact ⟨id, fun hclaimed => ⟨hclaimed, fun _ => registered_of_arrived⟩⟩
  · refine ⟨hm.hasActive hinv hi, fun hclaimed => ⟨hm.claimed hclaimed, ?_⟩⟩
    intro j hj
    rcases registered_of_moved hhandlers hj with ⟨-, hq, apiKey, hcall⟩ | ⟨-, hj⟩
    · rw [(hm.registers hcall hq).1] at hclaimed
      cases hclaimed
    · exact hj
  · exact ⟨id, fun hclaimed => ⟨hclaimed, fun _ => id⟩⟩
  · exact ⟨id, fun _ => ⟨rfl, fun _ => id⟩⟩

theorem kept_run {more : List Label} (hinv : Consistent s) (ht : Runs.exec step s more = some t) :
    (s.db.HasActive → t.db.HasActive) ∧
      (s.db.claimed = true → ∀ i, t.Registered i → s.Registered i) := by
  have hkept := Runs.invariant_of_step
    (fun u => Consistent u ∧ (s.db.HasActive → u.db.HasActive) ∧
      (s.db.claimed = true → u.db.claimed = true ∧ ∀ i, u.Registered i → s.Registered i))
    (fun u l v hu hv => by
      obtain ⟨hinvu, hactive, hregistered⟩ := hu
      obtain ⟨hactive', hregistered'⟩ := kept_step hinvu hv
      refine ⟨consistent_step hinvu hv, fun h => hactive' (hactive h), fun h => ?_⟩
      obtain ⟨hclaimed, hbefore⟩ := hregistered h
      obtain ⟨hclaimed', hbefore'⟩ := hregistered' hclaimed
      exact ⟨hclaimed', fun i hi => hbefore i (hbefore' i hi)⟩)
    ⟨hinv, id, fun h => ⟨h, fun _ => id⟩⟩ ht
  exact ⟨hkept.2.1, fun h => (hkept.2.2 h).2⟩

/-- On any database, over any processes: at most one registration succeeds, none after a claim has
been committed, and from the first active key on there is always one. -/
theorem key_lifecycle {db : Database} {labels more : List Label} {s t : Server}
    (hs : Runs.exec step (.initial db) labels = some s) (ht : Runs.exec step s more = some t) :
    (∀ i j, t.Registered i → t.Registered j → i = j) ∧
      (∀ i, s.Registered i → s.db.claimed = true) ∧
      (s.db.claimed = true → ∀ i, t.Registered i → s.Registered i) ∧
      (s.db.HasActive → t.db.HasActive) := by
  have hinv : Consistent s := Runs.invariant_of_step Consistent (fun _ _ _ h => consistent_step h) (consistent_initial db) hs
  have hinv' : Consistent t := Runs.invariant_of_step Consistent (fun _ _ _ h => consistent_step h) hinv ht
  have hkept := kept_run hinv ht
  exact ⟨hinv'.once, hinv.claimed, hkept.2, hkept.1⟩

def firstKey : String := "0123456789abcdef0123456789abcdef"

def empty : Database := ⟨false, [], by simp⟩

/-- A first process has registered a key. -/
def registered : Server where
  db := (empty.insert 1 (by simp [empty])).claim
  handlers := [⟨0, .register firstKey, .responded 201⟩]
  writer := none

/-- A second process has been refused, and the deletion of the only key too. -/
def refused : Server where
  db := (empty.insert 1 (by simp [empty])).claim
  handlers := [⟨0, .register firstKey, .responded 201⟩, ⟨1, .register firstKey, .responded 409⟩,
    ⟨1, .delete 1, .responded 409⟩]
  writer := none

theorem key_lifecycle_refused :
    (∀ i j, refused.Registered i → refused.Registered j → i = j) ∧
      (∀ i, registered.Registered i → registered.db.claimed = true) ∧
      (registered.db.claimed = true → ∀ i, refused.Registered i → registered.Registered i) ∧
      (registered.db.HasActive → refused.db.HasActive) := by
  have hs : Runs.exec step (.initial empty) [.arrive 0 (.register firstKey), .resume 0, .resume 0,
      .commitNew 0 1] = some registered := by rfl
  have ht : Runs.exec step registered [.arrive 1 (.register firstKey), .resume 1,
      .arrive 1 (.delete 1), .resume 2, .resume 2, .resume 2] = some refused := by rfl
  exact key_lifecycle hs ht

end ProxboxApi.ApiKeys
