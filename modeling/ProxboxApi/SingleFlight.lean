import Mathlib.Data.Int.Notation
import ProxboxApi.Dict
import ProxboxApi.Runs

/-! `IdempotencyCache.single_flight` for all keys at once: the map of flights, the flight objects
and the tasks that share them.  The sections under the cache mutex contain no await, so each of
them is one step; a task is suspended before each of them, at the lock of its flight, in the
guarded block and while its shielded cleanup runs. -/

namespace ProxboxApi.SingleFlight

structure CacheKey where
  endpointId : ℤ
  verb : String
  vmid : ℤ
  key : String
  deriving DecidableEq, Repr

/-- `_Flight`: the counter of its users and the state of its lock. -/
structure Flight where
  users : ℤ
  locked : Bool
  deriving DecidableEq, Repr

/-- Where a task is suspended.  A flight is named by its place among the objects. -/
inductive Phase where
  | entering
  | waiting (flight : ℕ)
  | inside (flight : ℕ)
  | leaving (flight : ℕ)
  | released
  | finished
  deriving DecidableEq, Repr

/-- The flight that the task has registered with and not yet released. -/
def Phase.flight : Phase → Option ℕ
  | .waiting f | .inside f | .leaving f => some f
  | .entering | .released | .finished => none

structure Task where
  key : CacheKey
  phase : Phase
  deriving DecidableEq, Repr

structure State where
  objects : List Flight
  flights : List (CacheKey × ℕ)
  tasks : List Task
  deriving DecidableEq, Repr

def initial : State := ⟨[], [], []⟩

def State.move (s : State) (i : ℕ) (key : CacheKey) (p : Phase) : State :=
  { s with tasks := s.tasks.set i ⟨key, p⟩ }

/-- The user counter of a flight. -/
def State.users (s : State) (f : ℕ) : Option ℤ := s.objects[f]?.map Flight.users

/-- The lock of a flight. -/
def State.locked (s : State) (f : ℕ) : Option Bool := s.objects[f]?.map Flight.locked

/-- The first section under the mutex: find or make the flight and count the task. -/
def State.register (s : State) (i : ℕ) (key : CacheKey) : State :=
  match Dict.get key s.flights with
  | some f =>
    { s with objects := s.objects.modify f fun o => { o with users := o.users + 1 } }.move i key
      (.waiting f)
  | none =>
    { s with
      objects := s.objects ++ [Flight.mk 1 false]
      flights := Dict.set key s.objects.length s.flights }.move i key (.waiting s.objects.length)

def State.acquire (s : State) (i : ℕ) (key : CacheKey) (f : ℕ) : State :=
  { s with objects := s.objects.modify f fun o => { o with locked := true } }.move i key (.inside f)

/-- The `finally` clause up to its await: release the lock and start the cleanup task. -/
def State.leave (s : State) (i : ℕ) (key : CacheKey) (f : ℕ) : State :=
  { s with objects := s.objects.modify f fun o => { o with locked := false } }.move i key
    (.leaving f)

/-- `_release_single_flight`. -/
def State.release (s : State) (i : ℕ) (key : CacheKey) (f : ℕ) : State :=
  let objects := s.objects.modify f fun o => { o with users := o.users - 1 }
  let unused := objects[f]?.map Flight.users = some 0 ∧ Dict.get key s.flights = some f
  { s with
    objects := objects
    flights := if unused then Dict.erase key s.flights else s.flights }.move i key .released

inductive Event where
  | enter (key : CacheKey)
  | register (i : ℕ)
  | acquire (i : ℕ)
  | leave (i : ℕ)
  | release (i : ℕ)
  | resume (i : ℕ)
  | cancel (i : ℕ)
  deriving DecidableEq, Repr

/-- One step of the loop.  `leave` is the end of the guarded block, also by an exception; a
cancellation that the block catches, or that reaches a task behind its shield, changes nothing. -/
def step (s : State) : Event → Option State
  | .enter key => some { s with tasks := s.tasks ++ [⟨key, .entering⟩] }
  | .register i => match s.tasks[i]? with
    | some ⟨key, .entering⟩ => some (s.register i key)
    | _ => none
  | .acquire i => match s.tasks[i]? with
    | some ⟨key, .waiting f⟩ =>
      if s.locked f = some false then some (s.acquire i key f) else none
    | _ => none
  | .leave i => match s.tasks[i]? with
    | some ⟨key, .inside f⟩ => some (s.leave i key f)
    | _ => none
  | .release i => match s.tasks[i]? with
    | some ⟨key, .leaving f⟩ => some (s.release i key f)
    | _ => none
  | .resume i => match s.tasks[i]? with
    | some ⟨key, .released⟩ => some (s.move i key .finished)
    | _ => none
  | .cancel i => match s.tasks[i]? with
    | some ⟨key, .entering⟩ => some (s.move i key .finished)
    -- the lock was not acquired, so the `finally` clause releases the registration alone
    | some ⟨key, .waiting f⟩ => some (s.move i key (.leaving f))
    | some _ => some s
    | none => none

/-- The tasks of a key that have registered and not yet released. -/
def State.registered (s : State) (key : CacheKey) : ℕ :=
  s.tasks.countP fun t => t.key = key ∧ t.phase.flight.isSome

/-- The user counter of a key: that of the flight it has in the map. -/
def State.counter (s : State) (key : CacheKey) : ℤ :=
  ((Dict.get key s.flights).bind s.users).getD 0

/-- What one step can do, by the task it is about. -/
inductive Steps (s : State) : State → Prop where
  | enter (key : CacheKey) : Steps s { s with tasks := s.tasks ++ [⟨key, .entering⟩] }
  | register (i : ℕ) (key : CacheKey) (h : s.tasks[i]? = some ⟨key, .entering⟩) :
    Steps s (s.register i key)
  | acquire (i : ℕ) (key : CacheKey) (f : ℕ) (h : s.tasks[i]? = some ⟨key, .waiting f⟩)
    (hfree : s.locked f = some false) : Steps s (s.acquire i key f)
  | leave (i : ℕ) (key : CacheKey) (f : ℕ) (h : s.tasks[i]? = some ⟨key, .inside f⟩) :
    Steps s (s.leave i key f)
  | release (i : ℕ) (key : CacheKey) (f : ℕ) (h : s.tasks[i]? = some ⟨key, .leaving f⟩) :
    Steps s (s.release i key f)
  | stop (i : ℕ) (t : Task) (h : s.tasks[i]? = some t) (hp : t.phase.flight = none) :
    Steps s (s.move i t.key .finished)
  | abandon (i : ℕ) (key : CacheKey) (f : ℕ) (h : s.tasks[i]? = some ⟨key, .waiting f⟩) :
    Steps s (s.move i key (.leaving f))
  | absorb : Steps s s

theorem steps_of_step {s t : State} {e : Event} (h : step s e = some t) : Steps s t := by
  cases e with
  | enter key =>
    cases h
    exact .enter key
  | register i =>
    simp only [step] at h
    split at h
    next key hi =>
      cases h
      exact .register i key hi
    next => cases h
  | acquire i =>
    simp only [step] at h
    split at h
    next key f hi =>
      split at h
      next hfree =>
        cases h
        exact .acquire i key f hi hfree
      next => cases h
    next => cases h
  | leave i =>
    simp only [step] at h
    split at h
    next key f hi =>
      cases h
      exact .leave i key f hi
    next => cases h
  | release i =>
    simp only [step] at h
    split at h
    next key f hi =>
      cases h
      exact .release i key f hi
    next => cases h
  | resume i =>
    simp only [step] at h
    split at h
    next key hi =>
      cases h
      exact .stop i _ hi rfl
    next => cases h
  | cancel i =>
    simp only [step] at h
    split at h
    next key hi =>
      cases h
      exact .stop i _ hi rfl
    next key f hi =>
      cases h
      exact .abandon i key f hi
    next =>
      cases h
      exact .absorb
    next => cases h

@[simp] theorem objects_move {s : State} {i : ℕ} {key : CacheKey} {p : Phase} :
    (s.move i key p).objects = s.objects := rfl

@[simp] theorem flights_move {s : State} {i : ℕ} {key : CacheKey} {p : Phase} :
    (s.move i key p).flights = s.flights := rfl

@[simp] theorem tasks_move {s : State} {i : ℕ} {key : CacheKey} {p : Phase} :
    (s.move i key p).tasks = s.tasks.set i ⟨key, p⟩ := rfl

/-- What a task adds to the count of a key. -/
def Task.share (t : Task) (key : CacheKey) : ℕ :=
  if t.key = key ∧ t.phase.flight.isSome then 1 else 0

theorem registered_set (key : CacheKey) {s t : State} {i : ℕ} {a b : Task}
    (h : s.tasks[i]? = some a) (ht : t.tasks = s.tasks.set i b) :
    t.registered key + a.share key = s.registered key + b.share key := by
  obtain ⟨hi, ha⟩ := List.getElem?_eq_some_iff.mp h
  unfold State.registered Task.share
  rw [ht, List.countP_set hi, ha]
  have hle : (if a.key = key ∧ a.phase.flight.isSome then 1 else 0) ≤
      s.tasks.countP fun t => t.key = key ∧ t.phase.flight.isSome := by
    split
    next hp =>
      rw [Nat.one_le_iff_ne_zero, ← Nat.pos_iff_ne_zero, List.countP_pos_iff]
      exact ⟨a, List.mem_of_getElem? h, by simpa using hp⟩
    next => exact Nat.zero_le _
  simp only [decide_eq_true_eq]
  omega

theorem registered_pos {s : State} {i f : ℕ} {t : Task} (h : s.tasks[i]? = some t)
    (hf : t.phase.flight = some f) : 0 < s.registered t.key := by
  unfold State.registered
  rw [List.countP_pos_iff]
  exact ⟨t, List.mem_of_getElem? h, by simp [hf]⟩

theorem exists_of_registered {s : State} {key : CacheKey} (h : 0 < s.registered key) :
    ∃ t ∈ s.tasks, t.key = key ∧ t.phase.flight.isSome := by
  unfold State.registered at h
  obtain ⟨t, ht, hp⟩ := List.countP_pos_iff.mp h
  exact ⟨t, ht, by simpa using hp⟩

/-- The map and the counters: a task finds its flight under its key, a flight in the map counts
the tasks of its key, and the flights outside the map count nobody. -/
structure Counted (s : State) : Prop where
  own : ∀ (i : ℕ) (t : Task) (f : ℕ), s.tasks[i]? = some t → t.phase.flight = some f →
    Dict.get t.key s.flights = some f
  counted : ∀ key f, Dict.get key s.flights = some f → s.users f = some (s.registered key : ℤ)
  used : ∀ key f, Dict.get key s.flights = some f → 0 < s.registered key
  distinct : ∀ key key' f, Dict.get key s.flights = some f → Dict.get key' s.flights = some f →
    key = key'
  dropped : ∀ f n, s.users f = some n → (∀ key, Dict.get key s.flights ≠ some f) → n = 0

/-- The locks: that of a flight with a task inside is taken, by this task alone. -/
structure Locked (s : State) : Prop where
  taken : ∀ (i : ℕ) (key : CacheKey) (f : ℕ), s.tasks[i]? = some ⟨key, .inside f⟩ →
    s.locked f = some true
  single : ∀ (i j : ℕ) (key key' : CacheKey) (f : ℕ), s.tasks[i]? = some ⟨key, .inside f⟩ →
    s.tasks[j]? = some ⟨key', .inside f⟩ → i = j

/-- A step that moves a task within its flight and leaves the map and the counters alone. -/
theorem Counted.keep {s t : State} {i : ℕ} {a b : Task} (hs : Counted s)
    (hflights : t.flights = s.flights) (husers : ∀ f, t.users f = s.users f)
    (hi : s.tasks[i]? = some a) (htasks : t.tasks = s.tasks.set i b) (hkey : b.key = a.key)
    (hflight : b.phase.flight = a.phase.flight) : Counted t := by
  have hshare : ∀ key, b.share key = a.share key := by
    intro key
    simp only [Task.share, hkey, hflight]
  have hregistered : ∀ key, t.registered key = s.registered key := by
    intro key
    have h := registered_set key hi htasks
    rw [hshare] at h
    omega
  constructor
  · intro j c f hj hf
    rw [htasks] at hj
    rw [hflights]
    rcases Runs.party_set hj with ⟨-, rfl⟩ | ⟨-, hj⟩
    · rw [hkey]
      exact hs.own i a f hi (hflight ▸ hf)
    · exact hs.own j c f hj hf
  · intro key f hf
    rw [husers, hregistered]
    exact hs.counted key f (hflights ▸ hf)
  · intro key f hf
    rw [hregistered]
    exact hs.used key f (hflights ▸ hf)
  · rw [hflights]
    exact hs.distinct
  · intro f n hf hkeys
    rw [hflights] at hkeys
    exact hs.dropped f n (husers f ▸ hf) hkeys

theorem counted_enter {s : State} {key : CacheKey} (hs : Counted s) :
    Counted { s with tasks := s.tasks ++ [⟨key, .entering⟩] } := by
  have hregistered : ∀ k, State.registered { s with tasks := s.tasks ++ [⟨key, .entering⟩] } k =
      s.registered k := by
    intro k
    simp [State.registered, List.countP_append, Phase.flight]
  constructor
  · intro j c f hj hf
    rcases Runs.party_concat hj with ⟨-, rfl⟩ | ⟨-, hj⟩
    · cases hf
    · exact hs.own j c f hj hf
  · intro k f hf
    rw [hregistered]
    exact hs.counted k f hf
  · intro k f hf
    rw [hregistered]
    exact hs.used k f hf
  · exact hs.distinct
  · exact hs.dropped

/-- A flight is made for a key only when no task is registered for it. -/
theorem Counted.registered_eq_zero {s : State} {key : CacheKey} (hs : Counted s)
    (h : Dict.get key s.flights = none) : s.registered key = 0 := by
  by_contra hne
  obtain ⟨t, ht, hkey, hflight⟩ := exists_of_registered (Nat.pos_of_ne_zero hne)
  obtain ⟨i, hi⟩ := List.mem_iff_getElem?.mp ht
  obtain ⟨f, hf⟩ := Option.isSome_iff_exists.mp hflight
  have hown := hs.own i t f hi hf
  rw [hkey, h] at hown
  cases hown

theorem map_users_modify {l : List Flight} {f g : ℕ} {d : ℤ} :
    (l.modify f fun o => { o with users := o.users + d })[g]?.map Flight.users =
      (l[g]?.map Flight.users).map fun n => if f = g then n + d else n := by
  rw [List.getElem?_modify]
  cases l[g]? with
  | none => rfl
  | some o => by_cases h : f = g <;> simp [h]

theorem map_users_lock {l : List Flight} {f g : ℕ} {b : Bool} :
    (l.modify f fun o => { o with locked := b })[g]?.map Flight.users =
      l[g]?.map Flight.users := by
  rw [List.getElem?_modify]
  cases l[g]? with
  | none => rfl
  | some o => by_cases h : f = g <;> simp [h]

theorem map_locked_lock {l : List Flight} {f g : ℕ} {b : Bool} :
    (l.modify f fun o => { o with locked := b })[g]?.map Flight.locked =
      (l[g]?.map Flight.locked).map fun c => if f = g then b else c := by
  rw [List.getElem?_modify]
  cases l[g]? with
  | none => rfl
  | some o => by_cases h : f = g <;> simp [h]

theorem map_locked_users {l : List Flight} {f g : ℕ} {d : ℤ} :
    (l.modify f fun o => { o with users := o.users + d })[g]?.map Flight.locked =
      l[g]?.map Flight.locked := by
  rw [List.getElem?_modify]
  cases l[g]? with
  | none => rfl
  | some o => by_cases h : f = g <;> simp [h]

theorem counted_join {s : State} {i f : ℕ} {key : CacheKey} (hs : Counted s)
    (hi : s.tasks[i]? = some ⟨key, .entering⟩) (hf : Dict.get key s.flights = some f) :
    Counted (s.register i key) := by
  have hflights : (s.register i key).flights = s.flights := by
    simp [State.register, hf]
  have htasks : (s.register i key).tasks = s.tasks.set i ⟨key, .waiting f⟩ := by
    simp [State.register, hf]
  have husers : ∀ g, (s.register i key).users g =
      (s.users g).map fun n => if f = g then n + 1 else n := by
    intro g
    simp only [State.register, hf, State.users, objects_move]
    exact map_users_modify
  have hregistered : ∀ k, (s.register i key).registered k =
      s.registered k + if key = k then 1 else 0 := by
    intro k
    have h := registered_set k hi htasks
    simpa [Task.share, Phase.flight] using h
  constructor
  · intro j c g hj hg
    rw [htasks] at hj
    rw [hflights]
    rcases Runs.party_set hj with ⟨-, rfl⟩ | ⟨-, hj⟩
    · cases hg
      exact hf
    · exact hs.own j c g hj hg
  · intro k g hg
    rw [hflights] at hg
    rw [husers, hs.counted k g hg, hregistered]
    -- the flight is that of the task exactly if the key is
    have hiff : f = g ↔ key = k := by
      constructor
      · intro h
        exact hs.distinct key k f hf (h ▸ hg)
      · intro h
        rw [h, hg] at hf
        exact (Option.some.inj hf).symm
    by_cases hk : key = k <;> simp [hiff, hk]
  · intro k g hg
    rw [hflights] at hg
    have h := hs.used k g hg
    rw [hregistered]
    omega
  · rw [hflights]
    exact hs.distinct
  · intro g n hg hkeys
    rw [hflights] at hkeys
    have hne : f ≠ g := fun h => hkeys key (h ▸ hf)
    rw [husers] at hg
    obtain ⟨m, hm, hmn⟩ := Option.map_eq_some_iff.mp hg
    rw [if_neg hne] at hmn
    exact hmn ▸ hs.dropped g m hm hkeys

theorem counted_open {s : State} {i : ℕ} {key : CacheKey} (hs : Counted s)
    (hi : s.tasks[i]? = some ⟨key, .entering⟩) (hf : Dict.get key s.flights = none) :
    Counted (s.register i key) := by
  have hflights : (s.register i key).flights = Dict.set key s.objects.length s.flights := by
    simp [State.register, hf]
  have htasks : (s.register i key).tasks = s.tasks.set i ⟨key, .waiting s.objects.length⟩ := by
    simp [State.register, hf]
  have hnew : (s.register i key).users s.objects.length = some 1 := by
    simp [State.register, hf, State.users]
  have hold : ∀ g, g ≠ s.objects.length → (s.register i key).users g = s.users g := by
    intro g hg
    simp only [State.register, hf, State.users, objects_move]
    rcases Nat.lt_or_gt_of_ne hg with h | h
    · rw [List.getElem?_append_left h]
    · rw [List.getElem?_eq_none (Nat.le_of_lt h), List.getElem?_eq_none]
      rw [List.length_append, List.length_singleton]
      omega
  have hfresh : ∀ k g, Dict.get k s.flights = some g → g ≠ s.objects.length := by
    intro k g hg h
    have hu := hs.counted k g hg
    simp [State.users, h] at hu
  have hregistered : ∀ k, (s.register i key).registered k =
      s.registered k + if key = k then 1 else 0 := by
    intro k
    have h := registered_set k hi htasks
    simpa [Task.share, Phase.flight] using h
  have hzero := hs.registered_eq_zero hf
  have hget : ∀ k, Dict.get k (s.register i key).flights =
      if key = k then some s.objects.length else Dict.get k s.flights := by
    intro k
    rw [hflights, Dict.get_set]
  constructor
  · intro j c g hj hg
    rw [htasks] at hj
    rw [hget]
    rcases Runs.party_set hj with ⟨-, rfl⟩ | ⟨-, hj⟩
    · cases hg
      exact if_pos rfl
    · have hown := hs.own j c g hj hg
      have hne : key ≠ c.key := by
        intro h
        rw [← h, hf] at hown
        cases hown
      rw [if_neg hne]
      exact hown
  · intro k g hg
    rw [hget] at hg
    rw [hregistered]
    by_cases hk : key = k
    · rw [if_pos hk] at hg
      cases hg
      rw [hnew, ← hk, hzero, if_pos rfl]
      rfl
    · rw [if_neg hk] at hg
      rw [hold g (hfresh k g hg), hs.counted k g hg, if_neg hk]
      rfl
  · intro k g hg
    rw [hget] at hg
    rw [hregistered]
    by_cases hk : key = k
    · rw [if_pos hk]
      exact Nat.succ_pos _
    · rw [if_neg hk] at hg
      rw [if_neg hk]
      exact hs.used k g hg
  · intro k k' g hk hk'
    rw [hget] at hk hk'
    by_cases h : key = k <;> by_cases h' : key = k'
    · rw [← h, ← h']
    · rw [if_pos h] at hk
      rw [if_neg h'] at hk'
      cases hk
      exact absurd rfl (hfresh k' _ hk')
    · rw [if_neg h] at hk
      rw [if_pos h'] at hk'
      cases hk'
      exact absurd rfl (hfresh k _ hk)
    · rw [if_neg h] at hk
      rw [if_neg h'] at hk'
      exact hs.distinct k k' g hk hk'
  · intro g n hg hkeys
    have hne : g ≠ s.objects.length := by
      intro h
      apply hkeys key
      rw [hget, if_pos rfl, h]
    rw [hold g hne] at hg
    apply hs.dropped g n hg
    intro k hk
    apply hkeys k
    rw [hget, if_neg, hk]
    intro h
    rw [← h, hf] at hk
    cases hk

section Release

variable {s : State} {i f : ℕ} {key : CacheKey}

theorem users_release (g : ℕ) : (s.release i key f).users g =
    (s.users g).map fun n => if f = g then n - 1 else n := map_users_modify

theorem registered_release (hi : s.tasks[i]? = some ⟨key, .leaving f⟩) (k : CacheKey) :
    (s.release i key f).registered k + (if key = k then 1 else 0) = s.registered k := by
  have h := registered_set k hi (t := s.release i key f) rfl
  simpa [Task.share, Phase.flight] using h

/-- Two flights of the map are one exactly if their keys are. -/
theorem Counted.flight_eq_iff (hs : Counted s) {k : CacheKey} {g : ℕ}
    (hf : Dict.get key s.flights = some f) (hg : Dict.get k s.flights = some g) :
    f = g ↔ key = k := by
  constructor
  · intro h
    exact hs.distinct key k f hf (h ▸ hg)
  · intro h
    rw [h, hg] at hf
    exact (Option.some.inj hf).symm

/-- The counter of the flight is used up with the last task of its key. -/
theorem Counted.users_release_iff (hs : Counted s) (hi : s.tasks[i]? = some ⟨key, .leaving f⟩) :
    (s.release i key f).users f = some 0 ↔ (s.release i key f).registered key = 0 := by
  have h := registered_release hi key
  rw [if_pos rfl] at h
  have hself : (s.release i key f).users f = some ((s.registered key : ℤ) - 1) := by
    rw [users_release, hs.counted key f (hs.own i _ f hi rfl)]
    simp
  rw [hself, Option.some_inj]
  omega

/-- The flight leaves the map with the last task of its key. -/
theorem Counted.flights_release (hs : Counted s) (hi : s.tasks[i]? = some ⟨key, .leaving f⟩)
    (k : CacheKey) : Dict.get k (s.release i key f).flights =
      if key = k ∧ (s.release i key f).registered key = 0 then none
      else Dict.get k s.flights := by
  have hf : Dict.get key s.flights = some f := hs.own i _ f hi rfl
  have hlast := hs.users_release_iff hi
  show Dict.get k (if (s.release i key f).users f = some 0 ∧ Dict.get key s.flights = some f then
    Dict.erase key s.flights else s.flights) = _
  by_cases h : (s.release i key f).registered key = 0
  · rw [if_pos ⟨hlast.mpr h, hf⟩, Dict.get_erase]
    simp [h]
  · rw [if_neg (fun hu => h (hlast.mp hu.1))]
    simp [h]

theorem Counted.of_flights_release (hs : Counted s) (hi : s.tasks[i]? = some ⟨key, .leaving f⟩)
    {k : CacheKey} {g : ℕ} (hg : Dict.get k (s.release i key f).flights = some g) :
    Dict.get k s.flights = some g := by
  rw [hs.flights_release hi] at hg
  split at hg
  next => cases hg
  next => exact hg

theorem counted_release (hs : Counted s) (hi : s.tasks[i]? = some ⟨key, .leaving f⟩) :
    Counted (s.release i key f) := by
  have hf : Dict.get key s.flights = some f := hs.own i _ f hi rfl
  constructor
  · intro j c g hj hg
    rcases Runs.party_set hj with ⟨-, rfl⟩ | ⟨hne, hj'⟩
    · cases hg
    · rw [hs.flights_release hi, if_neg]
      · exact hs.own j c g hj' hg
      · rintro ⟨hk, hzero⟩
        have hpos := registered_pos (s := s.release i key f) hj hg
        rw [← hk, hzero] at hpos
        exact Nat.lt_irrefl 0 hpos
  · intro k g hg
    have hold := hs.of_flights_release hi hg
    have h := registered_release hi k
    rw [users_release, hs.counted k g hold, Option.map_some, Option.some_inj]
    by_cases hk : key = k
    · rw [if_pos ((hs.flight_eq_iff hf hold).mpr hk)]
      rw [if_pos hk] at h
      omega
    · rw [if_neg (fun e => hk ((hs.flight_eq_iff hf hold).mp e))]
      rw [if_neg hk] at h
      omega
  · intro k g hg
    have hused := hs.used k g (hs.of_flights_release hi hg)
    have h := registered_release hi k
    rw [hs.flights_release hi] at hg
    split at hg
    next => cases hg
    next hk =>
      by_cases he : key = k
      · rw [← he]
        exact Nat.pos_of_ne_zero fun h => hk ⟨he, h⟩
      · rw [if_neg he] at h
        omega
  · intro k k' g hk hk'
    exact hs.distinct k k' g (hs.of_flights_release hi hk) (hs.of_flights_release hi hk')
  · intro g n hg hkeys
    by_cases hfg : f = g
    · have h := hkeys key
      rw [hs.flights_release hi] at h
      split at h
      next hk =>
        rw [← hfg, (hs.users_release_iff hi).mpr hk.2] at hg
        exact (Option.some.inj hg).symm
      next => exact absurd (hfg ▸ hf) h
    · rw [users_release] at hg
      obtain ⟨m, hm, hmn⟩ := Option.map_eq_some_iff.mp hg
      rw [if_neg hfg] at hmn
      rw [← hmn]
      apply hs.dropped g m hm
      intro k hk
      apply hkeys k
      rw [hs.flights_release hi, if_neg, hk]
      intro he
      exact hfg ((hs.flight_eq_iff hf hk).mpr he.1)

end Release

theorem Counted.step {s t : State} (hs : Counted s) (h : Steps s t) : Counted t := by
  cases h with
  | enter key => exact counted_enter hs
  | register i key hi =>
    cases hf : Dict.get key s.flights with
    | none => exact counted_open hs hi hf
    | some f => exact counted_join hs hi hf
  | acquire i key f hi hfree =>
    exact hs.keep (t := s.acquire i key f) rfl (fun g => map_users_lock) hi rfl rfl rfl
  | leave i key f hi =>
    exact hs.keep (t := s.leave i key f) rfl (fun g => map_users_lock) hi rfl rfl rfl
  | release i key f hi => exact counted_release hs hi
  | stop i c hi hp => exact hs.keep rfl (fun _ => rfl) hi rfl rfl hp.symm
  | abandon i key f hi => exact hs.keep rfl (fun _ => rfl) hi rfl rfl rfl
  | absorb => exact hs

/-- A step after which nobody new is inside and no taken lock is free. -/
theorem Locked.keep {s t : State} (hs : Locked s)
    (htasks : ∀ (i : ℕ) (key : CacheKey) (f : ℕ), t.tasks[i]? = some ⟨key, .inside f⟩ →
      s.tasks[i]? = some ⟨key, .inside f⟩)
    (hlocked : ∀ f, s.locked f = some true → t.locked f = some true) : Locked t := by
  constructor
  · intro i key f hi
    exact hlocked f (hs.taken i key f (htasks i key f hi))
  · intro i j key key' f hi hj
    exact hs.single i j key key' f (htasks i key f hi) (htasks j key' f hj)

theorem inside_of_set {l : List Task} {i j f : ℕ} {key key' : CacheKey} {p : Phase}
    (hp : p ≠ .inside f) (h : (l.set i ⟨key, p⟩)[j]? = some ⟨key', .inside f⟩) :
    j ≠ i ∧ l[j]? = some ⟨key', .inside f⟩ := by
  rcases Runs.party_set h with ⟨-, he⟩ | hj
  · cases he
    exact absurd rfl hp
  · exact hj

theorem locked_register {s : State} {i f : ℕ} {key : CacheKey} (h : s.locked f = some true) :
    (s.register i key).locked f = some true := by
  unfold State.register
  split
  next g hg => exact map_locked_users.trans h
  next =>
    obtain ⟨o, ho, -⟩ := Option.map_eq_some_iff.mp h
    obtain ⟨hlt, -⟩ := List.getElem?_eq_some_iff.mp ho
    show (s.objects ++ [Flight.mk 1 false])[f]?.map Flight.locked = some true
    rw [List.getElem?_append_left hlt]
    exact h

theorem inside_of_register {s : State} {i j f : ℕ} {key key' : CacheKey}
    (h : (s.register i key).tasks[j]? = some ⟨key', .inside f⟩) :
    s.tasks[j]? = some ⟨key', .inside f⟩ := by
  unfold State.register at h
  split at h
  next => exact (inside_of_set (by nofun) h).2
  next => exact (inside_of_set (by nofun) h).2

/-- A free lock means that nobody is inside, so the task that takes it is alone. -/
theorem locked_acquire {s : State} {i f : ℕ} {key : CacheKey} (hs : Locked s)
    (hfree : s.locked f = some false) : Locked (s.acquire i key f) := by
  have hlocked : ∀ g, (s.acquire i key f).locked g =
      (s.locked g).map fun c => if f = g then true else c := fun g => map_locked_lock
  have hnone : ∀ (j : ℕ) (k : CacheKey), s.tasks[j]? ≠ some ⟨k, .inside f⟩ := by
    intro j k hj
    have h := hs.taken j k f hj
    rw [hfree] at h
    cases h
  constructor
  · intro j k g hj
    rw [hlocked]
    rcases Runs.party_set hj with ⟨-, he⟩ | ⟨-, hj⟩
    · cases he
      rw [hfree]
      simp
    · rw [hs.taken j k g hj]
      simp
  · intro j j' k k' g hj hj'
    rcases Runs.party_set hj with ⟨hij, he⟩ | ⟨-, hold⟩ <;>
      rcases Runs.party_set hj' with ⟨hij', he'⟩ | ⟨-, hold'⟩
    · exact hij.trans hij'.symm
    · cases he
      exact absurd hold' (hnone j' k')
    · cases he'
      exact absurd hold (hnone j k)
    · exact hs.single j j' k k' g hold hold'

/-- The task that leaves was alone in its flight, so freeing the lock frees it for nobody else. -/
theorem locked_leave {s : State} {i f : ℕ} {key : CacheKey} (hs : Locked s)
    (hi : s.tasks[i]? = some ⟨key, .inside f⟩) : Locked (s.leave i key f) := by
  have hlocked : ∀ g, (s.leave i key f).locked g =
      (s.locked g).map fun c => if f = g then false else c := fun g => map_locked_lock
  constructor
  · intro j k g hj
    obtain ⟨hne, hj⟩ := inside_of_set (by nofun) hj
    have hfg : f ≠ g := fun h => hne (hs.single j i k key g hj (h ▸ hi))
    rw [hlocked, hs.taken j k g hj, Option.map_some, if_neg hfg]
  · intro j j' k k' g hj hj'
    obtain ⟨-, hj⟩ := inside_of_set (by nofun) hj
    obtain ⟨-, hj'⟩ := inside_of_set (by nofun) hj'
    exact hs.single j j' k k' g hj hj'

theorem Locked.step {s t : State} (hs : Locked s) (h : Steps s t) : Locked t := by
  cases h with
  | enter key =>
    refine hs.keep ?_ (fun _ h => h)
    intro j k f hj
    rcases Runs.party_concat hj with ⟨-, he⟩ | ⟨-, hj⟩
    · cases he
    · exact hj
  | register i key hi => exact hs.keep (fun _ _ _ => inside_of_register) (fun _ => locked_register)
  | acquire i key f hi hfree => exact locked_acquire hs hfree
  | leave i key f hi => exact locked_leave hs hi
  | release i key f hi =>
    exact hs.keep (fun _ _ _ hj => (inside_of_set (by nofun) hj).2)
      (fun _ h => map_locked_users.trans h)
  | stop i c hi hp =>
    exact hs.keep (fun _ _ _ hj => (inside_of_set (by nofun) hj).2) (fun _ h => h)
  | abandon i key f hi =>
    exact hs.keep (fun _ _ _ hj => (inside_of_set (by nofun) hj).2) (fun _ h => h)
  | absorb => exact hs

theorem counted_initial : Counted initial := by
  constructor <;> simp [initial, Dict.get, State.users]

theorem locked_initial : Locked initial := by
  constructor <;> simp [initial]

/-- The map invariant of `single_flight`. -/
structure Held (s : State) : Prop where
  alone : ∀ (i j : ℕ) (key : CacheKey) (f g : ℕ), s.tasks[i]? = some ⟨key, .inside f⟩ →
    s.tasks[j]? = some ⟨key, .inside g⟩ → i = j
  mapped : ∀ key, (Dict.get key s.flights).isSome ↔ 0 < s.counter key
  counter : ∀ key, s.counter key = s.registered key
  dropped : ∀ f n, s.users f = some n → (0 < n ↔ ∃ key, Dict.get key s.flights = some f)
  empty : (∀ t ∈ s.tasks, t.phase = .finished) → s.flights = []

theorem held_of_counted {s : State} (hc : Counted s) (hl : Locked s) : Held s := by
  have hcounter : ∀ key, s.counter key = s.registered key := by
    intro key
    unfold State.counter
    cases hf : Dict.get key s.flights with
    | none =>
      rw [hc.registered_eq_zero hf]
      rfl
    | some f =>
      rw [Option.bind_some, hc.counted key f hf]
      rfl
  constructor
  · intro i j key f g hi hj
    have hf := hc.own i _ f hi rfl
    rw [hc.own j _ g hj rfl] at hf
    cases hf
    exact hl.single i j key key f hi hj
  · intro key
    rw [hcounter]
    cases hf : Dict.get key s.flights with
    | none => simp [hc.registered_eq_zero hf]
    | some f =>
      have hused := hc.used key f hf
      simp [hused]
  · exact hcounter
  · intro f n hn
    constructor
    · intro hpos
      by_contra hno
      have hzero := hc.dropped f n hn fun key hkey => hno ⟨key, hkey⟩
      omega
    · intro ⟨key, hkey⟩
      have hcount := hc.counted key f hkey
      have hused := hc.used key f hkey
      rw [hn, Option.some_inj] at hcount
      omega
  · intro hdone
    rw [Dict.eq_nil_iff]
    intro key
    by_contra hne
    obtain ⟨f, hf⟩ := Option.ne_none_iff_exists'.mp hne
    obtain ⟨t, ht, -, hflight⟩ := exists_of_registered (hc.used key f hf)
    rw [hdone t ht] at hflight
    cases hflight

/-- The invariant holds after every run of the loop, whatever the keys, the order of the steps and
the cancellations are. -/
theorem single_flight_held {events : List Event} {s : State}
    (h : Runs.exec step initial events = some s) : Held s := by
  have hinv : Counted s ∧ Locked s := by
    apply Runs.invariant_of_step (fun s => Counted s ∧ Locked s) ?_
      ⟨counted_initial, locked_initial⟩ h
    intro s e t hs hstep
    exact ⟨hs.1.step (steps_of_step hstep), hs.2.step (steps_of_step hstep)⟩
  exact held_of_counted hinv.1 hinv.2

/-- The second task of a key gives up while it waits, a task of another key gives up before it
registers, and the first one leaves after a third has registered. -/
theorem single_flight_held_cancelled :
    let a : CacheKey := ⟨1, "start", 100, "k"⟩
    let b : CacheKey := ⟨1, "stop", 100, "k"⟩
    ∃ s, Runs.exec step initial [.enter a, .register 0, .acquire 0, .enter a, .register 1, .cancel 1,
      .enter b, .cancel 2, .enter a, .register 3, .release 1, .leave 0, .resume 1, .release 0,
      .acquire 3] = some s ∧ s.objects = [⟨1, true⟩] ∧ Held s := by
  intro a b
  let s : State := ⟨[⟨1, true⟩], [(a, 0)],
    [⟨a, .released⟩, ⟨a, .finished⟩, ⟨b, .finished⟩, ⟨a, .inside 0⟩]⟩
  have hrun : Runs.exec step initial [.enter a, .register 0, .acquire 0, .enter a, .register 1,
      .cancel 1, .enter b, .cancel 2, .enter a, .register 3, .release 1, .leave 0, .resume 1,
      .release 0, .acquire 3] = some s := by decide
  exact ⟨s, hrun, rfl, single_flight_held hrun⟩

end ProxboxApi.SingleFlight
