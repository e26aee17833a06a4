import Mathlib.Algebra.Order.Ring.Rat
import ProxboxApi.EventWindows
import ProxboxApi.Runs

/-! The lockout of a client address that sends wrong API keys: each request has its own session
and may be suspended at each of its awaits, between the check of the lock, the verification of the
key and the update of the counter. -/

namespace ProxboxApi.AuthLockout

open EventWindows

/-- The `AuthLockout` row of the address. -/
structure Row where
  attempts : ℕ
  firstAttemptTime : ℚ
  deriving DecidableEq, Repr

def maxFailedAttempts : ℕ := 5

def lockoutDuration : ℚ := 300

/-- The key of a request: one that is active while the request is handled, another one, or none. -/
inductive ProvidedKey where
  | right
  | wrong
  | missing
  deriving DecidableEq, Repr

/-- The await at which a request is suspended, or its answer; `lockedOut` has the row and the time
of the check. -/
inductive Phase where
  | checking
  | expiring
  | admitted
  | verifying
  | recording
  | writing (loaded : Option Row) (now : ℚ)
  | finding
  | clearing
  | authorized
  | lockedOut (row : Row) (time : ℚ)
  | unconfigured
  | refused
  | raised
  deriving DecidableEq, Repr

structure Handler where
  key : ProvidedKey
  phase : Phase
  deriving DecidableEq, Repr

/-- The stored row, the requests, and the keys that were evaluated: right ones reset. -/
structure Address where
  row : Option Row
  handlers : List Handler
  log : List (Event ℚ)

namespace Address

def initial (row : Option Row) : Address := ⟨row, [], []⟩

def put (s : Address) (i : ℕ) (h : Handler) (phase : Phase) : Address :=
  { s with handlers := s.handlers.set i { h with phase } }

/-- A key is evaluated at a time. -/
def evaluate (s : Address) (time : ℚ) (right : Bool) : Address :=
  { s with log := s.log ++ [⟨time, right⟩] }

end Address

/-- What `record_failed_attempt_async` makes of the row that it loaded. -/
def recorded (loaded : Option Row) (now : ℚ) : Row :=
  match loaded with
  | none => ⟨1, now⟩
  | some r =>
    if now - r.firstAttemptTime > 300 then ⟨1, now⟩ else { r with attempts := r.attempts + 1 }

/-- The commit over the stored row: only the changed columns are written. -/
def written (loaded : Row) (now : ℚ) (stored : Row) : Row where
  attempts :=
    let new := recorded (some loaded) now
    if new.attempts = loaded.attempts then stored.attempts else new.attempts
  firstAttemptTime :=
    let new := recorded (some loaded) now
    if new.firstAttemptTime = loaded.firstAttemptTime then stored.firstAttemptTime
    else new.firstAttemptTime

inductive Label where
  | arrive (key : ProvidedKey)
  | check (i : ℕ) (time : ℚ)
  | expire (i : ℕ)
  | keys (i : ℕ) (hasAny : Bool) (time : ℚ)
  | verify (i : ℕ) (time : ℚ)
  | load (i : ℕ) (now : ℚ)
  | write (i : ℕ)
  | find (i : ℕ)
  | clear (i : ℕ)
  deriving DecidableEq, Repr

/-- `is_locked_out_async`, up to the deletion of a row that has expired. -/
def checkLock (row : Option Row) (time : ℚ) : Phase :=
  match row with
  | none => .admitted
  | some r =>
    if maxFailedAttempts ≤ r.attempts then
      if time - r.firstAttemptTime < lockoutDuration then .lockedOut r time else .expiring
    else .admitted

/-- The commit of `record_failed_attempt_async`: a row that is there already, or is there no
more, is an error. -/
def commitAttempt (s : Address) (i : ℕ) (h : Handler) (loaded : Option Row) (now : ℚ) : Address :=
  match loaded, s.row with
  | none, none => { s.put i h .refused with row := some (recorded none now) }
  | some r, some stored => { s.put i h .refused with row := some (written r now stored) }
  | none, some _ | some _, none => s.put i h .raised

/-- `check_auth_header_with_session_async`, from one await to the next. -/
def resume (s : Address) (i : ℕ) (h : Handler) : Phase → Label → Option Address
  | .checking, .check _ time => some (s.put i h (checkLock s.row time))
  | .expiring, .expire _ => some { s.put i h .admitted with row := none }
  | .admitted, .keys _ hasAny time =>
    if hasAny then
      match h.key with
      | .missing => some ((s.put i h .recording).evaluate time false)
      | .right | .wrong => some (s.put i h .verifying)
    else
      match h.key with
      | .right => none
      | .wrong | .missing => some (s.put i h .unconfigured)
  | .verifying, .verify _ time =>
    match h.key with
    | .right => some ((s.put i h .finding).evaluate time true)
    | .wrong => some ((s.put i h .recording).evaluate time false)
    | .missing => none
  | .recording, .load _ now => some (s.put i h (.writing s.row now))
  | .writing loaded now, .write _ => some (commitAttempt s i h loaded now)
  | .finding, .find _ => some (s.put i h (if s.row = none then .authorized else .clearing))
  | .clearing, .clear _ => some { s.put i h .authorized with row := none }
  | _, _ => none

def Label.index : Label → Option ℕ
  | .arrive _ => none
  | .check i _ | .expire i | .keys i _ _ | .verify i _ | .load i _ | .write i | .find i
  | .clear i => some i

def step (s : Address) (l : Label) : Option Address :=
  match l with
  | .arrive key => some { s with handlers := s.handlers ++ [⟨key, .checking⟩] }
  | l => l.index.bind fun i => s.handlers[i]?.bind fun h => resume s i h h.phase l

/-- The phases between the check of the lock and the answer. -/
def Phase.inFlight : Phase → Bool
  | .expiring | .admitted | .verifying | .recording | .writing _ _ | .finding | .clearing => true
  | _ => false

/-- A failure is evaluated and not yet counted. -/
def Phase.pending : Phase → Bool
  | .recording | .writing _ _ => true
  | _ => false

/-- The stored attempts. -/
def attempts (row : Option Row) : ℕ := (row.map (·.attempts)).getD 0

/-- No other request is between its check and its answer. -/
def OthersIdle (s : Address) (i : ℕ) : Prop :=
  ∀ (j : ℕ) (h : Handler), s.handlers[j]? = some h → j ≠ i → h.phase.inFlight = false

instance (s : Address) (i : ℕ) : Decidable (OthersIdle s i) :=
  decidable_of_iff
    (∀ j < s.handlers.length, ∀ h ∈ s.handlers[j]?, j ≠ i → h.phase.inFlight = false)
    ⟨fun hall j h hj => hall j (List.getElem?_eq_some_iff.mp hj).1 h hj,
      fun hall j _ h hj => hall j h hj⟩

/-- A wrong or missing key evaluated at `time`: the clock has not gone back, and where no attempt
is stored the failures since a right key are a whole duration ago. -/
def FreshFailure (s : Address) (time : ℚ) : Prop :=
  Before time s.log ∧ (attempts s.row = 0 → ∀ x ∈ since s.log, x + lockoutDuration ≤ time)

instance (s : Address) (time : ℚ) : Decidable (FreshFailure s time) :=
  inferInstanceAs (Decidable ((∀ e ∈ s.log, e.time ≤ time) ∧ (_ → ∀ x ∈ since s.log, _)))

/-- The steps under which the lockout bounds the failures: a request checks the lock while no
other is between its check and its answer, the clock does not go back, and a count starts only
where the failures before it, since a right key, are a whole duration old. -/
def Orderly (s : Address) : Label → Prop
  | .check i _ => OthersIdle s i
  | .keys i hasAny time => ∀ h ∈ s.handlers[i]?, h.key = .missing → hasAny = true →
      FreshFailure s time
  | .verify i time => ∀ h ∈ s.handlers[i]?,
      if h.key = .right then ∀ e ∈ s.log, e.time ≤ time else FreshFailure s time
  | .load _ now => ∀ r ∈ s.row, now - r.firstAttemptTime > 300 →
      ∀ x ∈ (since s.log).rdrop 1, ∀ y ∈ (since s.log).rtake 1, x + lockoutDuration ≤ y
  | _ => True

instance (s : Address) : ∀ l, Decidable (Orderly s l)
  | .check i _ => inferInstanceAs (Decidable (OthersIdle s i))
  | .keys _ _ _ | .verify _ _ | .load _ _ => inferInstanceAs (Decidable (∀ _ ∈ _, _))
  | .arrive _ | .expire _ | .write _ | .find _ | .clear _ => isTrue trivial

section Invariant

variable {s t : Address} {i j : ℕ} {h h' : Handler} {phase : Phase} {time now : ℚ} {l : Label}

/-- What the phase of a request says of the row and of the failures: the stored attempts are the
last failures, and the earlier ones are a duration before them. -/
def Agrees (s : Address) : Phase → Prop
  | .admitted | .verifying => attempts s.row < maxFailedAttempts
  | .recording => Apart lockoutDuration (attempts s.row + 1) (since s.log)
  | .writing loaded now =>
    loaded = s.row ∧ Apart lockoutDuration (recorded loaded now).attempts (since s.log)
  | _ => True

theorem agrees_of_not_inFlight (h : phase.inFlight = false) : Agrees s phase := by
  cases phase <;> trivial

theorem inFlight_of_pending (h : phase.pending = true) : phase.inFlight = true := by
  cases phase <;> simp_all [Phase.inFlight, Phase.pending]

structure Counted (s : Address) : Prop where
  clocked : Clocked s.log
  bounded : Bounded lockoutDuration maxFailedAttempts s.log
  alone : ∀ (i j : ℕ) (h h' : Handler), s.handlers[i]? = some h → s.handlers[j]? = some h' →
    h.phase.inFlight = true → h'.phase.inFlight = true → i = j
  phases : ∀ (i : ℕ) (h : Handler), s.handlers[i]? = some h → Agrees s h.phase
  idle : (∀ (i : ℕ) (h : Handler), s.handlers[i]? = some h → h.phase.pending = false) →
    Apart lockoutDuration (attempts s.row) (since s.log)

theorem counted_initial (row : Option Row) : Counted (.initial row) where
  clocked := List.Pairwise.nil
  bounded := bounded_nil
  alone := by simp [Address.initial]
  phases := by simp [Address.initial]
  idle := fun _ => apart_nil

theorem counted_arrive (hs : Counted s) (key : ProvidedKey) :
    Counted { s with handlers := s.handlers ++ [⟨key, .checking⟩] } where
  clocked := hs.clocked
  bounded := hs.bounded
  alone := by
    intro i j h h' hi hj hflight hflight'
    rcases Runs.party_concat hi with ⟨-, rfl⟩ | ⟨-, hi⟩
    · simp [Phase.inFlight] at hflight
    · rcases Runs.party_concat hj with ⟨-, rfl⟩ | ⟨-, hj⟩
      · simp [Phase.inFlight] at hflight'
      · exact hs.alone i j h h' hi hj hflight hflight'
  phases := by
    intro i h hi
    rcases Runs.party_concat hi with ⟨-, rfl⟩ | ⟨-, hi⟩
    · trivial
    · exact hs.phases i h hi
  idle := by
    intro hidle
    apply hs.idle
    intro i h hi
    have hlt : i < s.handlers.length := (List.getElem?_eq_some_iff.mp hi).1
    apply hidle i h
    rw [List.getElem?_append_left hlt]
    exact hi

theorem Counted.othersIdle (hs : Counted s) (hi : s.handlers[i]? = some h)
    (hflight : h.phase.inFlight = true) : OthersIdle s i := by
  intro j h' hj hne
  by_contra hflight'
  exact hne (hs.alone j i h' h hj hi (by simpa using hflight') hflight)

/-- The state after a step of the one request that is not idle. -/
theorem counted_put (hi : s.handlers[i]? = some h) (hothers : OthersIdle s i)
    (hput : t.handlers = s.handlers.set i h') (hclocked : Clocked t.log)
    (hbounded : Bounded lockoutDuration maxFailedAttempts t.log) (hagrees : Agrees t h'.phase)
    (hidle : h'.phase.pending = false → Apart lockoutDuration (attempts t.row) (since t.log)) :
    Counted t where
  clocked := hclocked
  bounded := hbounded
  alone := by
    intro j k g g' hj hk hflight hflight'
    rw [hput] at hj hk
    rcases Runs.party_set hj with ⟨rfl, -⟩ | ⟨hne, hj⟩
    · rcases Runs.party_set hk with ⟨rfl, -⟩ | ⟨hne, hk⟩
      · rfl
      · simp [hothers k g' hk hne] at hflight'
    · simp [hothers j g hj hne] at hflight
  phases := by
    intro j g hj
    rw [hput] at hj
    rcases Runs.party_set hj with ⟨-, rfl⟩ | ⟨hne, hj⟩
    · exact hagrees
    · exact agrees_of_not_inFlight (hothers j g hj hne)
  idle := by
    intro hall
    apply hidle
    have hlt : i < s.handlers.length := (List.getElem?_eq_some_iff.mp hi).1
    apply hall i h'
    rw [hput, List.getElem?_set_self hlt]

/-- While a request that is not pending is alone, the stored attempts are the last failures. -/
theorem Counted.apart (hs : Counted s) (hi : s.handlers[i]? = some h) (hothers : OthersIdle s i)
    (hpending : h.phase.pending = false) :
    Apart lockoutDuration (attempts s.row) (since s.log) := by
  apply hs.idle
  intro j g hj
  by_cases hne : j = i
  · subst hne
    rw [hi] at hj
    cases hj
    exact hpending
  · by_contra hflight
    have := inFlight_of_pending (by simpa using hflight)
    simp [hothers j g hj hne] at this

/-- Before a failure, all failures but the stored attempts are a duration old. -/
theorem rdrop_fresh (happart : Apart lockoutDuration (attempts s.row) (since s.log))
    (hfresh : FreshFailure s time) :
    ∀ x ∈ (since s.log).rdrop (attempts s.row), x + lockoutDuration ≤ time := by
  intro x hx
  by_cases hzero : attempts s.row = 0
  · exact hfresh.2 hzero x (List.mem_of_mem_take hx)
  · have hne : since s.log ≠ [] := by
      intro hnil
      simp [hnil, List.rdrop] at hx
    have htake := rtake_ne_nil (Nat.pos_of_ne_zero hzero) hne
    obtain ⟨y, hy⟩ := List.exists_mem_of_ne_nil _ htake
    have hlate := before_since hfresh.1 y (List.mem_of_mem_drop hy)
    exact (happart x hx y hy).trans hlate

theorem step_cases (hstep : step s l = some t) :
    (∃ key, l = .arrive key ∧ t = { s with handlers := s.handlers ++ [⟨key, .checking⟩] }) ∨
      ∃ i h, l.index = some i ∧ s.handlers[i]? = some h ∧ resume s i h h.phase l = some t := by
  cases l with
  | arrive key =>
    left
    exact ⟨key, rfl, by simpa [step, eq_comm] using hstep⟩
  | _ =>
    right
    obtain ⟨h, hi, hresume⟩ := Option.bind_eq_some_iff.mp hstep
    exact ⟨_, h, rfl, hi, hresume⟩

/-- A wrong or missing key is evaluated where fewer failures than the bound are stored. -/
theorem counted_failure (hs : Counted s) (hi : s.handlers[i]? = some h)
    (hothers : OthersIdle s i) (hpending : h.phase.pending = false)
    (hfew : attempts s.row < maxFailedAttempts) (hfresh : FreshFailure s time) :
    Counted ((s.put i h .recording).evaluate time false) := by
  have happart := hs.apart hi hothers hpending
  have hold := rdrop_fresh happart hfresh
  have hsince : since (s.log ++ [⟨time, false⟩]) = since s.log ++ [time] := by
    simp [since_concat]
  apply counted_put hi hothers rfl
  · exact clocked_concat hs.clocked hfresh.1
  · exact bounded_concat hs.bounded hs.clocked hfresh.1 hold hfew
  · change Apart lockoutDuration (attempts s.row + 1) (since (s.log ++ [⟨time, false⟩]))
    rw [hsince]
    exact apart_concat happart hold
  · intro hphase
    simp [Phase.pending] at hphase

/-- A right key is evaluated. -/
theorem counted_success (hs : Counted s) (hi : s.handlers[i]? = some h)
    (hothers : OthersIdle s i) (hbefore : Before time s.log) :
    Counted ((s.put i h .finding).evaluate time true) := by
  have hsince : since (s.log ++ [⟨time, true⟩]) = [] := by simp [since_concat]
  apply counted_put hi hothers rfl
  · exact clocked_concat hs.clocked hbefore
  · exact bounded_concat_reset hs.bounded rfl
  · trivial
  · intro _
    change Apart lockoutDuration (attempts s.row) (since (s.log ++ [⟨time, true⟩]))
    rw [hsince]
    exact apart_nil

/-- A step that evaluates no key, after which the stored attempts are the last failures. -/
theorem counted_row (hs : Counted s) (hi : s.handlers[i]? = some h) (hothers : OthersIdle s i)
    (row : Option Row) (hagrees : Agrees { s.put i h phase with row } phase)
    (happart : phase.pending = false → Apart lockoutDuration (attempts row) (since s.log)) :
    Counted { s.put i h phase with row } :=
  counted_put hi hothers rfl hs.clocked hs.bounded hagrees happart

theorem checkLock_agrees (row : Option Row) (hrow : s.row = row) :
    Agrees s (checkLock row time) := by
  unfold checkLock
  split
  · simp [Agrees, attempts, hrow, maxFailedAttempts]
  · rename_i r
    split_ifs with hmany
    · trivial
    · trivial
    · simpa [Agrees, attempts, hrow] using hmany

/-- The row that is loaded and counted up holds the failure that is being recorded. -/
theorem recorded_apart (happart : Apart lockoutDuration (attempts s.row + 1) (since s.log))
    (hreset : ∀ r ∈ s.row, now - r.firstAttemptTime > 300 →
      Apart lockoutDuration 1 (since s.log)) :
    Apart lockoutDuration (recorded s.row now).attempts (since s.log) := by
  unfold recorded
  split
  · rename_i hnone
    simpa [attempts, hnone] using happart
  · rename_i r hsome
    split_ifs with hold
    · exact hreset r hsome hold
    · simpa [attempts, hsome] using happart

theorem written_self (r : Row) : written r now r = recorded (some r) now := by
  unfold written
  have hattempts : ∀ new : Row, (if new.attempts = r.attempts then r.attempts else new.attempts) =
      new.attempts := by
    intro new
    split_ifs with heq
    · exact heq.symm
    · rfl
  have htime : ∀ new : Row, (if new.firstAttemptTime = r.firstAttemptTime then r.firstAttemptTime
      else new.firstAttemptTime) = new.firstAttemptTime := by
    intro new
    split_ifs with heq
    · exact heq.symm
    · rfl
  simp only [hattempts, htime]

theorem counted_commit (hs : Counted s) (hi : s.handlers[i]? = some h)
    (hothers : OthersIdle s i) (happart : Apart lockoutDuration
      (recorded s.row now).attempts (since s.log)) :
    Counted (commitAttempt s i h s.row now) := by
  unfold commitAttempt
  cases hrow : s.row with
  | none =>
    rw [hrow] at happart
    exact counted_row hs hi hothers _ trivial fun _ => by simpa [attempts] using happart
  | some r =>
    rw [hrow] at happart
    refine counted_row hs hi hothers _ trivial fun _ => ?_
    rw [written_self]
    simpa [attempts] using happart

theorem counted_step (hs : Counted s) (hok : Orderly s l) (hstep : step s l = some t) :
    Counted t := by
  rcases step_cases hstep with ⟨key, rfl, rfl⟩ | ⟨i, h, hindex, hi, hresume⟩
  · exact counted_arrive hs key
  have hagrees := hs.phases i h hi
  have hothers : h.phase.inFlight = true → OthersIdle s i := hs.othersIdle hi
  have happart : OthersIdle s i → h.phase.pending = false →
      Apart lockoutDuration (attempts s.row) (since s.log) := hs.apart hi
  unfold resume at hresume
  split at hresume
  case h_9 => cases hresume
  all_goals
    rename_i hphase
    rw [hphase] at hagrees hothers happart
  · -- The lock is checked: the one step that may find other requests under way.
    cases hindex
    cases hresume
    have happart := happart hok rfl
    apply counted_row hs hi hok
    · exact checkLock_agrees s.row rfl
    · intro _
      exact happart
  · cases hresume
    have hfew : attempts none < maxFailedAttempts := by decide
    exact counted_row hs hi (hothers rfl) none hfew (fun _ => apart_zero)
  · cases hindex
    split_ifs at hresume with hany
    · split at hresume <;> cases hresume
      · rename_i hmissing
        apply counted_failure hs hi (hothers rfl) (by rw [hphase]; rfl) hagrees
        exact hok h hi hmissing hany
      · exact counted_row hs hi (hothers rfl) s.row hagrees (fun _ => happart (hothers rfl) rfl)
      · exact counted_row hs hi (hothers rfl) s.row hagrees (fun _ => happart (hothers rfl) rfl)
    · split at hresume <;> cases hresume
      · exact counted_row hs hi (hothers rfl) s.row trivial (fun _ => happart (hothers rfl) rfl)
      · exact counted_row hs hi (hothers rfl) s.row trivial (fun _ => happart (hothers rfl) rfl)
  · cases hindex
    have hkey := hok h hi
    split at hresume <;> cases hresume
    · rename_i hright
      rw [if_pos hright] at hkey
      exact counted_success hs hi (hothers rfl) hkey
    · rename_i hwrong
      rw [if_neg (by rw [hwrong]; decide)] at hkey
      exact counted_failure hs hi (hothers rfl) (by rw [hphase]; rfl) hagrees hkey
  · cases hresume
    apply counted_row hs hi (hothers rfl) s.row
    · exact ⟨rfl, recorded_apart hagrees hok⟩
    · intro hpending
      simp [Phase.pending] at hpending
  · cases hresume
    obtain ⟨rfl, hcounts⟩ := hagrees
    exact counted_commit hs hi (hothers rfl) hcounts
  · cases hresume
    have happart := happart (hothers rfl) rfl
    apply counted_row hs hi (hothers rfl) s.row
    · split_ifs <;> trivial
    · intro _
      exact happart
  · cases hresume
    exact counted_row hs hi (hothers rfl) none trivial (fun _ => apart_zero)

end Invariant

section RightKeys

variable {s t : Address} {i : ℕ} {h : Handler} {phase : Phase} {time : ℚ} {l : Label}

/-- `is_locked_out_async`. -/
def Locked (row : Option Row) (time : ℚ) : Prop :=
  ∃ r ∈ row, maxFailedAttempts ≤ r.attempts ∧ time - r.firstAttemptTime < lockoutDuration

instance (row : Option Row) (time : ℚ) : Decidable (Locked row time) :=
  inferInstanceAs (Decidable (∃ _ ∈ row, _))

/-- The answers other than that the request is authorized. -/
def Phase.isRefusal : Phase → Bool
  | .lockedOut _ _ | .unconfigured | .refused | .raised => true
  | _ => false

/-- A request with a right key checks the lock of an address that is not locked. -/
def Unlocked (s : Address) : Label → Prop
  | .check i time => ∀ h ∈ s.handlers[i]?, h.key = .right → ¬ Locked s.row time
  | _ => True

instance (s : Address) : ∀ l, Decidable (Unlocked s l)
  | .check _ _ => inferInstanceAs (Decidable (∀ _ ∈ _, _))
  | .arrive _ | .expire _ | .keys _ _ _ | .verify _ _ | .load _ _ | .write _ | .find _
  | .clear _ => isTrue trivial

/-- The phases that a request with a right key has. -/
def Phase.isWelcome : Phase → Bool
  | .checking | .expiring | .admitted | .verifying | .finding | .clearing | .authorized => true
  | _ => false

def Welcome (s : Address) : Prop :=
  ∀ (i : ℕ) (h : Handler), s.handlers[i]? = some h → h.key = .right → h.phase.isWelcome = true

theorem checkLock_welcome {row : Option Row} (hrow : ¬ Locked row time) :
    (checkLock row time).isWelcome = true := by
  unfold checkLock
  split
  · rfl
  · rename_i r
    split_ifs with hmany hrecent
    · exact absurd ⟨r, rfl, hmany, hrecent⟩ hrow
    · rfl
    · rfl

theorem welcome_put (hs : Welcome s) (hput : t.handlers = (s.put i h phase).handlers)
    (hphase : h.key = .right → phase.isWelcome = true) : Welcome t := by
  intro j g hj hkey
  rw [hput] at hj
  rcases Runs.party_set hj with ⟨-, rfl⟩ | ⟨-, hj⟩
  · exact hphase hkey
  · exact hs j g hj hkey

theorem welcome_commit {loaded : Option Row} {now : ℚ} (hs : Welcome s) (hkey : h.key ≠ .right) :
    Welcome (commitAttempt s i h loaded now) := by
  unfold commitAttempt
  split <;> exact welcome_put hs rfl fun hright => absurd hright hkey

theorem welcome_step (hs : Welcome s) (hok : Unlocked s l) (hstep : step s l = some t) :
    Welcome t := by
  rcases step_cases hstep with ⟨key, rfl, rfl⟩ | ⟨i, h, hindex, hi, hresume⟩
  · intro j g hj hkey
    rcases Runs.party_concat hj with ⟨-, rfl⟩ | ⟨-, hj⟩
    · rfl
    · exact hs j g hj hkey
  have hphase := hs i h hi
  unfold resume at hresume
  split at hresume
  · cases hindex
    cases hresume
    exact welcome_put hs rfl fun hkey => checkLock_welcome (hok h hi hkey)
  · cases hresume
    exact welcome_put hs rfl fun _ => rfl
  · split_ifs at hresume
    · split at hresume <;> cases hresume
      · rename_i hkey
        exact welcome_put hs rfl (by simp [hkey])
      · exact welcome_put hs rfl fun _ => rfl
      · exact welcome_put hs rfl fun _ => rfl
    · split at hresume <;> cases hresume <;> rename_i hkey
      · exact welcome_put hs rfl (by simp [hkey])
      · exact welcome_put hs rfl (by simp [hkey])
  · split at hresume <;> cases hresume <;> rename_i hkey
    · exact welcome_put hs rfl fun _ => rfl
    · exact welcome_put hs rfl (by simp [hkey])
  · rename_i hrecording
    cases hresume
    apply welcome_put hs rfl
    intro hkey
    simp [hrecording, Phase.isWelcome] at hphase
    exact absurd hkey hphase
  · rename_i hwriting
    cases hresume
    apply welcome_commit hs
    intro hkey
    simp [hwriting, Phase.isWelcome] at hphase
    exact absurd hkey hphase
  · cases hresume
    apply welcome_put hs rfl
    intro _
    split_ifs <;> rfl
  · cases hresume
    exact welcome_put hs rfl fun _ => rfl
  · cases hresume

theorem not_refusal_of_welcome (h : phase.isWelcome = true) : phase.isRefusal = false := by
  cases phase <;> trivial

end RightKeys

/-- Where requests do not overlap and counts start late enough, every window of the lockout's
duration without a right key evaluates at most five keys; and in every run a request with a right
key is refused only if it found the address locked. -/
theorem lockout_bounds (row : Option Row) (labels : List Label) (s : Address)
    (hrun : Runs.exec step (.initial row) labels = some s) :
    (Runs.Guarded step Orderly (.initial row) labels →
      Bounded lockoutDuration maxFailedAttempts s.log) ∧
    (Runs.Guarded step Unlocked (.initial row) labels →
      ∀ h ∈ s.handlers, h.key = .right → h.phase.isRefusal = false) := by
  constructor
  · intro hok
    have hcounted := Runs.invariant_of_guarded Counted (fun s l t => counted_step)
      (counted_initial row) hok hrun
    exact hcounted.bounded
  · intro hok h hh hkey
    have hempty : Welcome (.initial row) := by
      intro i h hi
      simp [Address.initial] at hi
    have hwelcome := Runs.invariant_of_guarded Welcome (fun s l t => welcome_step) hempty hok hrun
    obtain ⟨i, hi⟩ := List.getElem?_of_mem hh
    exact not_refusal_of_welcome (hwelcome i h hi hkey)

/-- Two requests, of a wrong key and then of the right one. -/
def wrongThenRight : List Label :=
  [.arrive .wrong, .check 0 10, .keys 0 true 10, .verify 0 11, .load 0 11, .write 0,
    .arrive .right, .check 1 12, .keys 1 true 12, .verify 1 13, .find 1, .clear 1]

theorem lockout_bounds_wrongThenRight :
    ∃ s, Runs.exec step (.initial none) wrongThenRight = some s ∧
      Bounded lockoutDuration maxFailedAttempts s.log ∧
      ∀ h ∈ s.handlers, h.key = .right → h.phase.isRefusal = false := by
  have hrun : (Runs.exec step (.initial none) wrongThenRight).isSome := by decide +kernel
  obtain ⟨s, hs⟩ := Option.isSome_iff_exists.mp hrun
  have hbounds := lockout_bounds none wrongThenRight s hs
  exact ⟨s, hs, hbounds.1 (by decide +kernel), hbounds.2 (by decide +kernel)⟩

/-- Six requests that all check the lock before the first one is counted. -/
def volley : List Label :=
  let each (f : ℕ → Label) := (List.range 6).map f
  each (fun _ => .arrive .wrong) ++ each (.check · 0) ++ each (.keys · true 0) ++
    each (.verify · 0)

theorem volley_not_bounded : ∃ s, Runs.exec step (.initial none) volley = some s ∧
    ¬ Bounded lockoutDuration maxFailedAttempts s.log := by
  have hlog : (Runs.exec step (.initial none) volley).map (·.log) =
      some (List.replicate 6 ⟨0, false⟩) := by decide +kernel
  obtain ⟨s, hrun, hs⟩ := Option.map_eq_some_iff.mp hlog
  refine ⟨s, hrun, ?_⟩
  rw [hs]
  intro hbounded
  have hcount := hbounded 0 (by decide)
  revert hcount
  decide +kernel

end ProxboxApi.AuthLockout
