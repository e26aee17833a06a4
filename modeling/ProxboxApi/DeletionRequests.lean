import Mathlib.Data.Int.Notation
import ProxboxApi.Runs

/-! The approve, reject and execute routes of one stored deletion request, as a machine
in which every handler may be suspended at each of its awaits.  Each handler has its own
database session: it works on the row it loaded, and its commit writes the `state` column
only when the assigned value differs from the loaded one. -/

namespace ProxboxApi.DeletionRequests

/-- `DeletionRequestState`. -/
inductive RequestState where
  | pending | approved | rejected | executing | succeeded | failed
  deriving DecidableEq, Repr

def RequestState.value : RequestState → String
  | .pending => "pending"
  | .approved => "approved"
  | .rejected => "rejected"
  | .executing => "executing"
  | .succeeded => "succeeded"
  | .failed => "failed"

/-- `DeletionRequestKind`. -/
inductive Kind where
  | qemu | lxc
  deriving DecidableEq, Repr

/-- `DeletionRequestTarget`: the guest named by the stored request and by a request body. -/
structure Target where
  vmid : ℤ
  node : String
  kind : Kind
  deriving DecidableEq, Repr

inductive Mismatch where
  | vmid (request body : ℤ)
  | node (request body : String)
  | kind (request body : Kind)
  deriving DecidableEq, Repr

/-- `_target_mismatch`. -/
def targetMismatch (record body : Target) : Option Mismatch :=
  if record.vmid ≠ body.vmid then some (.vmid record.vmid body.vmid)
  else if record.node ≠ body.node then some (.node record.node body.node)
  else if record.kind ≠ body.kind then some (.kind record.kind body.kind)
  else none

inductive Request where
  | approve (body : Target)
  | reject
  | execute (body : Target)
  deriving DecidableEq, Repr

def Request.body : Request → Option Target
  | .approve body => some body
  | .reject => none
  | .execute body => some body

/-- The state test each route makes on the record it loaded. -/
def Request.admits : Request → RequestState → Bool
  | .approve _, s => s = .pending || s = .approved
  | .reject, s => !(s = .executing || s = .succeeded)
  | .execute _, s => s = .approved

/-- The state each route assigns once its checks have passed. -/
def Request.newState : Request → RequestState
  | .approve _ => .approved
  | .reject => .rejected
  | .execute _ => .executing

/-- The `invalid_state` detail of the 409 response. -/
def Request.invalidState : Request → RequestState → String
  | .approve _, s =>
    "Deletion request is " ++ s.value ++ "; only pending requests can be approved."
  | .reject, s => "Deletion request is " ++ s.value ++ "; it can no longer be rejected."
  | .execute _, s => "Deletion request is " ++ s.value ++ "; execute requires approved."

/-- How a handler ends: its response, or the exception it raises. -/
inductive Reply where
  | blocked
  | targetMismatch (m : Mismatch)
  | invalidState (detail : String)
  | ok
  | error
  deriving DecidableEq, Repr

/-- The checks between the gate and the assignment, which no await separates. -/
def checkRequest (record : Target) (r : Request) (loaded : RequestState) : Option Reply :=
  match r.body.bind (targetMismatch record) with
  | some m => some (.targetMismatch m)
  | none => if r.admits loaded then none else some (.invalidState (r.invalidState loaded))

theorem admits_of_checkRequest {record : Target} {r : Request} {loaded : RequestState}
    (h : checkRequest record r loaded = none) : r.admits loaded = true := by
  unfold checkRequest at h
  split at h
  · contradiction
  · by_contra hno
    simp [hno] at h

/-- The await a handler is suspended at. -/
inductive Phase where
  | reading
  | gating (loaded : RequestState)
  | committing (loaded : RequestState)
  | refreshing
  | journaling
  | dispatching (loaded : RequestState)
  | settling (loaded new : RequestState)
  | done (reply : Reply)
  deriving DecidableEq, Repr

structure Handler where
  request : Request
  phase : Phase
  deriving DecidableEq, Repr

/-- What an observer of the three routes sees, in order. -/
inductive Effect where
  | approveStarted
  | approved
  | rejectReturned
  | destroyCalled
  | destroyFailed
  deriving DecidableEq, Repr

structure World where
  target : Target
  stored : RequestState
  handlers : List Handler
  log : List Effect
  deriving DecidableEq, Repr

def World.initial (target : Target) (stored : RequestState) : World :=
  { target, stored, handlers := [], log := [] }

/-- Handler `i` moves on to `p`. -/
def World.put (w : World) (i : ℕ) (r : Request) (p : Phase) : World :=
  { w with handlers := w.handlers.set i ⟨r, p⟩ }

/-- The column after a commit of `new` over a row loaded as `loaded`. -/
def written (loaded new stored : RequestState) : RequestState :=
  if new = loaded then stored else new

theorem written_same {loaded new stored : RequestState} (h : new = loaded) :
    written loaded new stored = stored := if_pos h

theorem written_changed {loaded new stored : RequestState} (h : new ≠ loaded) :
    written loaded new stored = new := if_neg h

inductive Label where
  | arrive (r : Request)
  | fetch (i : ℕ)
  | gate (i : ℕ) (opened : Bool)
  | commit (i : ℕ)
  | refresh (i : ℕ)
  | journal (i : ℕ)
  | settle (i : ℕ) (ok : Bool)
  | record (i : ℕ)
  | abort (i : ℕ)
  deriving DecidableEq, Repr

def arrived : Request → List Effect
  | .approve _ => [.approveStarted]
  | _ => []

def committed : Request → List Effect
  | .approve _ => [.approved]
  | _ => []

def returned : Request → List Effect
  | .reject => [.rejectReturned]
  | _ => []

/-- One handler runs from the await it is suspended at to its next one.  `abort` is an
exception or a cancellation raised at that await. -/
def step (w : World) : Label → Option World
  | .arrive r => some
      { w with handlers := w.handlers ++ [⟨r, .reading⟩], log := w.log ++ arrived r }
  | .fetch i => match w.handlers[i]? with
    | some ⟨r, .reading⟩ => some (w.put i r (.gating w.stored))
    | _ => none
  | .gate i opened => match w.handlers[i]? with
    | some ⟨r, .gating loaded⟩ =>
      if opened then
        match checkRequest w.target r loaded with
        | some refusal => some (w.put i r (.done refusal))
        | none => some (w.put i r (.committing loaded))
      else some (w.put i r (.done .blocked))
    | _ => none
  | .commit i => match w.handlers[i]? with
    | some ⟨r, .committing loaded⟩ => some
        { w.put i r .refreshing with
          stored := written loaded r.newState w.stored
          log := w.log ++ committed r }
    | _ => none
  | .refresh i => match w.handlers[i]? with
    | some ⟨.execute body, .refreshing⟩ => some
        { w.put i (.execute body) (.dispatching w.stored) with
          log := w.log ++ [.destroyCalled] }
    | some ⟨r, .refreshing⟩ => some (w.put i r .journaling)
    | _ => none
  | .journal i => match w.handlers[i]? with
    | some ⟨r, .journaling⟩ => some
        { w.put i r (.done .ok) with log := w.log ++ returned r }
    | _ => none
  | .settle i ok => match w.handlers[i]? with
    | some ⟨r, .dispatching loaded⟩ =>
      if ok then some (w.put i r (.settling loaded .succeeded))
      else some { w.put i r (.settling loaded .failed) with
        log := w.log ++ [.destroyFailed] }
    | _ => none
  | .record i => match w.handlers[i]? with
    | some ⟨r, .settling loaded new⟩ => some
        { w.put i r (.done (if new = .succeeded then .ok else .error)) with
          stored := written loaded new w.stored }
    | _ => none
  | .abort i => match w.handlers[i]? with
    | some ⟨_, .done _⟩ => none
    | some ⟨r, _⟩ => some (w.put i r (.done .error))
    | none => none

/-- An approval took effect after a failed run. -/
def ReApproved (log : List Effect) : Prop :=
  Runs.Follows .destroyFailed .approved (fun _ => True) log

/-- At most one destroy unless a failed run was re-approved, and no destroy after a reject
call has returned unless an approval started in between. -/
structure DestroysSafely (log : List Effect) : Prop where
  once : ¬ ReApproved log → log.count .destroyCalled ≤ 1
  kept : ¬ Runs.Follows .rejectReturned .destroyCalled (· ≠ .approveStarted) log

/-- A commit that writes the column finds in it a state the handler's own test admits. -/
def FreshWrite (w : World) : Label → Prop
  | .commit i => match w.handlers[i]? with
    | some ⟨r, .committing loaded⟩ => r.newState ≠ loaded → r.admits w.stored = true
    | _ => True
  | _ => True

instance (w : World) (l : Label) : Decidable (FreshWrite w l) := by
  unfold FreshWrite
  split
  · split <;> infer_instance
  · infer_instance

/-- States from which no fresh commit leads back to a destroy. -/
def Closed (s : RequestState) : Prop :=
  s = .rejected ∨ s = .succeeded ∨ s = .failed

/-- What the phase of a handler says about the stored state. -/
def Handler.Fits (stored : RequestState) (h : Handler) : Prop :=
  match h.phase with
  | .reading => True
  | .gating loaded => Closed loaded → Closed stored
  | .committing loaded => h.request.admits loaded = true ∧ (Closed loaded → Closed stored)
  | .refreshing => match h.request with
    | .approve _ => True
    | .reject => Closed stored
    | .execute _ => stored = .executing
  | .journaling => h.request = .reject → Closed stored
  | .dispatching _ => stored = .executing
  | .settling _ new => stored = .executing ∧ Closed new
  | .done _ => True

/-- The handler has committed `executing` and not yet committed the outcome. -/
def Handler.Running (h : Handler) : Prop :=
  match h.request, h.phase with
  | .execute _, .refreshing => True
  | _, .dispatching _ => True
  | _, .settling _ _ => True
  | _, _ => False

/-- The next step of the handler calls the destroy dispatcher. -/
def Handler.Armed (h : Handler) : Prop :=
  ∃ body, h.request = .execute body ∧ h.phase = .refreshing

theorem Handler.Armed.running {h : Handler} (ha : h.Armed) : h.Running := by
  obtain ⟨r, p⟩ := h
  obtain ⟨body, rfl, rfl⟩ := ha
  trivial

theorem Handler.Fits.of_running {s : RequestState} {h : Handler} (hf : h.Fits s)
    (hr : h.Running) : s = .executing := by
  obtain ⟨r, p⟩ := h
  cases p <;> cases r <;> simp_all [Handler.Fits, Handler.Running]

/-- The invariant of runs whose writes are fresh. -/
structure Consistent (w : World) : Prop where
  fits : ∀ (i : ℕ) (h : Handler), w.handlers[i]? = some h → h.Fits w.stored
  single : ∀ (i j : ℕ) (h k : Handler), w.handlers[i]? = some h → w.handlers[j]? = some k →
    h.Running → k.Running → i = j
  once : w.log.count .destroyCalled = 0 ∨
    (w.log.count .destroyCalled = 1 ∧ w.stored ≠ .pending ∧ w.stored ≠ .approved ∧
      ∀ (i : ℕ) (h : Handler), w.handlers[i]? = some h → ¬ h.Armed)
  rejected : .rejectReturned ∈ w.log → Closed w.stored
  kept : ¬ Runs.Follows .rejectReturned .destroyCalled (fun _ => True) w.log

theorem consistent_initial (target : Target) (stored : RequestState) :
    Consistent (World.initial target stored) where
  fits := by simp [World.initial]
  single := by simp [World.initial]
  once := by simp [World.initial]
  rejected := by simp [World.initial]
  kept h := by simpa [World.initial] using h.mem_left

theorem Consistent.unspent {w : World} (hw : Consistent w) {i : ℕ} {h : Handler}
    (hi : w.handlers[i]? = some h) (ha : h.Armed) : w.log.count .destroyCalled = 0 := by
  rcases hw.once with h0 | ⟨-, -, -, hno⟩
  · exact h0
  · exact absurd ha (hno i h hi)

theorem Consistent.arrive {w : World} (hw : Consistent w) (r : Request) :
    Consistent { w with handlers := w.handlers ++ [⟨r, .reading⟩] } := by
  have hidle : ¬ (⟨r, .reading⟩ : Handler).Running := by
    cases r <;> simp [Handler.Running]
  have hold : ∀ (j : ℕ) (h : Handler), (w.handlers ++ [⟨r, .reading⟩])[j]? = some h →
      h = ⟨r, .reading⟩ ∨ w.handlers[j]? = some h := by
    intro j h hj
    rcases Runs.party_concat hj with ⟨-, rfl⟩ | ⟨-, hj⟩
    · exact Or.inl rfl
    · exact Or.inr hj
  refine ⟨?_, ?_, ?_, hw.rejected, hw.kept⟩
  · intro j h hj
    rcases hold j h hj with rfl | hj
    · trivial
    · exact hw.fits j h hj
  · intro j k h g hj hk hrj hrk
    rcases hold j h hj with rfl | hj
    · exact absurd hrj hidle
    · rcases hold k g hk with rfl | hk
      · exact absurd hrk hidle
      · exact hw.single j k h g hj hk hrj hrk
  · rcases hw.once with h0 | ⟨h1, hp, ha, hno⟩
    · exact Or.inl h0
    · refine Or.inr ⟨h1, hp, ha, ?_⟩
      intro j h hj harm
      rcases hold j h hj with rfl | hj
      · exact hidle harm.running
      · exact hno j h hj harm

/-- One handler moves on: the others must be idle if it is running afterwards. -/
theorem Consistent.put {w : World} (hw : Consistent w) {i : ℕ} {r : Request} {p : Phase}
    (hfit : (⟨r, p⟩ : Handler).Fits w.stored)
    (halone : (⟨r, p⟩ : Handler).Running →
      ∀ (j : ℕ) (h : Handler), j ≠ i → w.handlers[j]? = some h → ¬ h.Running)
    (harmed : (⟨r, p⟩ : Handler).Armed → w.log.count .destroyCalled = 0) :
    Consistent (w.put i r p) := by
  refine ⟨?_, ?_, ?_, hw.rejected, hw.kept⟩
  · intro j h hj
    rcases Runs.party_set hj with ⟨-, rfl⟩ | ⟨-, hj⟩
    · exact hfit
    · exact hw.fits j h hj
  · intro j k h g hj hk hrj hrk
    rcases Runs.party_set hj with ⟨hji, rfl⟩ | ⟨hji, hj⟩
    · rcases Runs.party_set hk with ⟨hki, -⟩ | ⟨hki, hk⟩
      · exact hji.trans hki.symm
      · exact absurd hrk (halone hrj k g hki hk)
    · rcases Runs.party_set hk with ⟨-, rfl⟩ | ⟨-, hk⟩
      · exact absurd hrj (halone hrk j h hji hj)
      · exact hw.single j k h g hj hk hrj hrk
  · rcases hw.once with h0 | ⟨h1, hp, ha, hno⟩
    · exact Or.inl h0
    · refine Or.inr ⟨h1, hp, ha, ?_⟩
      intro j h hj harm
      rcases Runs.party_set hj with ⟨-, rfl⟩ | ⟨-, hj⟩
      · have h0 := harmed harm
        change w.log.count .destroyCalled = 1 at h1
        omega
      · exact hno j h hj harm

theorem Consistent.put_idle {w : World} (hw : Consistent w) {i : ℕ} {r : Request} {p : Phase}
    (hfit : (⟨r, p⟩ : Handler).Fits w.stored) (hidle : ¬ (⟨r, p⟩ : Handler).Running) :
    Consistent (w.put i r p) :=
  hw.put hfit (fun hr => absurd hr hidle) (fun ha => absurd ha.running hidle)

/-- The column is written while no handler runs. -/
theorem Consistent.write {w : World} (hw : Consistent w) {s : RequestState}
    (hidle : ∀ (i : ℕ) (h : Handler), w.handlers[i]? = some h → ¬ h.Running)
    (hclosed : Closed w.stored → Closed s)
    (hspent : w.log.count .destroyCalled = 0 ∨ (s ≠ .pending ∧ s ≠ .approved)) :
    Consistent { w with stored := s } := by
  refine ⟨?_, hw.single, ?_, fun hr => hclosed (hw.rejected hr), hw.kept⟩
  · intro i h hi
    have hf := hw.fits i h hi
    have hr := hidle i h hi
    obtain ⟨r, p⟩ := h
    cases p with
    | reading => trivial
    | gating loaded => exact fun hl => hclosed (hf hl)
    | committing loaded => exact ⟨hf.1, fun hl => hclosed (hf.2 hl)⟩
    | refreshing =>
      cases r with
      | approve body => trivial
      | reject => exact hclosed hf
      | execute body => exact absurd trivial hr
    | journaling => exact fun hreq => hclosed (hf hreq)
    | dispatching loaded => cases r <;> exact absurd trivial hr
    | settling loaded new => cases r <;> exact absurd trivial hr
    | done reply => trivial
  · rcases hspent with h0 | ⟨hp, ha⟩
    · exact Or.inl h0
    · rcases hw.once with h0 | ⟨h1, -, -, hno⟩
      · exact Or.inl h0
      · exact Or.inr ⟨h1, hp, ha, hno⟩

/-- An event that is no destroy is logged; a rejection only over a closed state. -/
theorem Consistent.logged {w : World} (hw : Consistent w) {e : Effect}
    (hne : e ≠ .destroyCalled) (hrej : e = .rejectReturned → Closed w.stored) :
    Consistent { w with log := w.log ++ [e] } := by
  have hcount : (w.log ++ [e]).count .destroyCalled = w.log.count .destroyCalled := by
    simp [List.count_append, hne]
  refine ⟨hw.fits, hw.single, ?_, ?_, ?_⟩
  · simpa only [hcount] using hw.once
  · intro hmem
    rcases List.mem_append.mp hmem with hold | hnew
    · exact hw.rejected hold
    · exact hrej (by simpa [eq_comm] using hnew)
  · intro hf
    rcases Runs.follows_concat hf with hold | ⟨he, -⟩
    · exact hw.kept hold
    · exact hne he

/-- The one destroy is logged: the column says `executing` and nobody else is armed. -/
theorem Consistent.destroyed {w : World} (hw : Consistent w)
    (hstored : w.stored = .executing) (h0 : w.log.count .destroyCalled = 0)
    (hno : ∀ (i : ℕ) (h : Handler), w.handlers[i]? = some h → ¬ h.Armed) :
    Consistent { w with log := w.log ++ [.destroyCalled] } := by
  have hopen : ¬ Closed w.stored := by simp [Closed, hstored]
  refine ⟨hw.fits, hw.single, Or.inr ⟨?_, ?_, ?_, hno⟩, ?_, ?_⟩
  · simp [List.count_append, h0]
  · simp [hstored]
  · simp [hstored]
  · intro hmem
    rcases List.mem_append.mp hmem with hold | hnew
    · exact hw.rejected hold
    · simp at hnew
  · intro hf
    rcases Runs.follows_concat hf with hold | ⟨-, hmem⟩
    · exact hw.kept hold
    · exact hopen (hw.rejected hmem)

theorem not_running_of_stored {w : World} (hw : Consistent w) (hs : w.stored ≠ .executing)
    (i : ℕ) (h : Handler) (hi : w.handlers[i]? = some h) : ¬ h.Running :=
  fun hr => hs ((hw.fits i h hi).of_running hr)

/-- A fresh commit: the column is written and the handler waits for its refresh. -/
theorem Consistent.commit {w : World} (hw : Consistent w) {i : ℕ} {r : Request}
    {loaded : RequestState} (hi : w.handlers[i]? = some ⟨r, .committing loaded⟩)
    (hfresh : r.newState ≠ loaded → r.admits w.stored = true) :
    Consistent
      { w.put i r .refreshing with stored := written loaded r.newState w.stored } := by
  obtain ⟨hadm, hseen⟩ := hw.fits i _ hi
  cases r with
  | approve body =>
    have hidle : ¬ (⟨.approve body, .refreshing⟩ : Handler).Running := by
      simp [Handler.Running]
    by_cases hl : (Request.approve body).newState = loaded
    · rw [written_same hl]
      exact hw.put_idle trivial hidle
    · have hopen : w.stored = .pending ∨ w.stored = .approved := by
        simpa [Request.admits] using hfresh hl
      have hwritten : Consistent { w with stored := .approved } := by
        refine hw.write (not_running_of_stored hw ?_) ?_ (Or.inl ?_)
        · rcases hopen with h | h <;> simp [h]
        · rcases hopen with h | h <;> simp [h, Closed]
        · rcases hw.once with h0 | ⟨-, hp, ha, -⟩
          · exact h0
          · rcases hopen with h | h <;> contradiction
      rw [written_changed hl]
      exact hwritten.put_idle trivial hidle
  | reject =>
    have hidle : ¬ (⟨.reject, .refreshing⟩ : Handler).Running := by simp [Handler.Running]
    by_cases hl : Request.reject.newState = loaded
    · have hclosed : Closed w.stored := hseen (Or.inl hl.symm)
      rw [written_same hl]
      exact hw.put_idle hclosed hidle
    · have hstill : w.stored ≠ .executing ∧ w.stored ≠ .succeeded := by
        simpa [Request.admits] using hfresh hl
      have hclosed : Closed RequestState.rejected := Or.inl rfl
      have hwritten : Consistent { w with stored := .rejected } :=
        hw.write (not_running_of_stored hw hstill.1) (fun _ => hclosed) (Or.inr (by simp))
      rw [written_changed hl]
      exact hwritten.put_idle hclosed hidle
  | execute body =>
    have hloaded : loaded = .approved := by simpa [Request.admits] using hadm
    have hl : (Request.execute body).newState ≠ loaded := by simp [Request.newState, hloaded]
    have hstored : w.stored = .approved := by simpa [Request.admits] using hfresh hl
    have h0 : w.log.count .destroyCalled = 0 := by
      rcases hw.once with h0 | ⟨-, -, ha, -⟩
      · exact h0
      · exact absurd hstored ha
    have hnone := not_running_of_stored hw (by simp [hstored])
    have hwritten : Consistent { w with stored := .executing } :=
      hw.write hnone (by simp [Closed, hstored]) (Or.inl h0)
    rw [written_changed hl]
    exact hwritten.put rfl (fun _ j h _ hj => hnone j h hj) (fun _ => h0)

theorem Consistent.refresh_execute {w : World} (hw : Consistent w) {i : ℕ} {body : Target}
    (hi : w.handlers[i]? = some ⟨.execute body, .refreshing⟩) :
    Consistent { w.put i (.execute body) (.dispatching w.stored) with
      log := w.log ++ [.destroyCalled] } := by
  have hstored : w.stored = .executing := hw.fits i _ hi
  have harmed : (⟨.execute body, .refreshing⟩ : Handler).Armed := ⟨body, rfl, rfl⟩
  have h0 := hw.unspent hi harmed
  have halone : ∀ (j : ℕ) (h : Handler), j ≠ i → w.handlers[j]? = some h → ¬ h.Running :=
    fun j h hji hj hr => hji (hw.single j i h _ hj hi hr harmed.running)
  have hput : Consistent (w.put i (.execute body) (.dispatching w.stored)) :=
    hw.put hstored (fun _ => halone) (fun _ => h0)
  refine hput.destroyed hstored h0 ?_
  intro j h hj ha
  rcases Runs.party_set hj with ⟨-, rfl⟩ | ⟨hji, hj⟩
  · obtain ⟨-, -, hphase⟩ := ha
    simp at hphase
  · exact halone j h hji hj ha.running

theorem Consistent.settle {w : World} (hw : Consistent w) {i : ℕ} {r : Request}
    {loaded new : RequestState} (hi : w.handlers[i]? = some ⟨r, .dispatching loaded⟩)
    (hnew : Closed new) : Consistent (w.put i r (.settling loaded new)) := by
  have hrun : (⟨r, .dispatching loaded⟩ : Handler).Running := by cases r <;> trivial
  refine hw.put ⟨hw.fits i _ hi, hnew⟩ ?_ ?_
  · intro _ j h hji hj hr
    exact hji (hw.single j i h _ hj hi hr hrun)
  · rintro ⟨-, -, hphase⟩
    simp at hphase

/-- The outcome of the run is committed by the only running handler. -/
theorem Consistent.record {w : World} (hw : Consistent w) {i : ℕ} {r : Request}
    {loaded new : RequestState} {reply : Reply}
    (hi : w.handlers[i]? = some ⟨r, .settling loaded new⟩) :
    Consistent { w.put i r (.done reply) with stored := written loaded new w.stored } := by
  have hrun : (⟨r, .settling loaded new⟩ : Handler).Running := by cases r <;> trivial
  have hidle : ¬ (⟨r, .done reply⟩ : Handler).Running := by cases r <;> simp [Handler.Running]
  have hnew : Closed new := (hw.fits i _ hi).2
  have hput : Consistent (w.put i r (.done reply)) := hw.put_idle trivial hidle
  have hnone : ∀ (j : ℕ) (h : Handler), (w.put i r (.done reply)).handlers[j]? = some h →
      ¬ h.Running := by
    intro j h hj hr
    rcases Runs.party_set hj with ⟨-, rfl⟩ | ⟨hji, hj⟩
    · exact hidle hr
    · exact hji (hw.single j i h _ hj hi hr hrun)
  by_cases hl : new = loaded
  · rw [written_same hl]
    exact hput
  · have hspent : new ≠ .pending ∧ new ≠ .approved := by
      rcases hnew with h | h | h <;> simp [h]
    rw [written_changed hl]
    exact hput.write hnone (fun _ => hnew) (Or.inr hspent)

theorem consistent_step {w w' : World} {l : Label} (hw : Consistent w) (hfresh : FreshWrite w l)
    (hstep : step w l = some w') : Consistent w' := by
  cases l with
  | arrive r =>
    cases hstep
    cases r with
    | approve body => exact (hw.arrive _).logged (by simp) (by simp)
    | reject => simpa [arrived] using hw.arrive .reject
    | execute body => simpa [arrived] using hw.arrive (.execute body)
  | fetch i =>
    simp only [step] at hstep
    split at hstep <;> cases hstep
    exact hw.put_idle (fun h => h) (by simp [Handler.Running])
  | gate i opened =>
    simp only [step] at hstep
    split at hstep
    case h_2 => contradiction
    case h_1 r loaded hi =>
      have hseen : Closed loaded → Closed w.stored := hw.fits i _ hi
      split at hstep
      · split at hstep <;> cases hstep
        · exact hw.put_idle trivial (by simp [Handler.Running])
        · exact hw.put_idle ⟨admits_of_checkRequest ‹_›, hseen⟩ (by simp [Handler.Running])
      · cases hstep
        exact hw.put_idle trivial (by simp [Handler.Running])
  | commit i =>
    simp only [step] at hstep
    split at hstep
    case h_2 => contradiction
    case h_1 r loaded hi =>
      cases hstep
      have hc := hw.commit hi (by simpa only [FreshWrite, hi] using hfresh)
      cases r with
      | approve body => exact hc.logged (by simp) (by simp)
      | reject =>
        simp only [committed, List.append_nil]
        exact hc
      | execute body =>
        simp only [committed, List.append_nil]
        exact hc
  | refresh i =>
    simp only [step] at hstep
    split at hstep
    case h_3 => contradiction
    case h_1 body hi =>
      cases hstep
      exact hw.refresh_execute hi
    case h_2 r hno hi =>
      cases hstep
      have hf := hw.fits i _ hi
      cases r with
      | approve body => exact hw.put_idle (by simp [Handler.Fits]) (by simp [Handler.Running])
      | reject => exact hw.put_idle (fun _ => hf) (by simp [Handler.Running])
      | execute body => exact absurd rfl (hno body)
  | journal i =>
    simp only [step] at hstep
    split at hstep
    case h_2 => contradiction
    case h_1 r hi =>
      cases hstep
      have hput : Consistent (w.put i r (.done .ok)) :=
        hw.put_idle trivial (by simp [Handler.Running])
      cases r with
      | approve body =>
        simp only [returned, List.append_nil]
        exact hput
      | reject => exact hput.logged (by simp) (fun _ => hw.fits i _ hi rfl)
      | execute body =>
        simp only [returned, List.append_nil]
        exact hput
  | settle i ok =>
    simp only [step] at hstep
    split at hstep
    case h_2 => contradiction
    case h_1 r loaded hi =>
      cases ok with
      | true =>
        cases hstep
        exact hw.settle hi (by simp [Closed])
      | false =>
        cases hstep
        exact (hw.settle hi (by simp [Closed])).logged (by simp) (by simp)
  | record i =>
    simp only [step] at hstep
    split at hstep <;> cases hstep
    exact hw.record ‹_›
  | abort i =>
    simp only [step] at hstep
    split at hstep <;> cases hstep
    exact hw.put_idle trivial (by simp [Handler.Running])

theorem Consistent.safe {w : World} (hw : Consistent w) : DestroysSafely w.log where
  once _ := by rcases hw.once with h0 | ⟨h1, -⟩ <;> omega
  kept h := hw.kept (h.mono fun _ _ => trivial)

/-- Along every run whose state writes are fresh, a request is destroyed at most once and
never after a rejection. -/
theorem destroysSafely_of_fresh (target : Target) (stored : RequestState) (ls : List Label)
    (w : World) (hrun : Runs.exec step (World.initial target stored) ls = some w)
    (hfresh : Runs.Guarded step FreshWrite (World.initial target stored) ls) :
    DestroysSafely w.log := by
  have hw := Runs.invariant_of_guarded Consistent (fun s l t hs hok => consistent_step hs hok)
    (consistent_initial target stored) hfresh hrun
  exact hw.safe

def sampleGuest : Target := ⟨101, "pve1", .qemu⟩

/-- Approve, then execute, and the dispatcher reports a task. -/
def approvedRun : List Label :=
  [.arrive (.approve sampleGuest), .fetch 0, .gate 0 true, .commit 0, .refresh 0, .journal 0,
    .arrive (.execute sampleGuest), .fetch 1, .gate 1 true, .commit 1, .refresh 1,
    .settle 1 true, .record 1]

theorem destroysSafely_of_fresh_approvedRun : ∃ w,
    Runs.exec step (World.initial sampleGuest .pending) approvedRun = some w ∧
      w.stored = .succeeded ∧ w.log.count .destroyCalled = 1 ∧ DestroysSafely w.log := by
  let w : World :=
    { target := sampleGuest
      stored := .succeeded
      handlers := [⟨.approve sampleGuest, .done .ok⟩, ⟨.execute sampleGuest, .done .ok⟩]
      log := [.approveStarted, .approved, .destroyCalled] }
  have hrun : Runs.exec step (World.initial sampleGuest .pending) approvedRun = some w := by
    decide
  exact ⟨w, hrun, rfl, rfl, destroysSafely_of_fresh _ _ _ w hrun (by decide)⟩

/-- Two execute calls load `approved` before either commits `executing`. -/
theorem double_destroy : ¬ ∀ (target : Target) (stored : RequestState) (ls : List Label)
    (w : World), Runs.exec step (World.initial target stored) ls = some w →
      DestroysSafely w.log := by
  intro hall
  let schedule : List Label := [.arrive (.execute sampleGuest), .arrive (.execute sampleGuest),
    .fetch 0, .fetch 1, .gate 0 true, .gate 1 true, .commit 0, .refresh 0, .commit 1,
    .refresh 1]
  have hsafe := hall sampleGuest .approved schedule _ rfl
  have htwice := hsafe.once (fun h => absurd h.mem_left (by decide))
  exact absurd htwice (by decide)

/-- An execute call that loaded `approved` dispatches after a reject call has returned. -/
theorem destroy_after_rejection : ¬ ∀ (target : Target) (stored : RequestState)
    (ls : List Label) (w : World), Runs.exec step (World.initial target stored) ls = some w →
      ¬ Runs.Follows .rejectReturned .destroyCalled (· ≠ .approveStarted) w.log := by
  intro hall
  let schedule : List Label := [.arrive (.execute sampleGuest), .arrive .reject, .fetch 0,
    .fetch 1, .gate 0 true, .gate 1 true, .commit 1, .refresh 1, .journal 1, .commit 0,
    .refresh 0]
  exact hall sampleGuest .approved schedule _ rfl ⟨[], [], [], rfl, by simp⟩

end ProxboxApi.DeletionRequests
