import Mathlib.Data.PNat.Basic
import Mathlib.Data.List.Infix

/-! The role of a VM over runs of operator edits and syncs.  A sync decides by the role of the VM, by
the snapshot of the role that Proxbox wrote last, and by the role that it desires. -/

namespace ProxboxApi.RoleResolution

/-- The primary key of a `DeviceRole`. -/
abbrev RoleId := ℕ+

structure RoleSnapshotDecision where
  roleValue : Option RoleId
  snapshotValue : Option RoleId
  writeRole : Bool
  writeSnapshot : Bool
  deriving DecidableEq

def computeRoleSnapshotDecision (existingRoleId existingSnapshotId desiredRoleId : Option RoleId)
    (overwriteVmRole : Bool) : RoleSnapshotDecision :=
  match existingSnapshotId with
  | none => match existingRoleId with
    | some _ => ⟨existingRoleId, existingRoleId, false, true⟩
    | none => ⟨desiredRoleId, desiredRoleId, desiredRoleId.isSome, desiredRoleId.isSome⟩
  | some _ =>
    if existingRoleId ≠ existingSnapshotId then
      if overwriteVmRole then
        ⟨desiredRoleId, desiredRoleId, desiredRoleId.isSome, desiredRoleId.isSome⟩
      else ⟨existingRoleId, existingSnapshotId, false, false⟩
    else if existingRoleId ≠ desiredRoleId ∧ desiredRoleId ≠ none then
      ⟨desiredRoleId, desiredRoleId, true, true⟩
    else ⟨existingRoleId, existingSnapshotId, false, false⟩

/-- A VM of NetBox, with its custom field `proxmox_last_synced_role_id`. -/
structure VirtualMachine where
  role : Option RoleId
  lastSyncedRoleId : Option RoleId

def resolveVmLastSyncedRoleId (customFieldsEnabled : Bool) (vm : VirtualMachine) : Option RoleId :=
  if customFieldsEnabled then vm.lastSyncedRoleId else none

/-- The writes of a decision. -/
def RoleSnapshotDecision.write (d : RoleSnapshotDecision) (vm : VirtualMachine) :
    VirtualMachine where
  role := if d.writeRole then d.roleValue else vm.role
  lastSyncedRoleId := if d.writeSnapshot then d.snapshotValue else vm.lastSyncedRoleId

/-- A VM, and the last role that Proxbox itself wrote to it. -/
structure State extends VirtualMachine where
  written : Option RoleId

/-- An edit of the operator, or a sync that does not overwrite roles. -/
inductive Step where
  | edit (role : Option RoleId)
  | sync (desired : Option RoleId) (customFieldsEnabled : Bool)

def State.decision (s : State) (desired : Option RoleId) (customFieldsEnabled : Bool) :
    RoleSnapshotDecision :=
  computeRoleSnapshotDecision s.role (resolveVmLastSyncedRoleId customFieldsEnabled s.toVirtualMachine)
    desired false

def State.step (s : State) : Step → State
  | .edit role => { s with role := role }
  | .sync desired customFieldsEnabled =>
    let d := s.decision desired customFieldsEnabled
    { d.write s.toVirtualMachine with written := if d.writeRole then d.roleValue else s.written }

/-- A VM that was never synced, with the role that it has. -/
def State.start (role : Option RoleId) : State := ⟨⟨role, none⟩, none⟩

/-- Each step of a run is as `P` says of it and of the state before. -/
def Along (P : State → Step → Prop) : State → List Step → Prop
  | _, [] => True
  | s, x :: xs => P s x ∧ Along P (s.step x) xs

/-- The role is the operator's: it is not the last one that Proxbox wrote. -/
def State.OperatorRole (s : State) (role : RoleId) : Prop := s.role = some role ∧ s.written ≠ some role

/-- A sync leaves a role of the operator. -/
def Keeps (s : State) : Step → Prop
  | .edit _ => True
  | .sync desired customFieldsEnabled => ∀ role, s.OperatorRole role →
    (s.step (.sync desired customFieldsEnabled)).role = some role

/-- A sync that copies a role of the operator into the snapshot. -/
def Backfills (s : State) : Step → Prop
  | .edit _ => False
  | .sync _ customFieldsEnabled => (∃ role, s.OperatorRole role) ∧
    resolveVmLastSyncedRoleId customFieldsEnabled s.toVirtualMachine = none

variable {s : State} {P : State → Step → Prop} {x : Step} {xs ys : List Step}

theorem along_append : Along P s (xs ++ ys) ↔ Along P s xs ∧ Along P (xs.foldl State.step s) ys := by
  induction xs generalizing s with
  | nil => simp [Along]
  | cons x xs ih =>
    rw [List.cons_append, Along, Along, ih, List.foldl_cons, and_assoc]

theorem Along.of_prefix (h : Along P s ys) (hpre : xs <+: ys) : Along P s xs := by
  obtain ⟨zs, rfl⟩ := hpre
  exact (along_append.mp h).1

/-- The snapshot is the last role that Proxbox wrote. -/
def State.Synced (s : State) : Prop := s.lastSyncedRoleId = s.written

theorem resolve_cases (customFieldsEnabled : Bool) (vm : VirtualMachine) :
    resolveVmLastSyncedRoleId customFieldsEnabled vm = none ∨
      resolveVmLastSyncedRoleId customFieldsEnabled vm = vm.lastSyncedRoleId := by
  cases customFieldsEnabled with
  | false => exact .inl rfl
  | true => exact .inr rfl

/-- The copy leaves the role, and takes it for the one that Proxbox wrote. -/
theorem step_of_unread {role : RoleId} {desired : Option RoleId} {customFieldsEnabled : Bool}
    (hrole : s.role = some role)
    (hread : resolveVmLastSyncedRoleId customFieldsEnabled s.toVirtualMachine = none) :
    s.step (.sync desired customFieldsEnabled) = ⟨⟨some role, some role⟩, s.written⟩ := by
  simp [State.step, State.decision, hread, hrole, computeRoleSnapshotDecision,
    RoleSnapshotDecision.write]

/-- A role that is not the snapshot locks both fields. -/
theorem step_of_locked {desired written : Option RoleId} {customFieldsEnabled : Bool}
    (hread : resolveVmLastSyncedRoleId customFieldsEnabled s.toVirtualMachine = written)
    (hsome : written.isSome = true) (hne : s.role ≠ written) :
    s.step (.sync desired customFieldsEnabled) = s := by
  obtain ⟨w, rfl⟩ := Option.isSome_iff_exists.mp hsome
  simp [State.step, State.decision, hread, hne, computeRoleSnapshotDecision,
    RoleSnapshotDecision.write]

/-- With the snapshot as Proxbox wrote it, one sync leaves a role of the operator. -/
theorem State.Synced.keeps (h : s.Synced) (x : Step) : Keeps s x := by
  cases x with
  | edit role => trivial
  | sync desired customFieldsEnabled =>
    rintro role ⟨hrole, hwritten⟩
    cases hread : resolveVmLastSyncedRoleId customFieldsEnabled s.toVirtualMachine with
    | none => rw [step_of_unread hrole hread]
    | some w =>
      have hw : some w = s.written := by
        rcases resolve_cases customFieldsEnabled s.toVirtualMachine with hnone | heq
        · rw [hread] at hnone
          cases hnone
        · rw [← hread, heq, h]
      have hne : s.role ≠ some w := by
        rw [hrole, hw]
        exact hwritten.symm
      rw [step_of_locked hread rfl hne, hrole]

/-- A step that copies no role of the operator keeps the snapshot as Proxbox wrote it. -/
theorem State.Synced.step (h : s.Synced) (hx : ¬Backfills s x) : (s.step x).Synced := by
  cases x with
  | edit role => exact h
  | sync desired customFieldsEnabled =>
    cases hread : resolveVmLastSyncedRoleId customFieldsEnabled s.toVirtualMachine with
    | none =>
      cases hrole : s.role with
      | none =>
        cases desired with
        | none => simpa [State.step, State.decision, hread, hrole, computeRoleSnapshotDecision,
            RoleSnapshotDecision.write, State.Synced] using h
        | some d => simp [State.step, State.decision, hread, hrole, computeRoleSnapshotDecision,
            RoleSnapshotDecision.write, State.Synced]
      | some role =>
        have hwritten : s.written = some role := by
          by_contra hne
          exact hx ⟨⟨role, hrole, hne⟩, hread⟩
        rw [step_of_unread hrole hread, State.Synced, hwritten]
    | some w =>
      by_cases hlock : s.role = some w
      · by_cases hroll : some w ≠ desired ∧ desired ≠ none
        · simp [State.step, State.decision, hread, hlock, computeRoleSnapshotDecision, hroll,
            RoleSnapshotDecision.write, State.Synced]
        · simpa [State.step, State.decision, hread, hlock, computeRoleSnapshotDecision, hroll,
            RoleSnapshotDecision.write, State.Synced] using h
      · rw [step_of_locked hread rfl hlock]
        exact h

theorem State.Synced.run (h : s.Synced) (hxs : Along (fun s x => ¬Backfills s x) s xs) :
    (xs.foldl State.step s).Synced ∧ Along Keeps s xs := by
  induction xs generalizing s with
  | nil => exact ⟨h, trivial⟩
  | cons x xs ih =>
    obtain ⟨hx, hrest⟩ := hxs
    obtain ⟨hend, hkeeps⟩ := ih (h.step hx) hrest
    exact ⟨hend, h.keeps x, hkeeps⟩

/-- After the copy, the next sync that desires another role replaces the operator's. -/
theorem Backfills.lost (h : Backfills s x) :
    ∃ desired, ¬Keeps (s.step x) (.sync desired true) := by
  cases x with
  | edit role => exact h.elim
  | sync desired customFieldsEnabled =>
    obtain ⟨⟨role, hrole, hwritten⟩, hread⟩ := h
    rw [step_of_unread hrole hread]
    refine ⟨some (role + 1), fun hkeeps => ?_⟩
    have hne : role ≠ role + 1 := (PNat.lt_add_right role 1).ne
    have hrole' := hkeeps role ⟨rfl, hwritten⟩
    simp [State.step, State.decision, resolveVmLastSyncedRoleId, computeRoleSnapshotDecision,
      RoleSnapshotDecision.write, hne] at hrole'
    exact hne hrole'.symm

theorem not_backfills_of_keeps (h : ∀ pre, pre <+: xs → ∀ desired customFieldsEnabled,
    Along Keeps s (pre ++ [.sync desired customFieldsEnabled])) :
    Along (fun s x => ¬Backfills s x) s xs := by
  induction xs generalizing s with
  | nil => trivial
  | cons x xs ih =>
    refine ⟨fun hx => ?_, ih fun pre hpre desired customFieldsEnabled => ?_⟩
    · obtain ⟨desired, hlost⟩ := hx.lost
      have hpre : [x] <+: x :: xs := List.prefix_append [x] xs
      exact hlost (h [x] hpre desired true).2.1
    · exact (h (x :: pre) (List.cons_prefix_cons.mpr ⟨rfl, hpre⟩) desired customFieldsEnabled).2

/-- The roles of the operator survive a run, and one more sync after any part of it, if and only if
no sync of the run finds such a role without a snapshot. -/
theorem operatorRoles_kept_iff (role : Option RoleId) (steps : List Step) :
    Along (fun s x => ¬Backfills s x) (.start role) steps ↔
      Along Keeps (.start role) steps ∧ ∀ pre, pre <+: steps → ∀ desired customFieldsEnabled,
        Along Keeps (.start role) (pre ++ [.sync desired customFieldsEnabled]) := by
  constructor
  · intro h
    have hstart : (State.start role).Synced := rfl
    refine ⟨(hstart.run h).2, fun pre hpre desired customFieldsEnabled => ?_⟩
    obtain ⟨hsynced, hkeeps⟩ := hstart.run (h.of_prefix hpre)
    exact along_append.mpr ⟨hkeeps, hsynced.keeps _, trivial⟩
  · rintro ⟨_, h⟩
    exact not_backfills_of_keeps h

/-- A role that was there before the first sync is gone after the second. -/
theorem role_fifteen_replaced :
    ¬Along Keeps (.start (some 15)) [.sync (some 9) true, .sync (some 9) true] := by
  rintro ⟨_, hkeeps, _⟩
  have hrole := hkeeps 15 ⟨rfl, by decide⟩
  revert hrole
  decide

end ProxboxApi.RoleResolution
