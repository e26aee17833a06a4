import Mathlib.Data.Int.Basic
import Mathlib.Data.List.Basic
import Mathlib.Data.List.Dedup
import Mathlib.Tactic.Common

/-! The replications and the backup routines of all endpoints: their records are reconciled with the
listings of the sessions, and the records that are missed are marked stale. -/

namespace ProxboxApi.StaleMarking

inductive Status where
  | active
  | stale
  | other
  deriving DecidableEq, Repr

/-- The lookup fields of a record: `replication_id` or `job_id`, and the endpoint. -/
structure Key where
  jobId : String
  endpoint : Option ℤ
  deriving DecidableEq, Repr

structure Record where
  key : Key
  status : Status
  deriving DecidableEq, Repr

/-- What the task of a session comes to: it raises, or it has an endpoint of NetBox or none, and a
listing of Proxmox unless the read fails. -/
inductive Session (ι : Type) where
  | raised
  | fetched (endpoint : Option ℤ) (listing : Option (List ι))

def Session.endpoint {ι : Type} : Session ι → Option ℤ
  | .raised => none
  | .fetched endpoint _ => endpoint

def Session.listing {ι : Type} : Session ι → Option (List ι)
  | .raised => none
  | .fetched _ listing => listing

/-- The payloads by their keys, and which keys the stale marking reaches and knows. -/
structure Pass where
  keys : List Key
  reaches : Key → Bool
  knows : Key → Bool
  eligible : Status → Bool
  knows_keys : ∀ key ∈ keys, knows key = true
  eligible_active : eligible .active = true
  eligible_stale : eligible .stale = false

/-- The writes of `rest_bulk_reconcile_async` that succeed, and whether it raises. -/
structure Writes where
  succeeds : Key → Bool
  raises : Bool

/-- A payload without any lookup value is skipped. -/
def Key.looksUp (key : Key) : Bool := key.jobId ≠ "" || key.endpoint.isSome

variable (p : Pass) (w : Writes) (rows : List Record)

/-- The keys that are written. -/
def written : List Key := p.keys.filter fun key => key.looksUp && w.succeeds key

/-- The first record with its key is the one that is matched. -/
def isFirst (i : ℕ) (key : Key) : Bool := !(rows.take i).any fun r => r.key = key

/-- A matched record is patched to the status of its payload. -/
def patchRow (i : ℕ) (r : Record) : Record :=
  if (written p w).contains r.key && isFirst rows i r.key then { r with status := .active } else r

def createdRows : List Record :=
  ((written p w).dedup.filter fun key => !rows.any fun r => r.key = key).map fun key =>
    ⟨key, .active⟩

def reconcileRows : List Record := rows.mapIdx (patchRow p w rows) ++ createdRows p w rows

/-- The marking of one record. -/
def markRow (r : Record) : Record :=
  if p.eligible r.status && p.reaches r.key && !p.knows r.key then { r with status := .stale } else r

/-- The records after a pass; new ones are appended. -/
def finalRows : List Record :=
  if p.keys.isEmpty then rows
  else if w.raises then reconcileRows p w rows
  else (reconcileRows p w rows).map (markRow p)

/-- The NetBox VMs that a replication is matched with. -/
structure VirtualMachine where
  id : ℤ
  cluster : Option ℤ
  proxmoxVmId : Option ℤ
  deriving DecidableEq, Repr

/-- A replication job; `guest` is its vmid if that is a positive integer. -/
structure Replication where
  id : String
  guest : Option ℤ
  deriving DecidableEq, Repr

/-- A listing of replications is read with the NetBox cluster of the session's name. -/
structure ReplicationSession where
  clusterId : Option ℤ
  session : Session Replication

/-- `_resolve_replication_vm_id`. -/
def resolveReplicationVmId (vms : List VirtualMachine) (clusterId : Option ℤ)
    (guest : Option ℤ) : Option ℤ :=
  match guest with
  | none => none
  | some vmid =>
    let inCluster := if clusterId.isSome then
        (vms.filter fun vm => vm.cluster = clusterId && vm.proxmoxVmId = some vmid).getLast?
      else none
    match inCluster with
    | some vm => some vm.id
    | none => match ((vms.filter fun vm => vm.proxmoxVmId = some vmid).map (·.id)).dedup with
      | [id] => some id
      | _ => none

/-- The payloads of `fetch_replications_for_session`, by their keys. -/
def replicationKeys (vms : List VirtualMachine) (s : ReplicationSession) : List Key :=
  ((s.session.listing.getD []).filter fun rep =>
    (resolveReplicationVmId vms s.clusterId rep.guest).isSome).map fun rep =>
      ⟨rep.id, s.session.endpoint⟩

/-- `sync_all_replications`; `marks` is where both requests of `_mark_stale_replications` succeed. -/
def replicationPass (vms : List VirtualMachine) (sessions : List ReplicationSession)
    (marks : ℤ → Bool) : Pass where
  keys := sessions.flatMap (replicationKeys vms)
  reaches key := match key.endpoint with
    | none => false
    | some e => marks e && sessions.any fun s => s.session.endpoint = some e
  knows key := (sessions.flatMap (replicationKeys vms)).any fun k => k.jobId = key.jobId
  eligible status := status = .active
  knows_keys key hkey := List.any_eq_true.mpr ⟨key, hkey, by simp⟩
  eligible_active := rfl
  eligible_stale := rfl

def syncAllReplications (vms : List VirtualMachine) (sessions : List ReplicationSession)
    (w : Writes) (marks : ℤ → Bool) (rows : List Record) : List Record :=
  finalRows (replicationPass vms sessions marks) w rows

/-- A backup job, and whether its payload is built without an exception. -/
structure Routine where
  id : String
  parses : Bool
  deriving DecidableEq, Repr

/-- The payloads of `_fetch_session_payloads`, by their keys. -/
def routineKeys (s : Session Routine) : List Key :=
  match s.endpoint with
  | none => []
  | some e => ((s.listing.getD []).filter fun job => job.id ≠ "" && job.parses).map fun job =>
    ⟨job.id, some e⟩

/-- `sync_all_backup_routines`; `marks` is where the requests of `_mark_stale_routines` succeed. -/
def routinePass (sessions : List (Session Routine)) (marks : Bool) : Pass where
  keys := sessions.flatMap routineKeys
  reaches _ := marks
  knows key := (sessions.flatMap routineKeys).contains key
  eligible status := status ≠ .stale
  knows_keys key hkey := by simpa using hkey
  eligible_active := rfl
  eligible_stale := rfl

def syncAllBackupRoutines (sessions : List (Session Routine)) (w : Writes) (marks : Bool)
    (rows : List Record) : List Record :=
  finalRows (routinePass sessions marks) w rows

/-- The record with an index was active and is stale. -/
def Staled (rows final : List Record) (i : ℕ) (key : Key) : Prop :=
  rows[i]? = some ⟨key, .active⟩ ∧ ∃ r', final[i]? = some r' ∧ r'.status = .stale

section Passes

variable {p w rows}

theorem patchRow_key {i : ℕ} {r : Record} : (patchRow p w rows i r).key = r.key := by
  unfold patchRow
  split <;> rfl

theorem patchRow_status_iff {i : ℕ} {r : Record} : (patchRow p w rows i r).status = .active ↔
    r.status = .active ∨ r.key ∈ written p w ∧ isFirst rows i r.key = true := by
  unfold patchRow
  split
  · rename_i h
    rw [Bool.and_eq_true, List.contains_iff_mem] at h
    exact iff_of_true rfl (.inr h)
  · rename_i h
    rw [Bool.and_eq_true, List.contains_iff_mem] at h
    exact (or_iff_left h).symm

theorem patchRow_of_active {i : ℕ} {key : Key} :
    patchRow p w rows i ⟨key, .active⟩ = ⟨key, .active⟩ := by
  unfold patchRow
  split <;> rfl

theorem reconcileRows_getElem? {i : ℕ} {r : Record} (h : rows[i]? = some r) :
    (reconcileRows p w rows)[i]? = some (patchRow p w rows i r) := by
  have hi : i < rows.length := (List.getElem?_eq_some_iff.mp h).1
  rw [reconcileRows, List.getElem?_append_left (by simpa using hi), List.getElem?_mapIdx, h]
  rfl

/-- A pass makes an active record stale where the marking runs and reaches it, but does not know
it. -/
theorem staled_iff {i : ℕ} {key : Key} : Staled rows (finalRows p w rows) i key ↔
    rows[i]? = some ⟨key, .active⟩ ∧ p.keys ≠ [] ∧ w.raises = false ∧ p.reaches key = true ∧
      p.knows key = false := by
  unfold Staled
  refine and_congr_right fun hrow => ?_
  have hreconciled := reconcileRows_getElem? (p := p) (w := w) hrow
  rw [patchRow_of_active] at hreconciled
  unfold finalRows
  cases hkeys : p.keys with
  | nil => simp [hrow]
  | cons key' keys =>
    cases hraises : w.raises with
    | true => simp [hreconciled]
    | false =>
      simp only [List.isEmpty_cons, Bool.false_eq_true, if_false, List.getElem?_map, hreconciled,
        Option.map_some, Option.some.injEq, exists_eq_left', markRow, p.eligible_active,
        Bool.true_and, ne_eq, reduceCtorEq, not_false_eq_true, true_and]
      cases p.reaches key with
      | false => simp
      | true => cases p.knows key <;> simp

/-- Staling only for a reason is staling only where the marking does not reach or knows the record,
or has that reason. -/
theorem staled_only_iff {good : Key → Prop} :
    (∀ i key, Staled rows (finalRows p w rows) i key → good key) ↔
      (p.keys ≠ [] → w.raises = false → ∀ r ∈ rows, r.status = .active → p.reaches r.key = true →
        p.knows r.key = true ∨ good r.key) := by
  simp only [staled_iff]
  constructor
  · rintro h hkeys hraises ⟨key, status⟩ hr rfl hreaches
    obtain ⟨i, hi⟩ := List.mem_iff_getElem?.mp hr
    cases hknows : p.knows key with
    | true => exact .inl rfl
    | false => exact .inr (h i key ⟨hi, hkeys, hraises, hreaches, hknows⟩)
  · rintro h i key ⟨hrow, hkeys, hraises, hreaches, hknows⟩
    rcases h hkeys hraises _ (List.mem_of_getElem? hrow) rfl hreaches with hknown | hgood
    · rw [hknows] at hknown
      cases hknown
    · exact hgood

/-- The status that a marking that reaches a record leaves. -/
theorem markRow_status_iff {r : Record} (hreaches : p.reaches r.key = true) :
    (markRow p r).status = .active ↔ r.status = .active ∧ p.knows r.key = true := by
  unfold markRow
  rw [hreaches, Bool.and_true]
  cases hknows : p.knows r.key with
  | true => simp
  | false =>
    cases hstatus : r.status with
    | active => simp [p.eligible_active]
    | stale => simp [p.eligible_stale, hstatus]
    | other => cases p.eligible .other <;> simp [hstatus]

/-- After a pass that writes and marks everything, the active records are those that are listed if
and only if this holds already where there is no payload, and otherwise the records that the pass
knows, and finds active or patches, are those that are listed. -/
theorem settled_iff {listed : Key → Prop} (hlisted : ∀ key ∈ p.keys, listed key)
    (hlooksUp : ∀ key ∈ p.keys, key.looksUp = true) (hsucceeds : ∀ key, w.succeeds key = true)
    (hraises : w.raises = false) (hreaches : ∀ r ∈ rows, p.reaches r.key = true)
    (hreaches' : ∀ key ∈ p.keys, p.reaches key = true) :
    (∀ r ∈ finalRows p w rows, r.status = .active ↔ listed r.key) ↔
      ∀ i r, rows[i]? = some r → (listed r.key ↔ if p.keys = [] then r.status = .active else
        p.knows r.key = true ∧
          (r.status = .active ∨ r.key ∈ p.keys ∧ isFirst rows i r.key = true)) := by
  have hwritten : written p w = p.keys := by
    refine List.filter_eq_self.mpr fun key hkey => ?_
    rw [hlooksUp key hkey, hsucceeds key]
    rfl
  unfold finalRows
  cases hkeys : p.keys with
  | nil =>
    simp only [List.isEmpty_nil, if_true]
    constructor
    · intro h i r hr
      exact (h r (List.mem_of_getElem? hr)).symm
    · intro h r hr
      obtain ⟨i, hi⟩ := List.mem_iff_getElem?.mp hr
      exact (h i r hi).symm
  | cons key' keys =>
    simp only [List.isEmpty_cons, Bool.false_eq_true, if_false, hraises, reduceCtorEq]
    rw [← hkeys]
    have hmarked : ∀ i r, rows[i]? = some r →
        ((markRow p (patchRow p w rows i r)).status = .active ↔ p.knows r.key = true ∧
          (r.status = .active ∨ r.key ∈ p.keys ∧ isFirst rows i r.key = true)) := by
      intro i r hr
      rw [markRow_status_iff (by
        rw [patchRow_key]
        exact hreaches r (List.mem_of_getElem? hr)), patchRow_key, patchRow_status_iff, hwritten,
        and_comm]
    have hmarkKey : ∀ r : Record, (markRow p r).key = r.key := by
      intro r
      unfold markRow
      split <;> rfl
    constructor
    · intro h i r hr
      have hmem : markRow p (patchRow p w rows i r) ∈ (reconcileRows p w rows).map (markRow p) :=
        List.mem_map_of_mem (List.mem_of_getElem? (reconcileRows_getElem? hr))
      rw [← hmarked i r hr, h _ hmem, hmarkKey, patchRow_key]
    · intro h r' hr'
      obtain ⟨r, hr, rfl⟩ := List.mem_map.mp hr'
      rcases List.mem_append.mp hr with hold | hnew
      · obtain ⟨i, hi, rfl⟩ := List.mem_mapIdx.mp hold
        have hrow := List.getElem?_eq_getElem hi
        rw [hmarked i _ hrow, hmarkKey, patchRow_key, h i _ hrow]
      · obtain ⟨key, hkey, rfl⟩ := List.mem_map.mp hnew
        have hmem : key ∈ p.keys := by
          rw [← hwritten]
          exact List.mem_dedup.mp (List.mem_filter.mp hkey).1
        rw [hmarkKey, markRow_status_iff (hreaches' key hmem)]
        exact iff_of_true ⟨rfl, p.knows_keys key hmem⟩ (hlisted key hmem)

end Passes

section Runs

variable {ι : Type} (id : ι → String) (sessions : List (Session ι))

/-- The listing of the record's own endpoint contains it. -/
def Listed (key : Key) : Prop := ∃ e, key.endpoint = some e ∧
  ∃ s ∈ sessions, s.endpoint = some e ∧ ∃ x ∈ s.listing.getD [], id x = key.jobId

/-- The record's own endpoint was read, by each session of it. -/
def Read (key : Key) : Prop := ∃ e, key.endpoint = some e ∧ (∃ s ∈ sessions, s.endpoint = some e) ∧
  ∀ s ∈ sessions, s.endpoint = some e → s.listing.isSome = true

/-- Every endpoint was read, those of the sessions and those of the records, and every write
succeeded. -/
structure Complete (w : Writes) (rows : List Record) : Prop where
  fetched : ∀ s ∈ sessions, s.endpoint.isSome = true ∧ s.listing.isSome = true
  records : ∀ r ∈ rows, ∃ e, r.key.endpoint = some e ∧ ∃ s ∈ sessions, s.endpoint = some e
  succeeds : ∀ key, w.succeeds key = true
  raises : w.raises = false

/-- A record is made stale on evidence only, and a complete run leaves those records active that
are listed. -/
structure Faithful (w : Writes) (marksAll : Prop) (rows final : List Record) : Prop where
  evidence : ∀ i key, Staled rows final i key → Read sessions key ∧ ¬Listed id sessions key
  settled : Complete sessions w rows → marksAll →
    ∀ r ∈ final, r.status = .active ↔ Listed id sessions r.key

/-- No record is harmed.  What the marking reaches is known to it, or is gone from an endpoint that
was read; in a complete run the records that are listed are those that are known and active or
patched or, if nothing is kept at all, the active ones. -/
structure Harmless (w : Writes) (marksAll : Prop) (rows : List Record)
    (reached known kept : Key → Prop) : Prop where
  evidence : (∃ key, kept key) → w.raises = false → ∀ r ∈ rows, r.status = .active →
    reached r.key → known r.key ∨ Read sessions r.key ∧ ¬Listed id sessions r.key
  settled : Complete sessions w rows → marksAll → ∀ i r, rows[i]? = some r →
    (Listed id sessions r.key ↔ (¬∃ key, kept key) ∧ r.status = .active ∨
      (∃ key, kept key) ∧ known r.key ∧
        (r.status = .active ∨ kept r.key ∧ isFirst rows i r.key = true))

variable {id sessions} {w : Writes} {marksAll : Prop} {rows : List Record}
  {reached known kept : Key → Prop} {p : Pass}

/-- A pass is faithful if and only if it is harmless. -/
theorem faithful_iff (hkept : ∀ key, key ∈ p.keys ↔ kept key)
    (hreached : ∀ key, p.reaches key = true ↔ reached key)
    (hknown : ∀ key, p.knows key = true ↔ known key)
    (hlisted : (∀ s ∈ sessions, s.endpoint.isSome = true ∧ s.listing.isSome = true) →
      ∀ key, kept key → Listed id sessions key)
    (hcovers : marksAll → ∀ key e, key.endpoint = some e →
      (∃ s ∈ sessions, s.endpoint = some e) → reached key) :
    Faithful id sessions w marksAll rows (finalRows p w rows) ↔
      Harmless id sessions w marksAll rows reached known kept := by
  have hany : p.keys ≠ [] ↔ ∃ key, kept key := by
    simp only [← List.length_pos_iff, List.length_pos_iff_exists_mem, hkept]
  have hevidence : (∀ i key, Staled rows (finalRows p w rows) i key →
      Read sessions key ∧ ¬Listed id sessions key) ↔ _ := staled_only_iff
  have hsettled : ∀ hcomplete : Complete sessions w rows, marksAll →
      ((∀ r ∈ finalRows p w rows, r.status = .active ↔ Listed id sessions r.key) ↔
        ∀ i r, rows[i]? = some r → (Listed id sessions r.key ↔
          (¬∃ key, kept key) ∧ r.status = .active ∨ (∃ key, kept key) ∧ known r.key ∧
            (r.status = .active ∨ kept r.key ∧ isFirst rows i r.key = true))) := by
    intro hcomplete hmarks
    have hkeys : ∀ key ∈ p.keys, Listed id sessions key :=
      fun key hkey => hlisted hcomplete.fetched key ((hkept key).mp hkey)
    have hlooksUp : ∀ key ∈ p.keys, key.looksUp = true := by
      intro key hkey
      obtain ⟨e, he, _⟩ := hkeys key hkey
      rw [Key.looksUp, he]
      exact Bool.or_true _
    have hrows : ∀ r ∈ rows, p.reaches r.key = true := by
      intro r hr
      obtain ⟨e, he, hs⟩ := hcomplete.records r hr
      exact (hreached _).mpr (hcovers hmarks _ e he hs)
    have hreaches : ∀ key ∈ p.keys, p.reaches key = true := by
      intro key hkey
      obtain ⟨e, he, s, hs, hse, _⟩ := hkeys key hkey
      exact (hreached _).mpr (hcovers hmarks _ e he ⟨s, hs, hse⟩)
    rw [settled_iff hkeys hlooksUp hcomplete.succeeds hcomplete.raises hrows hreaches]
    refine forall_congr' fun i => forall_congr' fun r => forall_congr' fun _ => iff_congr .rfl ?_
    rw [← hany, hknown, hkept]
    by_cases hnil : p.keys = []
    · simp [hnil]
    · simp [hnil]
  constructor
  · rintro ⟨h, h'⟩
    refine ⟨?_, fun hcomplete hmarks => (hsettled hcomplete hmarks).mp (h' hcomplete hmarks)⟩
    intro hsome hraises r hr hactive hreach
    have := hevidence.mp h (hany.mpr hsome) hraises r hr hactive ((hreached _).mpr hreach)
    rwa [hknown] at this
  · rintro ⟨h, h'⟩
    refine ⟨?_, fun hcomplete hmarks => (hsettled hcomplete hmarks).mpr (h' hcomplete hmarks)⟩
    refine hevidence.mpr fun hkeys hraises r hr hactive hreach => ?_
    rw [hknown]
    exact h (hany.mp hkeys) hraises r hr hactive ((hreached _).mp hreach)

end Runs

/-- A session of the endpoint lists the replication, and its VM is resolved. -/
def ReplicationKept (vms : List VirtualMachine) (sessions : List ReplicationSession) (key : Key) :
    Prop :=
  ∃ s ∈ sessions, s.session.endpoint = key.endpoint ∧ ∃ rep ∈ s.session.listing.getD [],
    rep.id = key.jobId ∧ (resolveReplicationVmId vms s.clusterId rep.guest).isSome = true

/-- A session of the endpoint lists the job, and its payload is built. -/
def RoutineKept (sessions : List (Session Routine)) (key : Key) : Prop :=
  ∃ s ∈ sessions, s.endpoint = key.endpoint ∧ key.endpoint.isSome = true ∧
    ∃ job ∈ s.listing.getD [], job.id = key.jobId ∧ job.id ≠ "" ∧ job.parses = true

theorem mem_replicationKeys_iff {vms : List VirtualMachine} {sessions : List ReplicationSession}
    {key : Key} : key ∈ sessions.flatMap (replicationKeys vms) ↔
      ReplicationKept vms sessions key := by
  obtain ⟨jobId, endpoint⟩ := key
  simp only [List.mem_flatMap, replicationKeys, List.mem_map, List.mem_filter, ReplicationKept,
    Key.mk.injEq]
  constructor
  · rintro ⟨s, hs, rep, ⟨hrep, hvm⟩, hid, hendpoint⟩
    exact ⟨s, hs, hendpoint, rep, hrep, hid, hvm⟩
  · rintro ⟨s, hs, hendpoint, rep, hrep, hid, hvm⟩
    exact ⟨s, hs, rep, ⟨hrep, hvm⟩, hid, hendpoint⟩

theorem mem_routineKeys_iff {sessions : List (Session Routine)} {key : Key} :
    key ∈ sessions.flatMap routineKeys ↔ RoutineKept sessions key := by
  obtain ⟨jobId, endpoint⟩ := key
  rw [List.mem_flatMap]
  refine exists_congr fun s => and_congr_right fun _ => ?_
  unfold routineKeys
  cases s.endpoint with
  | none =>
    constructor
    · intro h
      cases h
    · rintro ⟨rfl, hsome, _⟩
      cases hsome
  | some e =>
    simp only [List.mem_map, List.mem_filter, Key.mk.injEq, Bool.and_eq_true, decide_eq_true_eq]
    constructor
    · rintro ⟨job, ⟨hjob, hid, hparses⟩, rfl, rfl⟩
      exact ⟨rfl, rfl, job, hjob, rfl, hid, hparses⟩
    · rintro ⟨rfl, _, job, hjob, rfl, hid, hparses⟩
      exact ⟨job, ⟨hjob, hid, hparses⟩, rfl, rfl⟩

/-- The endpoint of the record has a session, and its marking succeeds. -/
def ReplicationReached (sessions : List ReplicationSession) (marks : ℤ → Bool) (key : Key) : Prop :=
  ∃ e, key.endpoint = some e ∧ marks e = true ∧ ∃ s ∈ sessions, s.session.endpoint = some e

/-- Both syncs are faithful if and only if they are harmless. -/
theorem syncs_faithful_iff (vms : List VirtualMachine) (replications : List ReplicationSession)
    (routines : List (Session Routine)) (w : Writes) (marks : ℤ → Bool) (marksRoutines : Bool)
    (rows : List Record) :
    (Faithful (·.id) (replications.map (·.session)) w (∀ e, marks e = true) rows
        (syncAllReplications vms replications w marks rows) ↔
      Harmless (·.id) (replications.map (·.session)) w (∀ e, marks e = true) rows
        (ReplicationReached replications marks)
        (fun key => ∃ endpoint, ReplicationKept vms replications ⟨key.jobId, endpoint⟩)
        (ReplicationKept vms replications)) ∧
    (Faithful (·.id) routines w (marksRoutines = true) rows
        (syncAllBackupRoutines routines w marksRoutines rows) ↔
      Harmless (·.id) routines w (marksRoutines = true) rows (fun _ => marksRoutines = true)
        (RoutineKept routines) (RoutineKept routines)) := by
  constructor
  · refine faithful_iff (fun key => mem_replicationKeys_iff) (fun key => ?_) (fun key => ?_) ?_ ?_
    · unfold ReplicationReached
      change (match key.endpoint with
        | none => false
        | some e => marks e && replications.any fun s => s.session.endpoint = some e) = true ↔ _
      cases key.endpoint with
      | none => simp
      | some e => simp
    · change (List.any _ _) = true ↔ _
      rw [List.any_eq_true]
      constructor
      · rintro ⟨⟨jobId, endpoint⟩, hmem, hid⟩
        obtain rfl := of_decide_eq_true hid
        exact ⟨endpoint, mem_replicationKeys_iff.mp hmem⟩
      · rintro ⟨endpoint, hkept⟩
        exact ⟨_, mem_replicationKeys_iff.mpr hkept, by simp⟩
    · rintro hread key ⟨s, hs, hendpoint, rep, hrep, hid, _⟩
      have hmem : s.session ∈ replications.map (·.session) := List.mem_map_of_mem hs
      obtain ⟨e, he⟩ := Option.isSome_iff_exists.mp (hread _ hmem).1
      exact ⟨e, hendpoint ▸ he, s.session, hmem, he, rep, hrep, hid⟩
    · rintro hmarks key e he ⟨s, hs, hse⟩
      obtain ⟨s', hs', rfl⟩ := List.mem_map.mp hs
      exact ⟨e, he, hmarks e, s', hs', hse⟩
  · refine faithful_iff (fun key => mem_routineKeys_iff) (fun key => .rfl) (fun key => ?_) ?_ ?_
    · change List.contains _ key = true ↔ _
      rw [List.contains_iff_mem]
      exact mem_routineKeys_iff
    · rintro hread key ⟨s, hs, hendpoint, _, job, hjob, hid, _⟩
      obtain ⟨e, he⟩ := Option.isSome_iff_exists.mp (hread s hs).1
      exact ⟨e, hendpoint ▸ he, s, hs, he, job, hjob, hid⟩
    · exact fun hmarks _ _ _ _ => hmarks

/-- The replications of endpoint 1 cannot be read: its record is made stale for the job that endpoint
2 lists. -/
theorem unread_replication_staled : ¬Faithful (·.id)
    (([⟨none, .fetched (some 1) none⟩, ⟨none, .fetched (some 2) (some [⟨"100-0", some 100⟩])⟩] :
      List ReplicationSession).map (·.session)) ⟨fun _ => true, false⟩
    (∀ e : ℤ, (fun _ => true) e = true) [⟨⟨"200-0", some 1⟩, .active⟩]
    (syncAllReplications [⟨7, none, some 100⟩] [⟨none, .fetched (some 1) none⟩,
      ⟨none, .fetched (some 2) (some [⟨"100-0", some 100⟩])⟩] ⟨fun _ => true, false⟩ (fun _ => true)
        [⟨⟨"200-0", some 1⟩, .active⟩]) := by
  intro h
  obtain ⟨⟨e, he, _, hread⟩, _⟩ := h.evidence 0 ⟨"200-0", some 1⟩ ⟨rfl, _, rfl, rfl⟩
  cases he
  have := hread (.fetched (some 1) none) (by simp) rfl
  cases this

end ProxboxApi.StaleMarking
