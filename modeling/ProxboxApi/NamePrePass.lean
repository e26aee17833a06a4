import Mathlib.Data.List.Sort
import ProxboxApi.NameCollision

/-! The name pre-pass of the full update: the used names of each NetBox cluster, the groups of
prepared VMs, and the resolution of their names in order. -/

namespace ProxboxApi.VmNames

open ProxboxApi.VmQueue

variable (py : Python)

/-- `int(resource.get("vmid", 0) or 0)`, zero where it raises. -/
def vmidOf (p : PreparedVMState) : ℤ :=
  let vmid := field "vmid" p.resource
  if Python.truthy vmid then (py.int vmid).getD 0 else 0

/-- `str(desired_payload.get("name") or "")`. -/
def candidateName (p : PreparedVMState) : String :=
  let name := field "name" p.desiredPayload
  if Python.truthy name then py.str name else ""

/-- A name of the snapshot that counts: a string that is not empty. -/
def snapshotName (record : Record) : Option String :=
  match field "name" record with
  | .str name => if name = "" then none else some name
  | _ => none

/-- A record enters the used names of its cluster. -/
def addUsedName (used : List (ℤ × Finset String)) (record : Record) :
    Option (List (ℤ × Finset String)) := do
  let clusterId ← relationId py (field "cluster" record)
  match clusterId, snapshotName record with
  | some clusterId, some name =>
    some (Dict.set clusterId (insert name ((Dict.get clusterId used).getD ∅)) used)
  | _, _ => some used

abbrev Group := List (PreparedVMState × ℕ)

/-- A prepared VM, with its place in the list, enters the group of its cluster. -/
def addToGroup (groups : List (Option ℤ × Group)) (x : PreparedVMState × ℕ) :
    Option (List (Option ℤ × Group)) := do
  let clusterId ← relationId py (field "cluster" x.1.desiredPayload)
  some (Dict.set clusterId ((Dict.get clusterId groups).getD [] ++ [x]) groups)

/-- The record that the pre-pass selects for a prepared VM of a cluster. -/
def existingOf (indexes : Indexes) (clusterId : Option ℤ) (p : PreparedVMState) : Option Record :=
  let vmid := vmidOf py p
  selectExistingVmRecord py p (extractProxmoxEndpointId py p.desiredPayload) clusterId
    (if vmid = 0 then none else some vmid) indexes

/-- The names of the selected records leave the used names. -/
def strip (indexes : Indexes) (clusterId : Option ℤ) (group : Group) (used : Finset String) :
    Finset String :=
  group.foldl (fun used x =>
    match existingOf py indexes clusterId x.1 with
    | some existing => match field "name" existing with
      | .str name => used.erase name
      | _ => used
    | none => used) used

/-- The order of `_sort_key`. -/
def sortsBefore (x y : PreparedVMState × ℕ) : Prop :=
  py.casefold x.1.clusterName < py.casefold y.1.clusterName ∨
    (py.casefold x.1.clusterName = py.casefold y.1.clusterName ∧ vmidOf py x.1 ≤ vmidOf py y.1)

instance : DecidableRel (sortsBefore py) := fun _ _ => inferInstanceAs (Decidable (_ ∨ _))

/-- `record_id` of a record; the outer `none` is an exception. -/
def recordId (record : Record) : Option (Option ℤ) := relationId py (.obj record)

/-- The last synced name of the selected record, by the record's id. -/
def lastSyncedName (lastSyncedNames : List (ℤ × String)) : Option Record → Option (Option String)
  | none => some none
  | some existing => (recordId py existing).map fun id => id.bind (Dict.get · lastSyncedNames)

def setName (name : String) (p : PreparedVMState) : PreparedVMState :=
  { p with desiredPayload := Dict.set "name" (.str name) p.desiredPayload }

/-- The used names of the cluster at hand, the prepared VMs with the names set so far, and the
resolutions to report. -/
structure PassState where
  used : Finset String
  prepared : List PreparedVMState
  resolutions : List NameResolution

/-- One prepared VM of a group. -/
def resolveStep (indexes : Indexes) (lastSyncedNames : List (ℤ × String)) (clusterId : Option ℤ)
    (s : PassState) (x : PreparedVMState × ℕ) : Option PassState :=
  let candidate := candidateName py x.1
  if candidate = "" ∨ vmidOf py x.1 = 0 then some s
  else do
    let existing := existingOf py indexes clusterId x.1
    let lastSynced ← lastSyncedName py lastSyncedNames existing
    let (resolution, used) :=
      resolveUniqueVmName py clusterId candidate s.used existing lastSynced
    if resolution.isCollision || resolution.operatorRenamed then
      some ⟨used, s.prepared.modify x.2 (setName resolution.resolvedName),
        s.resolutions ++ [resolution]⟩
    else some { s with used }

/-- One group: its names leave the used names, and its VMs are named in order. -/
def resolveGroup (indexes : Indexes) (lastSyncedNames : List (ℤ × String))
    (clusterUsedNames : List (ℤ × Finset String)) (s : PassState) :
    Option ℤ × Group → Option PassState
  | (clusterId, group) =>
    let used := match clusterId with
      | some clusterId => (Dict.get clusterId clusterUsedNames).getD ∅
      | none => ∅
    (group.insertionSort (sortsBefore py)).foldlM
      (resolveStep py indexes lastSyncedNames clusterId)
      { s with used := strip py indexes clusterId group used }

/-- `_resolve_vm_names_pre_pass`: the prepared VMs after it and the resolutions it returns. -/
def resolveVmNamesPrePass (snapshot : List Record) (lastSyncedNames : List (ℤ × String))
    (prepared : List PreparedVMState) : Option (List PreparedVMState × List NameResolution) := do
  let indexes ← buildVmSnapshotIdentityIndexes py snapshot
  let clusterUsedNames ← snapshot.foldlM (addUsedName py) []
  let grouped ← prepared.zipIdx.foldlM (addToGroup py) []
  let s ← grouped.foldlM (resolveGroup py indexes lastSyncedNames clusterUsedNames)
    ⟨∅, prepared, []⟩
  some (s.prepared, s.resolutions)

end ProxboxApi.VmNames
