import ProxboxApi.Python

/-! How the VM queue finds the NetBox record of a prepared VM: the identities read off
records and payloads, the four indexes, and the selection. -/

namespace ProxboxApi.VmQueue

abbrev Record := Json.Fields

/-- `dict.get`. -/
def field (name : String) (fields : Json.Fields) : Json := (Dict.get name fields).getD .null

/-- The part of `PreparedVMState` that the queue reads. -/
structure PreparedVMState where
  clusterName : String
  resource : Json.Fields
  desiredPayload : Json.Fields
  vmType : String

variable (py : Python)

/-- `int` of a string that `str.isdigit` accepts; the outer `none` is its `ValueError`. -/
def digitsId (s : String) : Option (Option ℤ) :=
  if py.isDigit s then (py.parseInt s).map some else some none

/-- A candidate of `relation_id` inside a mapping. -/
def relationCandidate : Json → Option (Option ℤ)
  | .int n => some (some n)
  | .bool b => some (some (if b then 1 else 0))
  | .str s => digitsId py s
  | _ => some none

/-- `relation_id`; the outer `none` is an exception. -/
def relationId : Json → Option (Option ℤ)
  | .obj fields => do
    match ← relationCandidate py (field "id" fields) with
    | some n => some (some n)
    | none => relationCandidate py (field "value" fields)
  | value => relationCandidate py value

/-- `int(str(value).strip())`, `none` where it raises. -/
def stripInt (value : Json) : Option ℤ := py.parseInt (Text.strip (py.str value))

/-- `normalize_positive_int`. -/
def normalizePositiveInt (value : Json) : Option ℤ :=
  if value.isNull || Text.strip (py.str value) = "" then none
  else (stripInt py value).filter (0 < ·)

def customFields (record : Record) : Option Json.Fields :=
  match field "custom_fields" record with
  | .obj fields => some fields
  | _ => none

/-- `extract_proxmox_endpoint_id`. -/
def extractProxmoxEndpointId (record : Record) : Option ℤ :=
  let read := fun fields name => normalizePositiveInt py (field name fields)
  ((read record "cf_proxmox_endpoint_id").or (read record "proxmox_endpoint_id")).or
    (match customFields record with
    | some fields => (read fields "proxmox_endpoint_id").or (read fields "cf_proxmox_endpoint_id")
    | none => none)

/-- The VM id custom field of a record. -/
def storedVmid (record : Record) : Option ℤ :=
  match customFields record with
  | some fields => stripInt py (field "proxmox_vm_id" fields)
  | none => none

/-- `extract_cluster_and_proxmox_vmid`. -/
def extractClusterAndProxmoxVmid (record : Record) : Option (Option (ℤ × ℤ)) := do
  match ← relationId py (field "cluster" record) with
  | none => some none
  | some clusterId => some ((storedVmid py record).map fun vmid => (clusterId, vmid))

/-- `extract_endpoint_and_proxmox_vmid`. -/
def extractEndpointAndProxmoxVmid (record : Record) : Option (ℤ × ℤ) := do
  let endpointId ← extractProxmoxEndpointId py record
  let vmid ← storedVmid py record
  some (endpointId, vmid)

/-- The first value of a mapping that is not empty, in the order `normalize_proxmox_vm_type`
tries its keys. -/
def vmTypeValue : Json → Json
  | .obj fields =>
    ((["value", "slug", "name", "label"].map (field · fields)).find? Python.truthy).getD .null
  | value => value

/-- `normalize_proxmox_vm_type`. -/
def normalizeProxmoxVmType (value : Json) : Option String :=
  let value := vmTypeValue value
  if value.isNull then none
  else
    let normalized := py.lower (Text.strip (py.str value))
    if normalized = "" then none else some normalized

/-- `extract_proxmox_vm_type`. -/
def extractProxmoxVmType (record : Record) : Option String :=
  match customFields record with
  | some fields => normalizeProxmoxVmType py (field "proxmox_vm_type" fields)
  | none => none

abbrev TypedSnapshotIndex := List ((ℤ × ℤ × String) × Record)
abbrev UntypedSnapshotIndex := List ((ℤ × ℤ) × List Record)

/-- The two indexes of one scope. -/
structure ScopeIndex where
  typed : TypedSnapshotIndex
  untyped : UntypedSnapshotIndex

structure Indexes where
  endpoint : ScopeIndex
  cluster : ScopeIndex

def Indexes.empty : Indexes := ⟨⟨[], []⟩, ⟨[], []⟩⟩

/-- A record enters the indexes of a scope under its key, if it has one. -/
def ScopeIndex.add (vmType : Option String) (record : Record) (index : ScopeIndex) :
    Option (ℤ × ℤ) → ScopeIndex
  | none => index
  | some key =>
    { typed := match vmType with
        | some t => Dict.setDefault (key.1, key.2, t) record index.typed
        | none => index.typed
      untyped := Dict.set key ((Dict.get key index.untyped).getD [] ++ [record]) index.untyped }

/-- `build_vm_snapshot_identity_indexes`, on from the indexes built so far. -/
def addToIndexes (indexes : Indexes) (record : Record) : Option Indexes := do
  let clusterKey ← extractClusterAndProxmoxVmid py record
  let vmType := extractProxmoxVmType py record
  some ⟨indexes.endpoint.add vmType record (extractEndpointAndProxmoxVmid py record),
    indexes.cluster.add vmType record clusterKey⟩

/-- `build_vm_snapshot_identity_indexes`. -/
def buildVmSnapshotIdentityIndexes (snapshot : List Record) : Option Indexes :=
  snapshot.foldlM (addToIndexes py) Indexes.empty

/-- The choice of `select_existing_vm_record` among the indexes of one scope. -/
def ScopeIndex.select (index : ScopeIndex) (scopeId vmid : ℤ) (vmType : Option String) :
    Option Record :=
  let candidates := (Dict.get (scopeId, vmid) index.untyped).getD []
  match vmType with
  | some t => match Dict.get (scopeId, vmid, t) index.typed with
    | some record => some record
    | none => match candidates with
      | [record] => if extractProxmoxVmType py record = none then some record else none
      | _ => none
  | none => match candidates with
    | [record] => some record
    | _ => none

/-- `select_existing_vm_record`. -/
def selectExistingVmRecord (prepared : PreparedVMState) (endpointId clusterId vmid : Option ℤ)
    (indexes : Indexes) : Option Record :=
  let vmType := normalizeProxmoxVmType py (.str prepared.vmType)
  match vmid, endpointId, clusterId with
  | none, _, _ => none
  | some vmid, some endpointId, _ => indexes.endpoint.select py endpointId vmid vmType
  | some vmid, none, some clusterId => indexes.cluster.select py clusterId vmid vmType
  | some _, none, none => none

/-- The indexes by which a prepared VM is looked up. -/
inductive Scope where
  | endpoint
  | cluster
  deriving DecidableEq, Repr

def Indexes.of (indexes : Indexes) : Scope → ScopeIndex
  | .endpoint => indexes.endpoint
  | .cluster => indexes.cluster

/-- The key a record carries in a scope. -/
def recordKey : Scope → Record → Option (ℤ × ℤ)
  | .endpoint, record => extractEndpointAndProxmoxVmid py record
  | .cluster, record => (extractClusterAndProxmoxVmid py record).join

/-- The records that carry a key, in snapshot order. -/
def candidates (snapshot : List Record) (scope : Scope) (key : ℤ × ℤ) : List Record :=
  snapshot.filter fun record => recordKey py scope record = some key

/-- The records a prepared VM of a type can be matched with, stated on the snapshot. -/
def choose (vmType : Option String) (candidates : List Record) : Option Record :=
  match vmType with
  | some t => match candidates.find? fun r => extractProxmoxVmType py r = some t with
    | some record => some record
    | none => match candidates with
      | [record] => if extractProxmoxVmType py record = none then some record else none
      | _ => none
  | none => match candidates with
    | [record] => some record
    | _ => none

/-- The build raises only where the cluster of a record does. -/
theorem buildVmSnapshotIdentityIndexes_isSome {snapshot : List Record} :
    (∃ indexes, buildVmSnapshotIdentityIndexes py snapshot = some indexes) ↔
      ∀ r ∈ snapshot, ∃ key, extractClusterAndProxmoxVmid py r = some key := by
  unfold buildVmSnapshotIdentityIndexes
  generalize Indexes.empty = start
  induction snapshot generalizing start with
  | nil => simp
  | cons r snapshot ih =>
    rw [List.forall_mem_cons, List.foldlM_cons]
    cases hkey : extractClusterAndProxmoxVmid py r with
    | none => simp [addToIndexes, hkey]
    | some key => simpa [addToIndexes, hkey] using ih _

/-- A step of the index build, in either scope. -/
theorem addToIndexes_of {indexes indexes' : Indexes} {record : Record} (scope : Scope)
    (h : addToIndexes py indexes record = some indexes') :
    indexes'.of scope = (indexes.of scope).add (extractProxmoxVmType py record) record
      (recordKey py scope record) := by
  unfold addToIndexes at h
  cases hkey : extractClusterAndProxmoxVmid py record with
  | none => simp [hkey] at h
  | some key =>
    have heq : indexes' = ⟨indexes.endpoint.add (extractProxmoxVmType py record) record
        (extractEndpointAndProxmoxVmid py record),
        indexes.cluster.add (extractProxmoxVmType py record) record key⟩ := by
      simpa [hkey] using h.symm
    cases scope with
    | endpoint => simp [heq, Indexes.of, recordKey]
    | cluster => simp [heq, Indexes.of, recordKey, hkey]

theorem add_untyped {index : ScopeIndex} {vmType : Option String} {record : Record}
    {recordKey : Option (ℤ × ℤ)} (key : ℤ × ℤ) :
    (Dict.get key (index.add vmType record recordKey).untyped).getD [] =
      (Dict.get key index.untyped).getD [] ++ if recordKey = some key then [record] else [] := by
  cases recordKey with
  | none => simp [ScopeIndex.add]
  | some key' =>
    simp only [ScopeIndex.add, Dict.get_set, Option.some.injEq]
    by_cases hkey : key' = key
    · simp [hkey]
    · simp [hkey]

theorem add_typed {index : ScopeIndex} {vmType : Option String} {record : Record}
    {recordKey : Option (ℤ × ℤ)} (key : ℤ × ℤ) (t : String) :
    Dict.get (key.1, key.2, t) (index.add vmType record recordKey).typed =
      (Dict.get (key.1, key.2, t) index.typed).or
        (if recordKey = some key ∧ vmType = some t then some record else none) := by
  cases recordKey with
  | none => simp [ScopeIndex.add]
  | some key' =>
    cases vmType with
    | none => simp [ScopeIndex.add]
    | some t' =>
      have hiff : ((key'.1, key'.2, t') = (key.1, key.2, t)) ↔
          (some key' = some key ∧ some t' = some t) := by
        simp [Prod.ext_iff, and_assoc]
      simp only [ScopeIndex.add, Dict.get_setDefault, hiff]

theorem foldlM_untyped {snapshot : List Record} {indexes indexes' : Indexes} (scope : Scope)
    (key : ℤ × ℤ) (h : snapshot.foldlM (addToIndexes py) indexes = some indexes') :
    (Dict.get key (indexes'.of scope).untyped).getD [] =
      (Dict.get key (indexes.of scope).untyped).getD [] ++ candidates py snapshot scope key := by
  induction snapshot generalizing indexes with
  | nil =>
    obtain rfl : indexes = indexes' := by simpa using h
    simp [candidates]
  | cons record snapshot ih =>
    rw [List.foldlM_cons] at h
    obtain ⟨mid, hstep, hrest⟩ := Option.bind_eq_some_iff.mp h
    rw [ih hrest, addToIndexes_of py scope hstep, add_untyped]
    by_cases hkey : recordKey py scope record = some key
    · simp [candidates, hkey]
    · simp [candidates, hkey]

theorem foldlM_typed {snapshot : List Record} {indexes indexes' : Indexes} (scope : Scope)
    (key : ℤ × ℤ) (t : String) (h : snapshot.foldlM (addToIndexes py) indexes = some indexes') :
    Dict.get (key.1, key.2, t) (indexes'.of scope).typed =
      (Dict.get (key.1, key.2, t) (indexes.of scope).typed).or
        ((candidates py snapshot scope key).find? fun r => extractProxmoxVmType py r = some t) := by
  induction snapshot generalizing indexes with
  | nil =>
    obtain rfl : indexes = indexes' := by simpa using h
    simp [candidates]
  | cons record snapshot ih =>
    rw [List.foldlM_cons] at h
    obtain ⟨mid, hstep, hrest⟩ := Option.bind_eq_some_iff.mp h
    rw [ih hrest, addToIndexes_of py scope hstep, add_typed, Option.or_assoc]
    congr 1
    by_cases hkey : recordKey py scope record = some key
    · by_cases ht : extractProxmoxVmType py record = some t
      · simp [candidates, hkey, ht]
      · simp [candidates, hkey, ht]
    · simp [candidates, hkey]

/-- The indexes answer as a search of the snapshot does. -/
theorem select_eq {snapshot : List Record} {indexes : Indexes} (scope : Scope) {id vmid : ℤ}
    {vmType : Option String} (h : buildVmSnapshotIdentityIndexes py snapshot = some indexes) :
    (indexes.of scope).select py id vmid vmType =
      choose py vmType (candidates py snapshot scope (id, vmid)) := by
  have huntyped := foldlM_untyped py scope (id, vmid) h
  have hempty : (Indexes.empty.of scope).untyped = [] ∧ (Indexes.empty.of scope).typed = [] := by
    cases scope <;> exact ⟨rfl, rfl⟩
  rw [hempty.1] at huntyped
  have huntyped : (Dict.get (id, vmid) (indexes.of scope).untyped).getD [] =
      candidates py snapshot scope (id, vmid) := by simpa [Dict.get] using huntyped
  unfold ScopeIndex.select choose
  rw [huntyped]
  cases vmType with
  | none => rfl
  | some t =>
    have htyped := foldlM_typed py scope (id, vmid) t h
    rw [hempty.2] at htyped
    have htyped : Dict.get (id, vmid, t) (indexes.of scope).typed =
        (candidates py snapshot scope (id, vmid)).find? fun r =>
          extractProxmoxVmType py r = some t := by simpa [Dict.get] using htyped
    dsimp only
    rw [htyped]

end ProxboxApi.VmQueue
