import Mathlib.Data.List.Perm.Subperm
import Mathlib.Data.List.Dedup
import ProxboxApi.CloudProvision
import ProxboxApi.VmidHelpers

/-! The parameters of a QEMU CREATE intent and the delta of an UPDATE intent. Both are made by
assignments to one dictionary, so a disk or a NIC keeps its parameter where nothing else is
assigned to its key. -/

namespace ProxboxApi.IntentParams

open CloudProvision (Settings buildIpconfig0)
open VmQueue (field)

structure CloudInitPayload where
  user : Option String
  password : Option String
  sshKeys : Option (List String)
  userData : Option (String ⊕ Json.Fields)
  network : Option Json.Fields
  searchDomain : Option String
  dnsServers : Option (List String)

/-- `VMIntentPayload`, by the fields that parameters are made of; `fieldsSet` is its
`model_fields_set`, and a field outside it has its default. -/
structure VMIntentPayload where
  vmid : ℤ
  name : Option String
  cores : Option ℤ
  memoryMib : Option ℤ
  disks : List Json.Fields
  nics : List Json.Fields
  tags : List String
  cloudInit : Option CloudInitPayload
  fieldsSet : List String
  name_default : "name" ∉ fieldsSet → name = none
  cores_default : "cores" ∉ fieldsSet → cores = none
  memoryMib_default : "memory_mib" ∉ fieldsSet → memoryMib = none
  disks_default : "disks" ∉ fieldsSet → disks = []
  nics_default : "nics" ∉ fieldsSet → nics = []
  tags_default : "tags" ∉ fieldsSet → tags = []
  cloudInit_default : "cloud_init" ∉ fieldsSet → cloudInit = none

/-- `quote` without safe characters, and `yaml.safe_dump` in block style. -/
structure Encoders where
  quote : String → String
  safeDump : Json.Fields → String

variable (cfg : Settings) (enc : Encoders)

/-- The assignment of a value that may be missing. -/
def setSome (key : String) (value : Option Json) (params : Json.Fields) : Json.Fields :=
  match value with
  | none => params
  | some v => Dict.set key v params

/-- `_build_cicustom`. -/
def buildCicustom : String ⊕ Json.Fields → String
  | .inl userData =>
    if ["user=", "network=", "vendor=", "meta="].any fun mark =>
        mark.toList.isPrefixOf (Text.strip userData).toList
    then userData else "user=" ++ userData
  | .inr userData => "user=" ++ enc.safeDump userData

/-- `build_proxmox_ci_args`. -/
def buildProxmoxCiArgs (payload : CloudInitPayload) : Json.Fields :=
  let args := setSome "ciuser" (payload.user.map .str) []
  let args := setSome "cipassword" (payload.password.map .str) args
  let args := setSome "sshkeys"
    (payload.sshKeys.map fun keys => .str (enc.quote ("\n".intercalate keys))) args
  let args := setSome "cicustom" (payload.userData.map fun d => .str (buildCicustom enc d)) args
  let args := setSome "ipconfig0" ((payload.network.bind (buildIpconfig0 cfg)).map .str) args
  let args := setSome "searchdomain" (payload.searchDomain.map .str) args
  setSome "nameserver" ((payload.dnsServers.filter fun servers => !servers.isEmpty).map
    fun servers => .str (" ".intercalate servers)) args

/-- The key of an item: its `key`, `name` or `slot`, or else its place in the list. -/
def itemKey (defaultPrefix : String) (index : ℕ) (item : Json.Fields) : String :=
  match ["key", "name", "slot"].find? fun f => Python.truthy (field f item) with
  | some f => cfg.py.str (field f item)
  | none => defaultPrefix ++ toString index

/-- The value of an item: its `value` or `config`, or else its other fields. -/
def itemValue (item : Json.Fields) : Option Json :=
  let value := if Python.truthy (field "value" item) then field "value" item
    else field "config" item
  if !value.isNull then some value
  else
    let parts := item.filterMap fun kv =>
      if ["key", "name", "slot"].contains kv.1 || kv.2.isNull then none
      else some (kv.1 ++ "=" ++ cfg.py.str kv.2)
    if parts.isEmpty then none else some (.str (",".intercalate parts))

/-- `merge_indexed_items`. -/
def mergeIndexedItems (defaultPrefix : String) (items : List Json.Fields)
    (params : Json.Fields) : Json.Fields :=
  items.zipIdx.foldl (fun params entry =>
    setSome (itemKey cfg defaultPrefix entry.2 entry.1) (itemValue cfg entry.1) params) params

/-- `tags_to_config`. -/
def tagsToConfig (tags : List String) : String := ";".intercalate tags

/-- `_build_qemu_create_params`. -/
def buildQemuCreateParams (payload : VMIntentPayload) : Json.Fields :=
  let params := [("vmid", .int payload.vmid), ("name", (payload.name.map .str).getD .null)]
  let params := setSome "cores" (payload.cores.map .int) params
  let params := setSome "memory" (payload.memoryMib.map .int) params
  let params := if payload.tags.isEmpty then params
    else Dict.set "tags" (.str (tagsToConfig payload.tags)) params
  let params := match payload.cloudInit with
    | none => params
    | some cloudInit => Dict.update params (buildProxmoxCiArgs cfg enc cloudInit)
  let params := mergeIndexedItems cfg "scsi" payload.disks params
  mergeIndexedItems cfg "net" payload.nics params

/-- `values_match`. -/
def valuesMatch (current desired : Json) : Bool :=
  if Json.pyEq current desired then true
  else match desired with
    -- a `bool` is an `int` for `isinstance`
    | .bool b => cfg.py.parseInt (cfg.py.str current) == some (if b then 1 else 0)
    | .int n => cfg.py.parseInt (cfg.py.str current) == some n
    | .str s => cfg.py.str current == s
    | _ => false

/-- `set_delta_if_changed`. -/
def setDeltaIfChanged (current : Json.Fields) (key : String) (desired : Json)
    (delta : Json.Fields) : Json.Fields :=
  if valuesMatch cfg (field key current) desired then delta else Dict.set key desired delta

/-- `set_delta_if_changed` for every entry of a dictionary. -/
def setChanged (current desired delta : Json.Fields) : Json.Fields :=
  desired.foldl (fun delta kv => setDeltaIfChanged cfg current kv.1 kv.2 delta) delta

/-- `merge_indexed_delta`. -/
def mergeIndexedDelta (current : Json.Fields) (defaultPrefix : String)
    (items : List Json.Fields) (delta : Json.Fields) : Json.Fields :=
  setChanged cfg current (mergeIndexedItems cfg defaultPrefix items []) delta

/-- `set_delta_if_changed`, of a value that may be missing. -/
def changeSome (current : Json.Fields) (key : String) (value : Option Json)
    (delta : Json.Fields) : Json.Fields :=
  match value with
  | none => delta
  | some v => setDeltaIfChanged cfg current key v delta

/-- Whether a field is in `model_fields_set`. -/
def VMIntentPayload.isSet (payload : VMIntentPayload) (name : String) : Bool :=
  payload.fieldsSet.contains name

/-- `_build_qemu_update_delta`. -/
def buildQemuUpdateDelta (payload : VMIntentPayload) (current : Json.Fields) : Json.Fields :=
  let delta := if payload.isSet "name"
    then changeSome cfg current "name" (payload.name.map .str) [] else []
  let delta := if payload.isSet "cores"
    then changeSome cfg current "cores" (payload.cores.map .int) delta else delta
  let delta := if payload.isSet "memory_mib"
    then changeSome cfg current "memory" (payload.memoryMib.map .int) delta else delta
  let delta := if payload.isSet "tags"
    then setDeltaIfChanged cfg current "tags" (.str (tagsToConfig payload.tags)) delta else delta
  let delta := if payload.isSet "disks"
    then mergeIndexedDelta cfg current "scsi" payload.disks delta else delta
  let delta := if payload.isSet "nics"
    then mergeIndexedDelta cfg current "net" payload.nics delta else delta
  match if payload.isSet "cloud_init" then payload.cloudInit else none with
  | none => delta
  | some cloudInit => setChanged cfg current (buildProxmoxCiArgs cfg enc cloudInit) delta

/-- The configuration after a delta was put: Proxmox keeps each value as text. -/
def stored (delta current : Json.Fields) : Json.Fields :=
  Dict.update current (delta.map fun kv => (kv.1, .str (cfg.py.str kv.2)))

/-- The assignment, if any, of a value that may be missing. -/
def entry (key : String) (value : Option Json) : Json.Fields :=
  (value.map fun v => (key, v)).toList

/-- What the items of a list ask for: one parameter for every item with a value. -/
def itemEntries (defaultPrefix : String) (items : List Json.Fields) : Json.Fields :=
  items.zipIdx.flatMap fun e => entry (itemKey cfg defaultPrefix e.2 e.1) (itemValue cfg e.1)

def VMIntentPayload.items (payload : VMIntentPayload) : Json.Fields :=
  itemEntries cfg "scsi" payload.disks ++ itemEntries cfg "net" payload.nics

/-- What the cloud-init fields of a payload ask for. -/
def VMIntentPayload.cloudInitArgs (payload : VMIntentPayload) : Json.Fields :=
  match payload.cloudInit with
  | none => []
  | some cloudInit => buildProxmoxCiArgs cfg enc cloudInit

/-- What a CREATE intent asks for. -/
def VMIntentPayload.created (payload : VMIntentPayload) : Json.Fields :=
  [("vmid", .int payload.vmid), ("name", (payload.name.map .str).getD .null)] ++
    entry "cores" (payload.cores.map .int) ++ entry "memory" (payload.memoryMib.map .int) ++
    entry "tags" (if payload.tags.isEmpty then none else some (.str (tagsToConfig payload.tags))) ++
    payload.cloudInitArgs cfg enc ++ payload.items cfg

/-- What an UPDATE intent asks for. -/
def VMIntentPayload.updated (payload : VMIntentPayload) : Json.Fields :=
  entry "name" (payload.name.map .str) ++ entry "cores" (payload.cores.map .int) ++
    entry "memory" (payload.memoryMib.map .int) ++
    entry "tags" (if payload.isSet "tags"
      then some (.str (tagsToConfig payload.tags)) else none) ++
    payload.items cfg ++ payload.cloudInitArgs cfg enc

/-- What an UPDATE intent asks for and the configuration does not have. -/
def VMIntentPayload.changed (payload : VMIntentPayload) (current : Json.Fields) : Json.Fields :=
  (payload.updated cfg enc).filter fun kv => !valuesMatch cfg (field kv.1 current) kv.2

/-- Everything asked for has an entry of its own among the parameters. -/
structure OwnEntries (asked params : Json.Fields) : Prop where
  kept : ∀ kv ∈ asked, Dict.get kv.1 params = some kv.2
  apart : params.length = asked.length

/-- The parameters and every delta have an entry for everything asked for, and a delta that was
put leaves nothing to put. -/
structure KeepsItems (payload : VMIntentPayload) : Prop where
  create : OwnEntries (payload.created cfg enc) (buildQemuCreateParams cfg enc payload)
  update : ∀ current,
    OwnEntries (payload.changed cfg enc current) (buildQemuUpdateDelta cfg enc payload current)
  repeated : ∀ current, buildQemuUpdateDelta cfg enc payload
    (stored cfg (buildQemuUpdateDelta cfg enc payload current) current) = []

/-- The keys that the fields of a payload other than its items are written to. -/
def reserved (payload : VMIntentPayload) : List String :=
  let given := fun f => payload.cloudInit.any f
  ([("vmid", true), ("name", true), ("cores", payload.cores.isSome),
    ("memory", payload.memoryMib.isSome), ("tags", payload.isSet "tags"),
    ("ciuser", given fun c => c.user.isSome), ("cipassword", given fun c => c.password.isSome),
    ("sshkeys", given fun c => c.sshKeys.isSome), ("cicustom", given fun c => c.userData.isSome),
    ("ipconfig0", given fun c => c.network.any fun n =>
      !(field "ipconfig0" n).isNull || !(field "ip" n).isNull),
    ("searchdomain", given fun c => c.searchDomain.isSome),
    ("nameserver", given fun c => c.dnsServers.any fun servers => !servers.isEmpty)].filter
      Prod.snd).map Prod.fst

/-- A value that `values_match` recognises in its text. -/
def Textual (value : Json) : Prop := (∃ n, value = .int n) ∨ ∃ s, value = .str s

/-- The items that have a value are written to keys of their own, with values that are numbers or
text. -/
structure Separate (payload : VMIntentPayload) : Prop where
  distinct : (Dict.keys (payload.items cfg)).Nodup
  free : ∀ key ∈ Dict.keys (payload.items cfg), key ∉ reserved payload
  textual : ∀ kv ∈ payload.items cfg, Textual kv.2

section Assignments

theorem setSome_eq (key : String) (value : Option Json) (params : Json.Fields) :
    setSome key value params = Dict.update params (entry key value) := by
  cases value with
  | none => rfl
  | some v => rfl

theorem update_update (params e e' : Json.Fields) :
    Dict.update (Dict.update params e) e' = Dict.update params (e ++ e') := by
  unfold Dict.update
  rw [List.foldl_append]

theorem mem_keys_entry {key k : String} {value : Option Json} :
    k ∈ Dict.keys (entry key value) ↔ k = key ∧ value.isSome = true := by
  cases value with
  | none => simp [entry, Dict.keys]
  | some v => simp [entry, Dict.keys]

theorem keys_entry_sublist (key : String) (value : Option Json) :
    (Dict.keys (entry key value)).Sublist [key] := by
  cases value with
  | none => exact List.nil_sublist _
  | some v => exact List.Sublist.refl _

theorem keys_append (e e' : Json.Fields) :
    Dict.keys (e ++ e') = Dict.keys e ++ Dict.keys e' := List.map_append

theorem keys_update_subset {e : Json.Fields} : Dict.keys (Dict.update [] e) ⊆ Dict.keys e := by
  intro k hk
  obtain ⟨kv, hmem, rfl⟩ := List.mem_map.mp hk
  rcases Dict.mem_update hmem with h | h
  · simp at h
  · exact List.mem_map_of_mem h

/-- Assignments keep an entry for each of them exactly if no key is assigned twice. -/
theorem ownEntries_update_iff {e : Json.Fields} :
    OwnEntries e (Dict.update [] e) ↔ (Dict.keys e).Nodup := by
  constructor
  · intro h
    by_contra hdup
    -- the keys of the dictionary are distinct keys of the list, which has fewer of them
    have hlt : (Dict.keys e).dedup.length < (Dict.keys e).length :=
      lt_of_le_of_ne (List.dedup_sublist _).length_le fun heq =>
        hdup (List.dedup_eq_self.mp ((List.dedup_sublist _).eq_of_length heq))
    have hnodup : (Dict.keys (Dict.update [] e)).Nodup := Dict.nodup_keys_update (by simp [Dict.keys])
    have hsub : Dict.keys (Dict.update [] e) ⊆ (Dict.keys e).dedup := by
      intro k hk
      exact List.mem_dedup.mpr (keys_update_subset hk)
    have hle := (hnodup.subperm hsub).length_le
    have hlength : (Dict.keys (Dict.update [] e)).length = (Dict.keys e).length := by
      rw [Dict.keys, Dict.keys, List.length_map, List.length_map]
      exact h.apart
    omega
  · intro h
    rw [Dict.update_nil_of_nodup h]
    exact ⟨fun kv hkv => Dict.get_of_mem h hkv, rfl⟩

end Assignments

section Parameters

/-- The entries of `build_proxmox_ci_args`. -/
def ciEntries (payload : CloudInitPayload) : Json.Fields :=
  entry "ciuser" (payload.user.map .str) ++ entry "cipassword" (payload.password.map .str) ++
    entry "sshkeys"
      (payload.sshKeys.map fun keys => .str (enc.quote ("\n".intercalate keys))) ++
    entry "cicustom" (payload.userData.map fun d => .str (buildCicustom enc d)) ++
    entry "ipconfig0" ((payload.network.bind (buildIpconfig0 cfg)).map .str) ++
    entry "searchdomain" (payload.searchDomain.map .str) ++
    entry "nameserver" ((payload.dnsServers.filter fun servers => !servers.isEmpty).map
      fun servers => .str (" ".intercalate servers))

theorem keys_ciEntries_sublist (payload : CloudInitPayload) :
    (Dict.keys (ciEntries cfg enc payload)).Sublist
      ["ciuser", "cipassword", "sshkeys", "cicustom", "ipconfig0", "searchdomain",
        "nameserver"] := by
  simp only [ciEntries, keys_append]
  exact (((((((keys_entry_sublist _ _).append (keys_entry_sublist _ _)).append
    (keys_entry_sublist _ _)).append (keys_entry_sublist _ _)).append
    (keys_entry_sublist _ _)).append (keys_entry_sublist _ _)).append (keys_entry_sublist _ _))

theorem buildProxmoxCiArgs_eq (payload : CloudInitPayload) :
    buildProxmoxCiArgs cfg enc payload = ciEntries cfg enc payload := by
  have hupdate : buildProxmoxCiArgs cfg enc payload =
      Dict.update [] (ciEntries cfg enc payload) := by
    simp only [buildProxmoxCiArgs, ciEntries, setSome_eq, update_update]
  have hnodup : (Dict.keys (ciEntries cfg enc payload)).Nodup :=
    (keys_ciEntries_sublist cfg enc payload).nodup (by decide)
  rw [hupdate, Dict.update_nil_of_nodup hnodup]

theorem mergeIndexedItems_eq (defaultPrefix : String) (items : List Json.Fields)
    (params : Json.Fields) : mergeIndexedItems cfg defaultPrefix items params =
      Dict.update params (itemEntries cfg defaultPrefix items) := by
  unfold mergeIndexedItems itemEntries
  -- by induction on the enumerated items, for any dictionary they are merged into
  generalize items.zipIdx = l
  induction l generalizing params with
  | nil => rfl
  | cons e l ih =>
    rw [List.foldl_cons, ih, setSome_eq, update_update, List.flatMap_cons]

theorem buildQemuCreateParams_eq (payload : VMIntentPayload) :
    buildQemuCreateParams cfg enc payload = Dict.update [] (payload.created cfg enc) := by
  have hstart : ([("vmid", .int payload.vmid), ("name", (payload.name.map .str).getD .null)] :
      Json.Fields) = Dict.update []
        [("vmid", .int payload.vmid), ("name", (payload.name.map .str).getD .null)] := by
    simp [Dict.update, Dict.set]
  have htags : ∀ params : Json.Fields, (if payload.tags.isEmpty then params
      else Dict.set "tags" (.str (tagsToConfig payload.tags)) params) = Dict.update params
        (entry "tags" (if payload.tags.isEmpty then none
          else some (.str (tagsToConfig payload.tags)))) := by
    intro params
    split
    · rfl
    · rfl
  have hci : ∀ params : Json.Fields, (match payload.cloudInit with
      | none => params
      | some cloudInit => Dict.update params (buildProxmoxCiArgs cfg enc cloudInit)) =
        Dict.update params (payload.cloudInitArgs cfg enc) := by
    intro params
    unfold VMIntentPayload.cloudInitArgs
    cases payload.cloudInit with
    | none => rfl
    | some cloudInit => rfl
  unfold buildQemuCreateParams VMIntentPayload.created VMIntentPayload.items
  dsimp only
  rw [hci, htags]
  conv_lhs => rw [hstart]
  simp only [setSome_eq, mergeIndexedItems_eq, update_update, List.append_assoc]

/-- The fields of a payload that a CREATE intent is made of, its items apart. -/
def VMIntentPayload.createFields (payload : VMIntentPayload) : Json.Fields :=
  [("vmid", .int payload.vmid), ("name", (payload.name.map .str).getD .null)] ++
    entry "cores" (payload.cores.map .int) ++ entry "memory" (payload.memoryMib.map .int) ++
    entry "tags" (if payload.tags.isEmpty then none else some (.str (tagsToConfig payload.tags))) ++
    payload.cloudInitArgs cfg enc

/-- The keys of all the fields. -/
def fieldKeys : List String :=
  ["vmid", "name", "cores", "memory", "tags", "ciuser", "cipassword", "sshkeys", "cicustom",
    "ipconfig0", "searchdomain", "nameserver"]

theorem keys_cloudInitArgs_sublist (payload : VMIntentPayload) :
    (Dict.keys (payload.cloudInitArgs cfg enc)).Sublist
      ["ciuser", "cipassword", "sshkeys", "cicustom", "ipconfig0", "searchdomain",
        "nameserver"] := by
  unfold VMIntentPayload.cloudInitArgs
  cases payload.cloudInit with
  | none => exact List.nil_sublist _
  | some cloudInit =>
    show (Dict.keys (buildProxmoxCiArgs cfg enc cloudInit)).Sublist _
    rw [buildProxmoxCiArgs_eq]
    exact keys_ciEntries_sublist cfg enc cloudInit

theorem nodup_createFields (payload : VMIntentPayload) :
    (Dict.keys (payload.createFields cfg enc)).Nodup := by
  have hsub : (Dict.keys (payload.createFields cfg enc)).Sublist fieldKeys := by
    simp only [VMIntentPayload.createFields, keys_append]
    exact (((((List.Sublist.refl _).append (keys_entry_sublist _ _)).append
      (keys_entry_sublist _ _)).append (keys_entry_sublist _ _)).append
      (keys_cloudInitArgs_sublist cfg enc payload))
  exact hsub.nodup (by decide)

theorem buildIpconfig0_isSome (network : Json.Fields) :
    (buildIpconfig0 cfg network).isSome =
      (!(field "ipconfig0" network).isNull || !(field "ip" network).isNull) := by
  unfold buildIpconfig0
  cases (field "ipconfig0" network).isNull with
  | false => simp
  | true => cases (field "ip" network).isNull with
    | false => simp
    | true => simp

theorem mem_reserved {payload : VMIntentPayload} {k : String} : k ∈ reserved payload ↔
    k = "vmid" ∨ k = "name" ∨ (k = "cores" ∧ payload.cores.isSome = true) ∨
      (k = "memory" ∧ payload.memoryMib.isSome = true) ∨
      (k = "tags" ∧ payload.isSet "tags" = true) ∨
      k ∈ Dict.keys (payload.cloudInitArgs cfg enc) := by
  have hflags : ∀ l : List (String × Bool),
      k ∈ (l.filter Prod.snd).map Prod.fst ↔ (k, true) ∈ l := by
    intro l
    simp [List.mem_filter]
  have hci : ∀ c : CloudInitPayload, k ∈ Dict.keys (buildProxmoxCiArgs cfg enc c) ↔
      (k = "ciuser" ∧ c.user.isSome = true) ∨ (k = "cipassword" ∧ c.password.isSome = true) ∨
        (k = "sshkeys" ∧ c.sshKeys.isSome = true) ∨
        (k = "cicustom" ∧ c.userData.isSome = true) ∨
        (k = "ipconfig0" ∧ (c.network.any fun n =>
          !(field "ipconfig0" n).isNull || !(field "ip" n).isNull) = true) ∨
        (k = "searchdomain" ∧ c.searchDomain.isSome = true) ∨
        (k = "nameserver" ∧ (c.dnsServers.any fun servers => !servers.isEmpty) = true) := by
    intro c
    have hnetwork : (c.network.bind (buildIpconfig0 cfg)).isSome = c.network.any fun n =>
        !(field "ipconfig0" n).isNull || !(field "ip" n).isNull := by
      cases c.network with
      | none => rfl
      | some n => exact buildIpconfig0_isSome cfg n
    have hservers : (c.dnsServers.filter fun servers => !servers.isEmpty).isSome =
        c.dnsServers.any fun servers => !servers.isEmpty := by
      cases c.dnsServers with
      | none => rfl
      | some servers => cases servers with
        | nil => rfl
        | cons server servers => rfl
    rw [buildProxmoxCiArgs_eq]
    simp only [ciEntries, keys_append, List.mem_append, mem_keys_entry, Option.isSome_map,
      hnetwork, hservers, or_assoc]
  have hcons : ∀ (k' : String) (b : Bool) (l : List (String × Bool)),
      (k, true) ∈ (k', b) :: l ↔ (k = k' ∧ b = true) ∨ (k, true) ∈ l := by
    intro k' b l
    rw [List.mem_cons, Prod.mk.injEq, eq_comm (a := true)]
  unfold reserved VMIntentPayload.cloudInitArgs
  rw [hflags]
  cases payload.cloudInit with
  | none => simp [hcons, Dict.keys]
  | some c =>
    rw [hci]
    simp only [hcons, and_true, List.not_mem_nil, or_false, Option.any_some]

end Parameters

section Deltas

theorem setChanged_append (current e e' delta : Json.Fields) :
    setChanged cfg current e' (setChanged cfg current e delta) =
      setChanged cfg current (e ++ e') delta :=
  List.foldl_append.symm

theorem setChanged_eq (current desired delta : Json.Fields) :
    setChanged cfg current desired delta = Dict.update delta
      (desired.filter fun kv => !valuesMatch cfg (field kv.1 current) kv.2) := by
  induction desired generalizing delta with
  | nil => rfl
  | cons kv desired ih =>
    change setChanged cfg current desired (setDeltaIfChanged cfg current kv.1 kv.2 delta) = _
    rw [ih, List.filter_cons, setDeltaIfChanged]
    cases valuesMatch cfg (field kv.1 current) kv.2 with
    | true => rfl
    | false => rfl

theorem changeSome_of_isSet {current delta : Json.Fields} {key : String} {value : Option Json}
    {b : Bool} (hdefault : b = false → value = none) :
    (if b = true then changeSome cfg current key value delta else delta) =
      setChanged cfg current (entry key value) delta := by
  cases b with
  | false =>
    rw [hdefault rfl]
    rfl
  | true =>
    cases value with
    | none => rfl
    | some v => rfl

theorem mergeIndexedDelta_of_isSet {current delta : Json.Fields} {defaultPrefix : String}
    {items : List Json.Fields} {b : Bool} (hdefault : b = false → items = [])
    (hnodup : (Dict.keys (itemEntries cfg defaultPrefix items)).Nodup) :
    (if b = true then mergeIndexedDelta cfg current defaultPrefix items delta else delta) =
      setChanged cfg current (itemEntries cfg defaultPrefix items) delta := by
  cases b with
  | false =>
    rw [hdefault rfl]
    rfl
  | true =>
    rw [if_pos rfl, mergeIndexedDelta, mergeIndexedItems_eq, Dict.update_nil_of_nodup hnodup]

theorem isSet_eq_false {payload : VMIntentPayload} {name : String} :
    payload.isSet name = false ↔ name ∉ payload.fieldsSet := by
  simp [VMIntentPayload.isSet]

/-- Where the items do not share keys, a delta is the assignment of what is asked for and not
there. -/
theorem buildQemuUpdateDelta_eq {payload : VMIntentPayload}
    (h : (Dict.keys (payload.items cfg)).Nodup) (current : Json.Fields) :
    buildQemuUpdateDelta cfg enc payload current =
      Dict.update [] (payload.changed cfg enc current) := by
  have hitems := h
  rw [VMIntentPayload.items, keys_append, List.nodup_append] at hitems
  obtain ⟨hdisks, hnics, -⟩ := hitems
  have htags : ∀ delta : Json.Fields, (if payload.isSet "tags" = true
      then setDeltaIfChanged cfg current "tags" (.str (tagsToConfig payload.tags)) delta
      else delta) = setChanged cfg current (entry "tags" (if payload.isSet "tags" = true
        then some (.str (tagsToConfig payload.tags)) else none)) delta := by
    intro delta
    split
    · rfl
    · rfl
  have hci : ∀ delta : Json.Fields,
      (match if payload.isSet "cloud_init" = true then payload.cloudInit else none with
      | none => delta
      | some cloudInit => setChanged cfg current (buildProxmoxCiArgs cfg enc cloudInit) delta) =
        setChanged cfg current (payload.cloudInitArgs cfg enc) delta := by
    intro delta
    have hset : (if payload.isSet "cloud_init" = true then payload.cloudInit else none) =
        payload.cloudInit := by
      split
      · rfl
      · rename_i hunset
        exact (payload.cloudInit_default (isSet_eq_false.mp (by simpa using hunset))).symm
    rw [hset, VMIntentPayload.cloudInitArgs]
    cases payload.cloudInit with
    | none => rfl
    | some cloudInit => rfl
  have hname : payload.isSet "name" = false → payload.name.map Json.str = none := by
    intro hunset
    rw [payload.name_default (isSet_eq_false.mp hunset), Option.map_none]
  have hcores : payload.isSet "cores" = false → payload.cores.map Json.int = none := by
    intro hunset
    rw [payload.cores_default (isSet_eq_false.mp hunset), Option.map_none]
  have hmemory : payload.isSet "memory_mib" = false → payload.memoryMib.map Json.int = none := by
    intro hunset
    rw [payload.memoryMib_default (isSet_eq_false.mp hunset), Option.map_none]
  rw [VMIntentPayload.changed, ← setChanged_eq]
  unfold buildQemuUpdateDelta VMIntentPayload.updated VMIntentPayload.items
  dsimp only
  rw [changeSome_of_isSet cfg hmemory, changeSome_of_isSet cfg hcores,
    changeSome_of_isSet cfg hname, htags,
    mergeIndexedDelta_of_isSet cfg
      (fun hunset => payload.disks_default (isSet_eq_false.mp hunset)) hdisks,
    mergeIndexedDelta_of_isSet cfg
      (fun hunset => payload.nics_default (isSet_eq_false.mp hunset)) hnics, hci]
  simp only [setChanged_append, List.append_assoc]

end Deltas

section Matching

variable {cfg}
variable (hint : ∀ n : ℤ, cfg.py.parseInt (toString n) = some n)

@[simp] theorem valuesMatch_bool (s : String) (b : Bool) : valuesMatch cfg (.str s) (.bool b) =
    (cfg.py.parseInt s == some (if b then 1 else 0)) := rfl

@[simp] theorem valuesMatch_int (s : String) (n : ℤ) :
    valuesMatch cfg (.str s) (.int n) = (cfg.py.parseInt s == some n) := rfl

@[simp] theorem valuesMatch_str (s t : String) : valuesMatch cfg (.str s) (.str t) = (s == t) := by
  unfold valuesMatch
  rw [Json.pyEq]
  by_cases h : (s == t) = true
  · rw [if_pos h, h]
  · rw [if_neg h]
    rfl

/-- What is neither a number nor text matches no text. -/
theorem valuesMatch_other (s : String) {v : Json} (htext : ¬ Textual v)
    (hbool : ∀ b, v ≠ .bool b) : valuesMatch cfg (.str s) v = false := by
  cases v with
  | null => rfl
  | bool b => exact absurd rfl (hbool b)
  | int n => exact absurd (Or.inl ⟨n, rfl⟩) htext
  | float q => rfl
  | str t => exact absurd (Or.inr ⟨t, rfl⟩) htext
  | arr items => rfl
  | obj fields => rfl

include hint in
theorem valuesMatch_str_iff (hbool : ∀ b, cfg.py.parseInt (cfg.py.str (.bool b)) = none)
    {v : Json} : valuesMatch cfg (.str (cfg.py.str v)) v = true ↔ Textual v := by
  constructor
  · intro hmatch
    by_contra htext
    cases hv : v with
    | bool b =>
      rw [hv, valuesMatch_bool, hbool b] at hmatch
      cases hmatch
    | _ =>
      rw [valuesMatch_other _ htext (by simp [hv])] at hmatch
      cases hmatch
  · rintro (⟨n, rfl⟩ | ⟨s, rfl⟩)
    · have hread : cfg.py.parseInt (cfg.py.str (.int n)) = some n := hint n
      rw [valuesMatch_int, hread, beq_self_eq_true]
    · rw [valuesMatch_str]
      exact beq_self_eq_true s

include hint in
/-- A value matches the text of one number at most. -/
theorem eq_of_valuesMatch {m n : ℤ} {v : Json}
    (hm : valuesMatch cfg (.str (toString m)) v = true)
    (hn : valuesMatch cfg (.str (toString n)) v = true) : m = n := by
  cases v with
  | bool b =>
    rw [valuesMatch_bool, hint, beq_iff_eq, Option.some.injEq] at hm hn
    rw [hm, hn]
  | int k =>
    rw [valuesMatch_int, hint, beq_iff_eq, Option.some.injEq] at hm hn
    rw [hm, hn]
  | str s =>
    rw [valuesMatch_str, beq_iff_eq] at hm hn
    have hread := hint m
    rw [hm, ← hn, hint n] at hread
    exact (Option.some.inj hread).symm
  | null => cases hm
  | float q => cases hm
  | arr items => cases hm
  | obj fields => cases hm

include hint in
/-- Some text is matched by neither of two values. -/
theorem exists_unmatched (v w : Json) : ∃ n : ℤ,
    valuesMatch cfg (.str (toString n)) v = false ∧
      valuesMatch cfg (.str (toString n)) w = false := by
  have hbound : ∀ x : Json, ∃ a : ℤ, ∀ n,
      valuesMatch cfg (.str (toString n)) x = true → n = a := by
    intro x
    by_cases hx : ∃ a : ℤ, valuesMatch cfg (.str (toString a)) x = true
    · obtain ⟨a, ha⟩ := hx
      exact ⟨a, fun n hn => eq_of_valuesMatch hint hn ha⟩
    · exact ⟨0, fun n hn => absurd ⟨n, hn⟩ hx⟩
  obtain ⟨a, ha⟩ := hbound v
  obtain ⟨b, hb⟩ := hbound w
  -- above both numbers
  refine ⟨max a b + 1, ?_, ?_⟩
  · rw [← Bool.not_eq_true]
    intro hmatch
    have := ha _ hmatch
    omega
  · rw [← Bool.not_eq_true]
    intro hmatch
    have := hb _ hmatch
    omega

end Matching

section Keys

/-- The fields of a payload that come before its items in a delta. -/
def VMIntentPayload.updateFields (payload : VMIntentPayload) : Json.Fields :=
  entry "name" (payload.name.map .str) ++ entry "cores" (payload.cores.map .int) ++
    entry "memory" (payload.memoryMib.map .int) ++
    entry "tags" (if payload.isSet "tags"
      then some (.str (tagsToConfig payload.tags)) else none)

theorem created_eq (payload : VMIntentPayload) : payload.created cfg enc =
    payload.createFields cfg enc ++ payload.items cfg := rfl

theorem updated_eq (payload : VMIntentPayload) : payload.updated cfg enc =
    payload.updateFields ++ payload.items cfg ++ payload.cloudInitArgs cfg enc := rfl

theorem mem_keys_createFields {payload : VMIntentPayload} {k : String} :
    k ∈ Dict.keys (payload.createFields cfg enc) ↔
      k = "vmid" ∨ k = "name" ∨ (k = "cores" ∧ payload.cores.isSome = true) ∨
        (k = "memory" ∧ payload.memoryMib.isSome = true) ∨
        (k = "tags" ∧ payload.tags.isEmpty = false) ∨
        k ∈ Dict.keys (payload.cloudInitArgs cfg enc) := by
  have htags : (if payload.tags.isEmpty = true then none
      else some (Json.str (tagsToConfig payload.tags))).isSome = !payload.tags.isEmpty := by
    split
    · rename_i h
      rw [h]
      rfl
    · rename_i h
      rw [Bool.not_eq_true] at h
      rw [h]
      rfl
  simp only [VMIntentPayload.createFields, keys_append, List.mem_append, mem_keys_entry,
    Option.isSome_map, htags, Bool.not_eq_true', or_assoc]
  simp [Dict.keys, or_assoc]

theorem mem_keys_updateFields {payload : VMIntentPayload} {k : String} :
    k ∈ Dict.keys payload.updateFields ↔
      (k = "name" ∧ payload.name.isSome = true) ∨ (k = "cores" ∧ payload.cores.isSome = true) ∨
        (k = "memory" ∧ payload.memoryMib.isSome = true) ∨
        (k = "tags" ∧ payload.isSet "tags" = true) := by
  have htags : (if payload.isSet "tags" = true then some (Json.str (tagsToConfig payload.tags))
      else none).isSome = payload.isSet "tags" := by
    cases payload.isSet "tags" with
    | true => rfl
    | false => rfl
  simp only [VMIntentPayload.updateFields, keys_append, List.mem_append, mem_keys_entry,
    Option.isSome_map, htags, or_assoc]

theorem createFields_reserved {payload : VMIntentPayload} {k : String}
    (h : k ∈ Dict.keys (payload.createFields cfg enc)) : k ∈ reserved payload := by
  rw [mem_reserved cfg enc]
  have htags : payload.tags.isEmpty = false → payload.isSet "tags" = true := by
    intro hne
    by_contra hunset
    have hnil := payload.tags_default (isSet_eq_false.mp (by simpa using hunset))
    simp [hnil] at hne
  rcases (mem_keys_createFields cfg enc).mp h with h | h | h | h | ⟨hk, hne⟩ | h
  · exact Or.inl h
  · exact Or.inr (Or.inl h)
  · exact Or.inr (Or.inr (Or.inl h))
  · exact Or.inr (Or.inr (Or.inr (Or.inl h)))
  · exact Or.inr (Or.inr (Or.inr (Or.inr (Or.inl ⟨hk, htags hne⟩))))
  · exact Or.inr (Or.inr (Or.inr (Or.inr (Or.inr h))))

include cfg enc in
theorem updateFields_reserved {payload : VMIntentPayload} {k : String}
    (h : k ∈ Dict.keys payload.updateFields) : k ∈ reserved payload := by
  rw [mem_reserved cfg enc]
  rcases mem_keys_updateFields.mp h with ⟨hk, -⟩ | h | h | h
  · exact Or.inr (Or.inl hk)
  · exact Or.inr (Or.inr (Or.inl h))
  · exact Or.inr (Or.inr (Or.inr (Or.inl h)))
  · exact Or.inr (Or.inr (Or.inr (Or.inr (Or.inl h))))

/-- What is reserved is written by a CREATE intent, but for empty tags that are set. -/
theorem reserved_cases {payload : VMIntentPayload} {k : String} (h : k ∈ reserved payload) :
    k ∈ Dict.keys (payload.createFields cfg enc) ∨ (k = "tags" ∧ payload.isSet "tags" = true) := by
  rw [mem_keys_createFields]
  rcases (mem_reserved cfg enc).mp h with h | h | h | h | h | h
  · exact Or.inl (Or.inl h)
  · exact Or.inl (Or.inr (Or.inl h))
  · exact Or.inl (Or.inr (Or.inr (Or.inl h)))
  · exact Or.inl (Or.inr (Or.inr (Or.inr (Or.inl h))))
  · exact Or.inr h
  · exact Or.inl (Or.inr (Or.inr (Or.inr (Or.inr (Or.inr h)))))

theorem nodup_created_iff {payload : VMIntentPayload} :
    (Dict.keys (payload.created cfg enc)).Nodup ↔ (Dict.keys (payload.items cfg)).Nodup ∧
      ∀ k ∈ Dict.keys (payload.items cfg), k ∉ Dict.keys (payload.createFields cfg enc) := by
  rw [created_eq, keys_append, List.nodup_append]
  constructor
  · intro h
    refine ⟨h.2.1, ?_⟩
    intro k hk hfield
    exact h.2.2 k hfield k hk rfl
  · intro h
    refine ⟨nodup_createFields cfg enc payload, h.1, ?_⟩
    intro a ha b hb hab
    exact h.2 b hb (hab ▸ ha)

theorem nodup_updated {payload : VMIntentPayload}
    (hdistinct : (Dict.keys (payload.items cfg)).Nodup)
    (hfree : ∀ k ∈ Dict.keys (payload.items cfg), k ∉ reserved payload) :
    (Dict.keys (payload.updated cfg enc)).Nodup := by
  have hsub : (Dict.keys payload.updateFields ++
      Dict.keys (payload.cloudInitArgs cfg enc)).Sublist fieldKeys.tail := by
    simp only [VMIntentPayload.updateFields, keys_append]
    exact ((((keys_entry_sublist _ _).append (keys_entry_sublist _ _)).append
      (keys_entry_sublist _ _)).append (keys_entry_sublist _ _)).append
      (keys_cloudInitArgs_sublist cfg enc payload)
  have hnodup := hsub.nodup (by decide)
  obtain ⟨hfields, hci, hapart⟩ := List.nodup_append.mp hnodup
  have hreserved : ∀ k ∈ Dict.keys (payload.cloudInitArgs cfg enc), k ∈ reserved payload := by
    intro k hk
    rw [mem_reserved cfg enc]
    simp [hk]
  rw [updated_eq, keys_append, keys_append, List.nodup_append, List.nodup_append]
  refine ⟨⟨hfields, hdistinct, ?_⟩, hci, ?_⟩
  · intro a ha b hb hab
    exact hfree b hb (hab ▸ updateFields_reserved cfg enc ha)
  · intro a ha b hb hab
    rcases List.mem_append.mp ha with ha | ha
    · exact hapart a ha b hb hab
    · exact hfree a ha (hab ▸ hreserved b hb)

/-- The fields that are not items are numbers and text. -/
theorem textual_updateFields {payload : VMIntentPayload} {kv : String × Json}
    (h : kv ∈ payload.updateFields ∨ kv ∈ payload.cloudInitArgs cfg enc) : Textual kv.2 := by
  have hentry : ∀ {key : String} {value : Option Json}, kv ∈ entry key value →
      (∀ v, value = some v → Textual v) → Textual kv.2 := by
    intro key value hmem htext
    cases value with
    | none => simp [entry] at hmem
    | some v =>
      obtain rfl : kv = (key, v) := by simpa [entry] using hmem
      exact htext v rfl
  have hstr : ∀ {α : Type} {f : α → String} {o : Option α} (v : Json),
      o.map (fun a => Json.str (f a)) = some v → Textual v := by
    intro α f o v hv
    obtain ⟨a, -, rfl⟩ := Option.map_eq_some_iff.mp hv
    exact Or.inr ⟨f a, rfl⟩
  have hnumber : ∀ {o : Option ℤ} (v : Json), o.map Json.int = some v → Textual v := by
    intro o v hv
    obtain ⟨n, -, rfl⟩ := Option.map_eq_some_iff.mp hv
    exact Or.inl ⟨n, rfl⟩
  rcases h with h | h
  · simp only [VMIntentPayload.updateFields, List.mem_append] at h
    rcases h with ((h | h) | h) | h
    · exact hentry h (hstr (f := id))
    · exact hentry h hnumber
    · exact hentry h hnumber
    · refine hentry h ?_
      intro v hv
      split at hv
      · exact Or.inr ⟨_, (Option.some.inj hv).symm⟩
      · cases hv
  · unfold VMIntentPayload.cloudInitArgs at h
    cases hcloud : payload.cloudInit with
    | none => simp [hcloud] at h
    | some c =>
      rw [hcloud] at h
      simp only [buildProxmoxCiArgs_eq, ciEntries, List.mem_append] at h
      rcases h with (((((h | h) | h) | h) | h) | h) | h
      · exact hentry h (hstr (f := id))
      · exact hentry h (hstr (f := id))
      · exact hentry h hstr
      · exact hentry h hstr
      · exact hentry h (hstr (f := id))
      · exact hentry h (hstr (f := id))
      · exact hentry h hstr

end Keys

section Repeats

theorem get_mapValues {ν ν' : Type*} (f : ν → ν') {d : List (String × ν)} {k : String} :
    Dict.get k (d.map fun kv => (kv.1, f kv.2)) = (Dict.get k d).map f := by
  induction d with
  | nil => rfl
  | cons kv d ih =>
    by_cases hk : kv.1 = k
    · simp [Dict.get, hk]
    · simp [Dict.get, hk, ih]

theorem field_stored {delta current : Json.Fields} (hdelta : (Dict.keys delta).Nodup)
    (k : String) : field k (stored cfg delta current) =
      ((Dict.get k delta).map fun v => .str (cfg.py.str v)).getD (field k current) := by
  have hkeys : (Dict.keys (delta.map fun kv => (kv.1, Json.str (cfg.py.str kv.2)))).Nodup := by
    rw [Dict.keys, List.map_map]
    exact hdelta
  unfold field stored
  rw [Dict.get_update hkeys, get_mapValues fun v => Json.str (cfg.py.str v)]
  cases Dict.get k delta with
  | none => rfl
  | some v => rfl

variable {cfg}

/-- Where nothing asked for shares a key, a delta that was put leaves exactly what is not
recognised in its text. -/
theorem repeated_iff {payload : VMIntentPayload}
    (hitems : (Dict.keys (payload.items cfg)).Nodup)
    (h : (Dict.keys (payload.updated cfg enc)).Nodup) (current : Json.Fields) :
    buildQemuUpdateDelta cfg enc payload
        (stored cfg (buildQemuUpdateDelta cfg enc payload current) current) = [] ↔
      ∀ kv ∈ payload.changed cfg enc current,
        valuesMatch cfg (.str (cfg.py.str kv.2)) kv.2 = true := by
  have hchanged : ∀ c, (Dict.keys (payload.changed cfg enc c)).Nodup := fun c =>
    Dict.keys_filter_sublist.nodup h
  have hdelta : ∀ c, buildQemuUpdateDelta cfg enc payload c = payload.changed cfg enc c := by
    intro c
    rw [buildQemuUpdateDelta_eq cfg enc hitems, Dict.update_nil_of_nodup (hchanged c)]
  rw [hdelta, hdelta]
  have hfield : ∀ kv ∈ payload.updated cfg enc,
      field kv.1 (stored cfg (payload.changed cfg enc current) current) =
        if valuesMatch cfg (field kv.1 current) kv.2 = true then field kv.1 current
        else .str (cfg.py.str kv.2) := by
    intro kv hkv
    have hget : Dict.get kv.1 (payload.changed cfg enc current) =
        (some kv.2).filter fun v => !valuesMatch cfg (field kv.1 current) v := by
      unfold VMIntentPayload.changed
      rw [Dict.get_filter_of_nodup h, Dict.get_of_mem h hkv]
    rw [field_stored cfg (hchanged current), hget]
    cases hmatch : valuesMatch cfg (field kv.1 current) kv.2 with
    | true => simp [Option.filter_some, hmatch]
    | false => simp [Option.filter_some, hmatch]
  unfold VMIntentPayload.changed at hfield ⊢
  rw [List.filter_eq_nil_iff]
  constructor
  · intro hnil kv hkv
    obtain ⟨hmem, hnew⟩ := List.mem_filter.mp hkv
    have hafter := hnil kv hmem
    rw [hfield kv hmem, if_neg (by simpa using hnew)] at hafter
    simpa using hafter
  · intro htext kv hmem
    rw [hfield kv hmem]
    by_cases hmatch : valuesMatch cfg (field kv.1 current) kv.2 = true
    · rw [if_pos hmatch, hmatch]
      simp
    · rw [if_neg hmatch, htext kv (List.mem_filter.mpr ⟨hmem, by simpa using hmatch⟩)]
      simp

end Repeats

/-- The parameters of an intent have an entry for every disk and NIC, and a repeated intent has
nothing to put, exactly if the items are written to keys of their own and their values are numbers
or text. -/
theorem keepsItems_iff (hint : ∀ n : ℤ, cfg.py.parseInt (toString n) = some n)
    (hbool : ∀ b, cfg.py.parseInt (cfg.py.str (.bool b)) = none) (payload : VMIntentPayload) :
    KeepsItems cfg enc payload ↔ Separate cfg payload := by
  constructor
  · intro h
    have hcreate := h.create
    rw [buildQemuCreateParams_eq, ownEntries_update_iff, nodup_created_iff] at hcreate
    obtain ⟨hitems, hcreate⟩ := hcreate
    have hupdate : ∀ current, (Dict.keys (payload.changed cfg enc current)).Nodup := by
      intro current
      have hown := h.update current
      rwa [buildQemuUpdateDelta_eq cfg enc hitems, ownEntries_update_iff] at hown
    have hfree : ∀ k ∈ Dict.keys (payload.items cfg), k ∉ reserved payload := by
      intro k hk hreserved
      rcases reserved_cases cfg enc hreserved with hfield | ⟨rfl, hset⟩
      · exact hcreate k hk hfield
      · -- the tags are set: a configuration with neither value takes both
        obtain ⟨kv, hkv, hkey⟩ := List.mem_map.mp hk
        obtain ⟨n, hitem, htags⟩ := exists_unmatched hint kv.2 (.str (tagsToConfig payload.tags))
        have hnodup := hupdate [("tags", .str (toString n))]
        have htag : ("tags", Json.str (tagsToConfig payload.tags)) ∈ payload.updateFields := by
          simp [VMIntentPayload.updateFields, entry, hset]
        rw [VMIntentPayload.changed, updated_eq, List.filter_append, List.filter_append,
          keys_append, keys_append, List.nodup_append, List.nodup_append] at hnodup
        refine hnodup.1.2.2 "tags" ?_ "tags" ?_ rfl
        · refine List.mem_map.mpr ⟨_, List.mem_filter.mpr ⟨htag, ?_⟩, rfl⟩
          simpa [field, Dict.get] using htags
        · refine List.mem_map.mpr ⟨kv, List.mem_filter.mpr ⟨hkv, ?_⟩, hkey⟩
          simpa [hkey, field, Dict.get] using hitem
    refine ⟨hitems, hfree, ?_⟩
    intro kv hkv
    rw [← valuesMatch_str_iff hint hbool]
    by_contra hmatch
    -- the configuration that already has the text of the value
    have hmem : kv ∈ payload.changed cfg enc [(kv.1, .str (cfg.py.str kv.2))] := by
      unfold VMIntentPayload.changed
      refine List.mem_filter.mpr ⟨?_, by simpa [field, Dict.get] using hmatch⟩
      rw [updated_eq]
      exact List.mem_append_left _ (List.mem_append_right _ hkv)
    have hafter := (repeated_iff enc hitems (nodup_updated cfg enc hitems hfree) _).mp
      (h.repeated [(kv.1, .str (cfg.py.str kv.2))]) kv hmem
    exact hmatch hafter
  · intro h
    have hupdated := nodup_updated cfg enc h.distinct h.free
    refine ⟨?_, ?_, ?_⟩
    · rw [buildQemuCreateParams_eq, ownEntries_update_iff, nodup_created_iff]
      exact ⟨h.distinct, fun k hk hfield => h.free k hk (createFields_reserved cfg enc hfield)⟩
    · intro current
      rw [buildQemuUpdateDelta_eq cfg enc h.distinct, ownEntries_update_iff]
      exact Dict.keys_filter_sublist.nodup hupdated
    · intro current
      rw [repeated_iff enc h.distinct hupdated]
      intro kv hkv
      have hmem := (List.mem_filter.mp hkv).1
      rw [valuesMatch_str_iff hint hbool]
      rw [updated_eq, List.mem_append, List.mem_append] at hmem
      rcases hmem with (hmem | hmem) | hmem
      · exact textual_updateFields cfg enc (Or.inl hmem)
      · exact h.textual kv hmem
      · exact textual_updateFields cfg enc (Or.inr hmem)

instance (value : Json) : Decidable (Textual value) :=
  match value with
  | .int n => isTrue (Or.inl ⟨n, rfl⟩)
  | .str s => isTrue (Or.inr ⟨s, rfl⟩)
  | .null | .bool _ | .float _ | .arr _ | .obj _ => isFalse (by simp [Textual])

/-- The operations on ASCII text. -/
def localSettings : Settings where
  py := Python.ascii
  isIpAddress _ := false
  ipInterface _ := none
  cloudNetwork := ⟨none, "", none, ""⟩
  maxRetries := 0
  mockProxmox := false

def plainEncoders : Encoders := ⟨id, fun _ => ""⟩

/-- A guest `web` with two cores, by its disks and NICs. -/
def webGuest (disks nics : List Json.Fields) : VMIntentPayload where
  vmid := 100
  name := some "web"
  cores := some 2
  memoryMib := none
  disks := disks
  nics := nics
  tags := []
  cloudInit := none
  fieldsSet := ["vmid", "node", "name", "cores", "disks", "nics"]
  name_default h := absurd (by decide) h
  cores_default h := absurd (by decide) h
  memoryMib_default _ := rfl
  disks_default h := absurd (by decide) h
  nics_default h := absurd (by decide) h
  tags_default _ := rfl
  cloudInit_default _ := rfl

/-- A disk by its place, one by its slot and a NIC by its place. -/
def mixedItems : VMIntentPayload :=
  webGuest [[("size", .str "32G")], [("slot", .str "virtio1"), ("value", .str "local-lvm:8")]]
    [[("model", .str "virtio"), ("bridge", .str "vmbr0")]]

theorem keepsItems_iff_mixed : KeepsItems localSettings plainEncoders mixedItems :=
  (keepsItems_iff localSettings plainEncoders Vmid.parseAscii_toString (by decide +kernel)
    mixedItems).mpr ⟨by decide +kernel, by decide +kernel, by decide +kernel⟩

/-- The second disk names the slot that the first one has by its place. -/
def slotTaken : VMIntentPayload :=
  webGuest [[("size", .str "32G")], [("key", .str "scsi0"), ("value", .str "local-lvm:8")]] []

/-- The only disk has a truth value. -/
def flagDisk : VMIntentPayload := webGuest [[("key", .str "ide2"), ("value", .bool true)]] []

/-- The first disk of `slotTaken` has no parameter, and the update with the disk of `flagDisk` is
never done. -/
theorem disk_overwritten : ¬ KeepsItems localSettings plainEncoders slotTaken ∧
    ¬ KeepsItems localSettings plainEncoders flagDisk := by
  constructor
  · intro h
    have happart := h.create.apart
    revert happart
    decide +kernel
  · intro h
    have hnone := congrArg List.length (h.repeated [("name", .str "web"), ("cores", .int 2)])
    revert hnone
    decide +kernel

end ProxboxApi.IntentParams
