import ProxboxApi.BulkReconcile
import ProxboxApi.Python

/-! Node devices: `_ensure_device` for the node of one guest, and the devices phase of
`ensure_proxmox_devices_bulk` for all nodes. -/

namespace ProxboxApi.DeviceEnsure

/-- `NetBoxTagRef`; a blank slug does not validate. -/
structure TagRef where
  name : Option String
  slug : String
  color : Option String
  slug_ne : slug ≠ ""
  deriving DecidableEq

/-- A device as NetBox has it; its site is required. -/
structure Device where
  id : ℕ
  name : Option String
  status : String
  cluster : Option ℕ
  deviceType : Option ℕ
  role : Option ℕ
  site : ℕ
  description : String
  tags : List TagRef
  customFields : Json.Fields

/-- A node, its site and its cluster. -/
structure Target where
  name : String
  desiredSite : Option ℕ
  cluster : Option ℕ
  deriving DecidableEq

/-- What is read of `SyncOverwriteFlags`. -/
structure OverwriteFlags where
  overwriteDeviceStatus : Bool
  overwriteDeviceDescription : Bool
  overwriteDeviceCustomFields : Bool

/-- The arguments that all nodes of a call share. -/
structure Settings where
  deviceType : Option ℕ
  role : Option ℕ
  tagRefs : List TagRef
  overwriteDeviceRole : Bool
  overwriteDeviceType : Bool
  overwriteDeviceTags : Bool
  overwriteFlags : Option OverwriteFlags
  customFieldsEnabled : Bool
  lastUpdated : String

/-- `_record_has_tag`. -/
def Device.hasTag (slug : String) (d : Device) : Bool := d.tags.any fun t => Text.strip t.slug = slug

def Device.proxbox (d : Device) : Bool := d.hasTag "proxbox"

/-- `_prefer_existing_device`. -/
def preferExistingDevice (records : List Device) : Option Device :=
  (records.filter Device.proxbox).head?.or records.head?

/-- `_ordered_device_candidates`. -/
def orderedDeviceCandidates (records : List Device) : List Device :=
  records.filter Device.proxbox ++ records.filter fun d => !d.proxbox

/-- `_select_existing_device_for_target`. -/
def selectExistingDeviceForTarget (records : List Device) (t : Target) : Option Device :=
  let candidates := orderedDeviceCandidates records
  ((t.desiredSite.bind fun site => candidates.find? fun d => d.site = site).or
    (t.cluster.bind fun cluster => candidates.find? fun d => d.cluster = some cluster)).or
      (if t.desiredSite.isNone && t.cluster.isNone then candidates.head?
        else candidates.find? Device.proxbox)

/-- `_existing_device_site_pin`. -/
def existingDeviceSitePin (existing : Option Device) (desiredSite : Option ℕ) : Option ℕ :=
  match existing with
  | none => desiredSite
  | some d => some d.site

/-- A key of the payloads of devices, without `name` and `site`. -/
inductive Field where
  | cluster
  | status
  | description
  | customFields
  | role
  | deviceType
  | tags
  deriving DecidableEq

/-- `include_custom_fields_in_payload`. -/
def Settings.includeCustomFields (c : Settings) : Bool :=
  (match c.overwriteFlags with
    | none => true
    | some flags => flags.overwriteDeviceCustomFields) && c.customFieldsEnabled

/-- `_compute_device_patchable_fields`. -/
def computeDevicePatchableFields (c : Settings) : List Field :=
  let flag (value : OverwriteFlags → Bool) : Bool := (c.overwriteFlags.map value).getD true
  [Field.cluster] ++ (if flag (·.overwriteDeviceStatus) then [Field.status] else []) ++
    (if flag (·.overwriteDeviceDescription) then [Field.description] else []) ++
    (if c.includeCustomFields then [Field.customFields] else []) ++
    (if c.overwriteDeviceRole then [Field.role] else []) ++
    (if c.overwriteDeviceType then [Field.deviceType] else []) ++
    if c.overwriteDeviceTags then [Field.tags] else []

/-- The dump of a `NetBoxDeviceSyncState`, which leaves out relations that are `None`. -/
structure Desired where
  name : String
  status : String
  cluster : Option ℕ
  deviceType : Option ℕ
  role : Option ℕ
  site : Option ℕ
  description : String
  tags : List TagRef
  customFields : Json.Fields

/-- `_normalized_tag_list`. -/
def normalizedTagList (tags : List TagRef) : List TagRef :=
  tags.mergeSort fun a b => decide (a.slug ≤ b.slug)

/-- `_device_payload`, under the schema. -/
def devicePayload (c : Settings) (t : Target) (site : Option ℕ) (tagRefs : List TagRef) : Desired where
  name := t.name
  status := "active"
  cluster := t.cluster
  deviceType := c.deviceType
  role := c.role
  site := site
  description := "Proxmox Node " ++ t.name
  tags := normalizedTagList tagRefs
  customFields :=
    if c.includeCustomFields then [("proxmox_last_updated", .str c.lastUpdated)] else []

/-- The fields of a PATCH. -/
structure Patch where
  status : Option String
  cluster : Option ℕ
  deviceType : Option ℕ
  role : Option ℕ
  site : Option ℕ
  description : Option String
  tags : Option (List TagRef)
  customFields : Option Json.Fields

def Patch.isEmpty (p : Patch) : Bool :=
  p.status.isNone && p.cluster.isNone && p.deviceType.isNone && p.role.isNone && p.site.isNone &&
    p.description.isNone && p.tags.isNone && p.customFields.isNone

/-- A desired value, where it is allowed and differs from the current one. -/
def changed {α : Type} [DecidableEq α] (allowed : Bool) (current desired : Option α) : Option α :=
  if allowed && desired ≠ current then desired else none

/-- The difference of the payload and the device, in the fields that may be patched. -/
def patchPayload (c : Settings) (desired : Desired) (d : Device) : Patch :=
  let allowed (f : Field) : Bool := decide (f ∈ computeDevicePatchableFields c)
  { status := changed (allowed .status) (some d.status) (some desired.status)
    cluster := changed (allowed .cluster) d.cluster desired.cluster
    deviceType := changed (allowed .deviceType) d.deviceType desired.deviceType
    role := changed (allowed .role) d.role desired.role
    site := none
    description := changed (allowed .description) (some d.description) (some desired.description)
    tags := changed (allowed .tags) (some (normalizedTagList d.tags)) (some desired.tags)
    customFields :=
      if allowed .customFields && !(Json.obj d.customFields).pyEq (.obj desired.customFields) then
        some desired.customFields
      else none }

def Device.patched (p : Patch) (d : Device) : Device where
  id := d.id
  name := d.name
  status := p.status.getD d.status
  cluster := p.cluster.or d.cluster
  deviceType := p.deviceType.or d.deviceType
  role := p.role.or d.role
  site := p.site.getD d.site
  description := p.description.getD d.description
  tags := p.tags.getD d.tags
  customFields := p.customFields.getD d.customFields

/-- How NetBox answers: the devices that it accepts beside others, the names whose listing fails, the
bulk requests that fail, and whether it has the discovery tag. -/
structure NetBox where
  accepts : List Device → Device → Bool
  listingFails : String → Bool
  bulkCreateFails : ℕ → Bool
  bulkPatchFails : ℕ → Bool
  hasDiscoveryTag : Bool

inductive Write where
  | post (payload : Desired)
  | patch (device : Device) (changes : Patch)

/-- The devices, the next id, and the writes so far, each with the node that it is for. A bulk POST
that fails leaves no write. -/
structure State where
  devices : List Device
  next : ℕ
  writes : List (Target × Write)

variable (nb : NetBox) (c : Settings)

def State.log (t : Target) (w : Write) (s : State) : State := { s with writes := s.writes ++ [(t, w)] }

/-- The device of a POST. -/
def Desired.device (desired : Desired) (id site : ℕ) : Device where
  id := id
  name := some desired.name
  status := desired.status
  cluster := desired.cluster
  deviceType := desired.deviceType
  role := desired.role
  site := site
  description := desired.description
  tags := desired.tags
  customFields := desired.customFields

/-- What NetBox makes of a payload; it refuses one without a site. -/
def create (desired : Desired) (s : State) : Option (Device × State) :=
  match desired.site with
  | none => none
  | some site =>
    let d := desired.device s.next site
    if nb.accepts s.devices d then
      some (d, { s with devices := s.devices ++ [d], next := s.next + 1 })
    else none

/-- What NetBox makes of a PATCH. -/
def change (d : Device) (p : Patch) (s : State) : Option (Device × State) :=
  match s.devices.find? fun row => row.id = d.id with
  | none => none
  | some row =>
    let row' := row.patched p
    if nb.accepts (s.devices.filter fun other => other.id ≠ d.id) row' then
      some (row', { s with
        devices := s.devices.map fun other => if other.id = d.id then row' else other })
    else none

/-- A single request, with the record that it leads to. -/
def sent (attempt : Option (Device × State)) (s : State) : Option Device × State :=
  match attempt with
  | none => (none, s)
  | some (d, s') => (some d, s')

/-- A single POST. -/
def post (t : Target) (desired : Desired) (s : State) : Option Device × State :=
  let s := s.log t (.post desired)
  sent (create nb desired s) s

/-- `RestRecord.save`. -/
def save (t : Target) (d : Device) (p : Patch) (s : State) : Option Device × State :=
  let s := s.log t (.patch d p)
  sent (change nb d p s) s

/-- The lookups of `rest_reconcile_async`: by name and site, and by name. -/
def findExisting (desired : Desired) (devices : List Device) : Option Device :=
  let named := devices.filter fun d => d.name = some desired.name
  (desired.site.bind fun site => named.find? fun d => d.site = site).or named.head?

/-- `rest_reconcile_async` on devices; after a POST that is refused as a duplicate, no device is
found either. -/
def reconcile (t : Target) (desired : Desired) (s : State) : Option Device × State :=
  match findExisting desired s.devices with
  | none => post nb t desired s
  | some d =>
    let p := patchPayload c desired d
    if p.isEmpty then (some d, s) else save nb t d p s

/-- `_ref_key`. -/
def refKey (py : Python) (t : TagRef) : String := py.lower (Text.strip t.slug)

/-- The loop over the existing tags in `merge_tag_refs`. -/
def unseenTags (py : Python) : List String → List TagRef → List TagRef
  | _, [] => []
  | seen, t :: ts =>
    if refKey py t ∈ seen then unseenTags py seen ts
    else t :: unseenTags py (refKey py t :: seen) ts

/-- `merge_tag_refs`. -/
def mergeTagRefs (py : Python) (base existing : List TagRef) : List TagRef :=
  base ++ unseenTags py (base.map (refKey py)) existing

def discoveryTagRef : TagRef := ⟨none, "proxbox-discovered-node", none, by decide⟩

variable (py : Python)

/-- The patch of `_ensure_device`: a device that changes its cluster changes its site with it. -/
def ensurePatch (t : Target) (d : Device) : Patch :=
  let p := patchPayload c (devicePayload c t (existingDeviceSitePin (some d) t.desiredSite)
    (mergeTagRefs py c.tagRefs d.tags)) d
  if p.cluster.isSome then { p with site := t.desiredSite } else p

/-- `_ensure_device`; `none` is an exception. -/
def ensureDevice (t : Target) (s : State) : Option Device × State :=
  if nb.listingFails t.name then (none, s)
  else match selectExistingDeviceForTarget (s.devices.filter fun d => d.name = some t.name) t with
    | some d =>
      let p := ensurePatch c py t d
      if p.isEmpty then (some d, s) else save nb t d p s
    | none =>
      let tagRefs := c.tagRefs ++ if nb.hasDiscoveryTag then [discoveryTagRef] else []
      reconcile nb c t (devicePayload c t t.desiredSite tagRefs) s

/-- `_resolve_existing_device_sites`, for one target. -/
def siteOf (devices : List Device) (t : Target) : Option ℕ :=
  let existing := if nb.listingFails t.name then []
    else devices.filter fun d => d.name = some t.name
  existingDeviceSitePin (selectExistingDeviceForTarget existing t) t.desiredSite

/-- A payload of the devices phase. -/
structure Entry where
  target : Target
  desired : Desired

/-- The lookup key of a payload. -/
def Entry.key (e : Entry) : String × Option ℕ := (e.desired.name, e.desired.site)

def entryOf (devices : List Device) (t : Target) : Entry :=
  ⟨t, devicePayload c t (siteOf nb devices t) c.tagRefs⟩

/-- The payloads without those whose key an earlier one has. -/
def firstOfKeys : List (String × Option ℕ) → List Entry → List Entry
  | _, [] => []
  | seen, e :: es =>
    if e.key ∈ seen then firstOfKeys seen es else e :: firstOfKeys (e.key :: seen) es

/-- The record that a payload matches: the ProxBox-managed one of those with its name and site. -/
def Entry.matched (devices : List Device) (e : Entry) : Option Device :=
  preferExistingDevice
    (devices.filter fun d => d.name = some e.desired.name && some d.site = e.desired.site)

/-- `to_create`. -/
def toCreate (devices : List Device) (entries : List Entry) : List Entry :=
  entries.filter fun e => (e.matched devices).isNone

/-- A record and its patch. -/
structure Update where
  target : Target
  device : Device
  changes : Patch

def Entry.update (devices : List Device) (e : Entry) : Option Update :=
  (e.matched devices).map fun d => ⟨e.target, d, patchPayload c e.desired d⟩

/-- `to_patch`. -/
def toPatch (devices : List Device) (entries : List Entry) : List Update :=
  (entries.filterMap (Entry.update c devices)).filter fun u => !u.changes.isEmpty

/-- The records that need no patch. -/
def unchanged (devices : List Device) (entries : List Entry) : List Device :=
  ((entries.filterMap (Entry.update c devices)).filter fun u => u.changes.isEmpty).map (·.device)

/-- A bulk POST. -/
def createAll : List Entry → State → Option (List Device × State)
  | [], s => some ([], s)
  | e :: es, s => do
    let (d, s) ← create nb e.desired (s.log e.target (.post e.desired))
    let (ds, s) ← createAll es s
    some (d :: ds, s)

/-- The payloads of a bulk POST that failed, one by one. -/
def createItems : List Entry → State → List Device × State
  | [], s => ([], s)
  | e :: es, s =>
    let one := reconcile nb c e.target e.desired s
    let rest := createItems es one.2
    (one.1.toList ++ rest.1, rest.2)

/-- The answer to the `i`-th bulk POST. -/
def bulkCreate (i : ℕ) (batch : List Entry) (s : State) : Option (List Device × State) :=
  if nb.bulkCreateFails i then none else createAll nb batch s

def createBatches : ℕ → List (List Entry) → State → List Device × State
  | _, [], s => ([], s)
  | i, batch :: batches, s =>
    let first := (bulkCreate nb i batch s).getD (createItems nb c batch s)
    let rest := createBatches (i + 1) batches first.2
    (first.1 ++ rest.1, rest.2)

/-- A bulk PATCH. -/
def changeAll : List Update → State → Option (List Device × State)
  | [], s => some ([], s)
  | u :: us, s => do
    let (d, s) ← change nb u.device u.changes s
    let (ds, s) ← changeAll us s
    some (d :: ds, s)

/-- The patches of a bulk PATCH that failed, one by one. -/
def changeItems : List Update → State → List Device × State
  | [], s => ([], s)
  | u :: us, s =>
    let one := save nb u.target u.device u.changes s
    let rest := changeItems us one.2
    (one.1.toList ++ rest.1, rest.2)

def State.logPatches (batch : List Update) (s : State) : State :=
  { s with writes := s.writes ++ batch.map fun u => (u.target, .patch u.device u.changes) }

/-- The answer to the `i`-th bulk PATCH. -/
def bulkPatch (i : ℕ) (batch : List Update) (s : State) : Option (List Device × State) :=
  if nb.bulkPatchFails i then none else changeAll nb batch s

def patchBatches : ℕ → List (List Update) → State → List Device × State
  | _, [], s => ([], s)
  | i, batch :: batches, s =>
    let s := s.logPatches batch
    let first := (bulkPatch nb i batch s).getD (changeItems nb batch s)
    let rest := patchBatches (i + 1) batches first.2
    (first.1 ++ rest.1, rest.2)

/-- The payloads of the devices phase. -/
def entries (devices : List Device) (targets : List Target) : List Entry :=
  firstOfKeys [] (targets.map (entryOf nb c devices))

/-- The devices phase of `ensure_proxmox_devices_bulk`, with the records of its result. -/
def ensureDevicesBulk (size : ℕ) (targets : List Target) (s : State) : List Device × State :=
  let es := entries nb c s.devices targets
  let size := max 1 size
  let created := createBatches nb c 0 (BulkReconcile.batches size (toCreate s.devices es)) s
  let patched := patchBatches nb 0 (BulkReconcile.batches size (toPatch c s.devices es)) created.2
  (unchanged c s.devices es ++ created.1 ++ patched.1, patched.2)

end ProxboxApi.DeviceEnsure
