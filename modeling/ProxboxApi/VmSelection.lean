import ProxboxApi.VmidHelpers
import ProxboxApi.VmPayload

/-! The explicit selection of VMs by their NetBox ids: the owners of the selected records, and the
live Proxmox resources that belong to them. -/

namespace ProxboxApi.VmSelection

open ProxboxApi.VmQueue (Record field relationId normalizePositiveInt extractProxmoxEndpointId
  sortedSet)
open ProxboxApi.Vmid

structure ProxboxException where
  message : String
  detail : String
  httpStatusCode : ℕ
  deriving DecidableEq

/-- What the selection raises: a typed failure, or the `ValueError` of `relation_id`. -/
inductive Failure where
  | proxbox (e : ProxboxException)
  | valueError
  deriving DecidableEq

/-- `_SelectedVMOwner`. -/
structure SelectedVmOwner where
  netboxId : ℤ
  endpointId : ℤ
  clusterName : String
  vmid : ℤ
  vmType : String
  deriving DecidableEq

abbrev ResourceKey := ℤ × String × ℤ × String

def SelectedVmOwner.resourceKey (o : SelectedVmOwner) : ResourceKey :=
  (o.endpointId, o.clusterName, o.vmid, o.vmType)

/-- `VMSyncStateIdentityScan`. -/
inductive IdentityScan where
  | rows (rows : List Record)
  | unavailable
  | readFailed

variable (py : Python)

/-- `_normalize_cluster_name`. -/
def normalizeClusterName (value : Json) : String :=
  if Python.truthy value then py.casefold (Text.strip (py.str value)) else ""

/-- The aliases of the session at one index, with the name of its status row. -/
def aliases (session : SessionFields) (status : Json) : List String :=
  ([status, session.name, session.clusterName].map (normalizeClusterName py)).filter (· ≠ "")

abbrev EndpointIdsByCluster := List (String × List (Option ℤ))

/-- `setdefault(name, set()).add(endpoint_id)`. -/
def addOwner (endpointId : Option ℤ) (index : EndpointIdsByCluster) (name : String) :
    EndpointIdsByCluster :=
  let owners := (Dict.get name index).getD []
  Dict.set name (if endpointId ∈ owners then owners else owners ++ [endpointId]) index

/-- `_source_endpoint_ids_by_cluster`, on from the index built so far. -/
def indexSources (index : EndpointIdsByCluster) :
    List SessionFields → List Json → EndpointIdsByCluster
  | [], _ => index
  | session :: sessions, statuses =>
    indexSources ((aliases py session (statuses.head?.getD .null)).foldl
      (addOwner (extractProxmoxSessionEndpointId py session)) index) sessions statuses.tail

/-- `_source_endpoint_ids_by_cluster`; a status row is given by its `name`. -/
def sourceEndpointIdsByCluster (pxs : List SessionFields) (clusterStatus : List Json) :
    EndpointIdsByCluster :=
  indexSources py [] pxs clusterStatus

/-- The one known endpoint that owns a cluster alias. -/
def soleOwner (index : EndpointIdsByCluster) (name : String) : Option ℤ :=
  match (Dict.get name index).getD [] with
  | [some endpointId] => some endpointId
  | _ => none

/-- `_selection_error`. -/
def selectionError (detail : String) : Failure :=
  .proxbox ⟨"Unable to resolve explicitly selected VM ownership", detail, 502⟩

/-- `", ".join(str(vm_id) for vm_id in sorted(ids)) + "."`. -/
def idList (ids : List ℤ) : String :=
  ", ".intercalate ((sortedSet ids).map toString) ++ "."

def ofRelation : Option (Option ℤ) → Except Failure (Option ℤ)
  | some id => .ok id
  | none => .error .valueError

/-- Records with the id of one of their relations. -/
def withIds (name : String) (records : List Record) : Except Failure (List (Option ℤ × Record)) :=
  records.mapM fun record => do .ok (← ofRelation (relationId py (field name record)), record)

/-- `_requested_ids`. -/
def requestedIds (netboxVmIds : List Json) : Except Failure (List ℤ) :=
  netboxVmIds.foldlM (fun requested rawId => match normalizePositiveInt py rawId with
    | none => .error (selectionError ("Invalid selected NetBox VM id: " ++ py.repr rawId ++ "."))
    | some vmId => .ok (if vmId ∈ requested then requested else requested ++ [vmId])) []

/-- The raw cluster name of a sidecar row, `None` where it has neither name. -/
def sidecarCluster (sidecar : Record) : Json :=
  if Python.truthy (field "proxmox_cluster_name" sidecar) then
    field "proxmox_cluster_name" sidecar
  else match relationName py (field "proxmox_cluster" sidecar) with
    | some name => .str name
    | none => .null

/-- `_selected_sidecar_cluster_name`. -/
def selectedSidecarClusterName (sidecar : Record) : String :=
  normalizeClusterName py (sidecarCluster py sidecar)

/-- `str(sidecar.get("proxmox_cluster_name") or sidecar_cluster_name).strip()`. -/
def overlaidClusterName (sidecar : Record) : String :=
  if Python.truthy (field "proxmox_cluster_name" sidecar) then
    Text.strip (py.str (field "proxmox_cluster_name" sidecar))
  else Text.strip (selectedSidecarClusterName py sidecar)

/-- `_overlay_selected_sidecar_identity`. -/
def overlaySelectedSidecarIdentity (vm sidecar : Record) (netboxId : ℤ) :
    Except Failure Record := do
  let endpointId := normalizePositiveInt py (field "proxmox_endpoint_raw_id" sidecar)
  let vmid := (extractProxmoxVmid py sidecar).bind fun s => normalizePositiveInt py (.str s)
  let vmType := extractProxmoxVmType py sidecar
  match endpointId, vmid, vmType with
  | some endpointId, some vmid, some vmType =>
    if selectedSidecarClusterName py sidecar = "" then
      .error (incomplete netboxId)
    else
      let clusterId ← ofRelation (relationId py (field "cluster" vm))
      let identity : Json.Fields := [("proxmox_endpoint_id", .int endpointId),
        ("proxmox_vm_id", .int vmid), ("proxmox_vm_type", .str vmType)]
      let customFields := Dict.update ((VmQueue.customFields vm).getD []) identity
      let cluster : Json.Fields := (clusterId.map fun id => [("id", .int id)]).getD [] ++
        [("name", .str (overlaidClusterName py sidecar))]
      .ok (Dict.set "cluster" (.obj cluster) (Dict.set "custom_fields" (.obj customFields) vm))
  | _, _, _ => .error (incomplete netboxId)
where
  incomplete (netboxId : ℤ) : Failure :=
    selectionError ("NetBox VM id " ++ toString netboxId ++ " has incomplete or conflicting " ++
      "typed Proxbox sync-state ownership; endpoint, cluster, positive VMID, and VM type are " ++
      "required.")

/-- `_hydrate_selected_vm_identity`; `sidecars` are the rows of each VM id. -/
def hydrateSelectedVmIdentity (sidecars : ℤ → List Record) (legacyFallbackAllowed : Bool)
    (vm : Record) : Except Failure Record := do
  match ← ofRelation (relationId py (field "id" vm)) with
  | none => .ok vm
  | some netboxId => match sidecars netboxId with
    | [] =>
      if legacyFallbackAllowed then .ok vm
      else .error (selectionError ("NetBox VM id " ++ toString netboxId ++ " has no typed " ++
        "Proxbox sync-state owner and legacy custom-field fallback is disabled."))
    | [sidecar] => overlaySelectedSidecarIdentity py vm sidecar netboxId
    | candidates => .error (selectionError ("NetBox VM id " ++ toString netboxId ++
        " requires exactly one complete typed Proxbox sync-state owner; found " ++
        toString candidates.length ++ "."))

/-- The rows of a VM id. -/
def sidecarsByVmId (rows : List (Option ℤ × Record)) (vmId : ℤ) : List Record :=
  (rows.filter (·.1 = some vmId)).map (·.2)

/-- `_hydrate_selected_sidecar_identities`. -/
def hydrateSelectedSidecarIdentities (scan : IdentityScan) (legacyFallbackAllowed : Bool)
    (vms : List Record) : Except Failure (List Record) := do
  let selectedIds := (← withIds py "id" vms).filterMap (·.1)
  let unread (outcome : String) : Except Failure (List Record) :=
    if legacyFallbackAllowed then .ok vms
    else .error (selectionError ("Typed Proxbox VM sync-state lookup " ++ outcome ++
      " while resolving selected NetBox VM id(s): " ++ idList selectedIds))
  if selectedIds.isEmpty then .ok vms
  else match scan with
    | .readFailed => unread "failed"
    | .unavailable => unread "is unavailable"
    | .rows rows =>
      let rows ← withIds py "virtual_machine" rows
      vms.mapM (hydrateSelectedVmIdentity py (sidecarsByVmId rows) legacyFallbackAllowed)

/-- What a record says of its guest: the normalized cluster, the vmid and the type. -/
structure RecordedGuest where
  clusterName : String
  vmid : ℤ
  vmType : String
  deriving DecidableEq

/-- The complete guest identity of a record. -/
def recordedGuest (vm : Record) : Option RecordedGuest := do
  let vmid ← (extractProxmoxVmid py vm).bind fun s => normalizePositiveInt py (.str s)
  let vmType ← extractProxmoxVmType py vm
  let name := normalizeClusterName py (((relationName py (field "cluster" vm)).map .str).getD .null)
  if name = "" then none else some ⟨name, vmid, vmType⟩

def noSource (cluster : String) (netboxId : ℤ) : Failure :=
  selectionError ("No available Proxmox source owns cluster " ++ py.repr (.str cluster) ++
    " for NetBox VM id " ++ toString netboxId ++ ".")

def ambiguousSource (cluster : String) (netboxId : ℤ) (owners : List (Option ℤ)) : Failure :=
  let shown := owners.map fun owner => (owner.map toString).getD "unknown"
  selectionError ("Cluster " ++ py.repr (.str cluster) ++ " for NetBox VM id " ++
    toString netboxId ++ " is ambiguous across endpoint ids " ++
    py.repr (.arr ((shown.mergeSort fun a b => !decide (b < a)).map .str)) ++ ".")

/-- `_resolve_selected_owner`. -/
def resolveSelectedOwner (index : EndpointIdsByCluster) (requireStoredEndpoint : Bool)
    (vm : Record) (netboxId : ℤ) : Except Failure SelectedVmOwner :=
  match recordedGuest py vm with
  | none => .error (selectionError ("NetBox VM id " ++ toString netboxId ++ " has incomplete " ++
      "Proxmox ownership; cluster, positive VMID, and VM type are required, and endpoint " ++
      "identity must be stored or uniquely inferable."))
  | some guest =>
    let owner (endpointId : ℤ) : SelectedVmOwner :=
      ⟨netboxId, endpointId, guest.clusterName, guest.vmid, guest.vmType⟩
    match (Dict.get guest.clusterName index).getD [] with
    | [] => .error (noSource py guest.clusterName netboxId)
    | [some source] => match extractProxmoxEndpointId py vm with
      | none =>
        if requireStoredEndpoint then
          .error (selectionError ("NetBox VM id " ++ toString netboxId ++ " has no stored " ++
            "Proxmox endpoint id; targeted sync requires endpoint, cluster, VMID, and VM type " ++
            "ownership."))
        else .ok (owner source)
      | some stored =>
        if stored = source then .ok (owner stored)
        else .error (selectionError ("NetBox VM id " ++ toString netboxId ++
          " claims endpoint id " ++ toString stored ++ ", but cluster " ++
          py.repr (.str guest.clusterName) ++ " is owned by endpoint id " ++ toString source ++
          "."))
    | owners => .error (ambiguousSource py guest.clusterName netboxId owners)

/-- The loop of `_resolve_selected_owners`, on from the owners resolved so far. -/
def resolveOwners (index : EndpointIdsByCluster) (requireStoredEndpoint : Bool)
    (records : List (ℤ × Record)) (owners : List SelectedVmOwner) :
    List ℤ → Except Failure (List SelectedVmOwner)
  | [] => .ok owners
  | netboxId :: rest => match Dict.get netboxId records with
    | none => .error (selectionError
        ("NetBox did not return explicitly selected VM id(s): " ++ idList [netboxId]))
    | some vm => do
      let owner ← resolveSelectedOwner py index requireStoredEndpoint vm netboxId
      match owners.find? (·.resourceKey = owner.resourceKey) with
      | some other => .error (selectionError ("NetBox VM ids " ++ toString other.netboxId ++
          " and " ++ toString netboxId ++
          " claim the same Proxmox endpoint/cluster/VMID/type owner."))
      | none => resolveOwners index requireStoredEndpoint records (owners ++ [owner]) rest

/-- `_resolve_selected_owners`. -/
def resolveSelectedOwners (index : EndpointIdsByCluster) (requireStoredEndpoint : Bool)
    (vms : List Record) (requested : List ℤ) : Except Failure (List SelectedVmOwner) := do
  let records := Dict.update [] ((← withIds py "id" vms).filterMap fun (id, vm) => id.map (·, vm))
  let missing := requested.filter fun id => (Dict.get id records).isNone
  if missing ≠ [] then
    .error (selectionError
      ("NetBox did not return explicitly selected VM id(s): " ++ idList missing))
  else resolveOwners py index requireStoredEndpoint records [] requested

/-- The key by which a resource under a cluster key finds its owner. -/
def resourceKey (index : EndpointIdsByCluster) (clusterKey : String) (resource : Json.Fields) :
    Option ResourceKey := do
  let name := normalizeClusterName py (.str clusterKey)
  let endpointId ← soleOwner index name
  let vmType := if Python.truthy (field "type" resource) then
    py.lower (Text.strip (py.str (field "type" resource))) else ""
  let vmid ← normalizePositiveInt py (field "vmid" resource)
  if vmType = "qemu" ∨ vmType = "lxc" then some (endpointId, name, vmid, vmType) else none

/-- The owner of a resource: the last owner under its key. -/
def ownerOf (index : EndpointIdsByCluster) (owners : List SelectedVmOwner) (clusterKey : String)
    (resource : Json.Fields) : Option SelectedVmOwner := do
  let key ← resourceKey py index clusterKey resource
  Dict.get key (Dict.update [] (owners.map fun o => (o.resourceKey, o)))

/-- The lists of live resources, each under its cluster key. -/
def liveResources (clusterResources : List Json) : List (String × List Json.Fields) :=
  clusterResources.flatMap fun
    | .obj clusters => clusters.filterMap fun (key, resources) => match resources with
      | .arr items => some (key, items.filterMap fun
        | .obj resource => some resource
        | _ => none)
      | _ => none
    | _ => []

/-- `_filter_cluster_resources_by_owners`. -/
def filterClusterResourcesByOwners (index : EndpointIdsByCluster) (owners : List SelectedVmOwner)
    (clusterResources : List Json) : Except Failure (List (String × List Json.Fields)) :=
  let owned (key : String) (resource : Json.Fields) := ownerOf py index owners key resource
  let filtered := ((liveResources clusterResources).map fun (key, resources) =>
    (key, resources.filter fun r => (owned key r).isSome)).filter (!·.2.isEmpty)
  let matched := filtered.flatMap fun (key, resources) =>
    resources.filterMap fun r => (owned key r).map (·.netboxId)
  let ambiguous := (owners.filter fun o => 1 < matched.count o.netboxId).map (·.netboxId)
  let unresolved := (owners.filter fun o => matched.count o.netboxId = 0).map (·.netboxId)
  if ambiguous ≠ [] then
    .error (selectionError ("Multiple live Proxmox resources matched explicitly selected " ++
      "NetBox VM id(s): " ++ idList ambiguous))
  else if unresolved ≠ [] then
    .error (selectionError ("No exact live Proxmox resource matched explicitly selected " ++
      "NetBox VM id(s): " ++ idList unresolved))
  else .ok filtered

/-- `NETBOX_MULTI_VALUE_ID_CHUNK_SIZE`. -/
def chunkSize : ℕ := 100

/-- `list_netbox_virtual_machines_by_ids`; `fetch` is NetBox's answer for a chunk of ids, or
the text of the error of the read. -/
def listNetboxVirtualMachinesByIds (fetch : List ℤ → Except String (List Record)) (ids : List ℤ) :
    Except Failure (List Record) := do
  let found ← ((sortedSet ids).toChunks chunkSize).foldlM (fun found chunk =>
    match fetch chunk with
    | .error text => .error (.proxbox ⟨"Unable to resolve explicitly selected NetBox VMs",
        "Selected VM id chunk " ++ py.repr (.arr (chunk.map .int)) ++ ": " ++ text, 502⟩)
    | .ok records => records.foldlM (fun found record => do
        let vmId ← ofRelation (relationId py (field "id" record))
        match vmId.filter (· ∈ ids) with
        | none => .error (.proxbox ⟨"NetBox returned invalid selected VM data",
            "Expected one of NetBox VM ids " ++
              py.repr (.arr ((sortedSet ids).map .int)) ++ ", received record id " ++
              py.repr (field "id" record) ++ ".", 502⟩)
        | some vmId => .ok (Dict.setDefault vmId record found)) found) []
  .ok ((sortedSet (Dict.keys found)).filterMap (Dict.get · found))

/-- The inputs that both variants share: sessions, status rows, sidecar scan and the switch of the
legacy custom fields. -/
structure Sources where
  pxs : List SessionFields
  clusterStatus : List Json
  scan : IdentityScan
  legacyFallbackAllowed : Bool

/-- The resources of the requested ids, on from the records of the selected VMs. -/
def selectResources (sources : Sources) (requireStoredEndpoint : Bool) (vms : List Record)
    (requested : List ℤ) (clusterResources : List Json) :
    Except Failure (List (String × List Json.Fields)) := do
  let hydrated ← hydrateSelectedSidecarIdentities py sources.scan sources.legacyFallbackAllowed vms
  let index := sourceEndpointIdsByCluster py sources.pxs sources.clusterStatus
  let owners ← resolveSelectedOwners py index requireStoredEndpoint hydrated requested
  filterClusterResourcesByOwners py index owners clusterResources

/-- `filter_cluster_resources_for_selected_vm`. -/
def filterClusterResourcesForSelectedVm (sources : Sources) (vm : Record) (netboxVmId : Json)
    (clusterResources : List Json) : Except Failure (List (String × List Json.Fields)) := do
  let requested ← requestedIds py [netboxVmId]
  selectResources py sources true [vm] requested clusterResources

/-- `filter_cluster_resources_by_netbox_vm_ids`. -/
def filterClusterResourcesByNetboxVmIds (sources : Sources)
    (fetch : List ℤ → Except String (List Record)) (netboxVmIds : List Json)
    (clusterResources : List Json) : Except Failure (List (String × List Json.Fields)) :=
  if netboxVmIds.isEmpty then .ok []
  else do
    let requested ← requestedIds py netboxVmIds
    let vms ← listNetboxVirtualMachinesByIds py fetch requested
    selectResources py sources false vms requested clusterResources

end ProxboxApi.VmSelection
