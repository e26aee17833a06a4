import ProxboxApi.DeviceEnsure
import ProxboxApi.FirstMatch

/-! The IP addresses of VM interfaces, in bulk by `bulk_reconcile_vm_interface_ips` and one by one
by `_reconcile_interface_ip`, on a NetBox whose requests succeed and which has no more records of an
address than the 50 that `_reconcile_interface_ip` reads. -/

namespace ProxboxApi.InterfaceIps

open DeviceEnsure (TagRef normalizedTagList)

/-- An IP address in NetBox: what it is assigned to, by type and id, and what the syncs set;
`lastUpdated` is the custom field `proxmox_last_updated`. -/
structure IpRecord where
  id : ℕ
  address : String
  assigned : Option (String × ℕ)
  status : String
  dnsName : String
  tags : List TagRef
  lastUpdated : Option String
  deriving DecidableEq

abbrev IpTable := FirstMatch.Table IpRecord

def vmInterface : String := "virtualization.vminterface"

/-- A host address as `ipaddress` parses it. -/
structure Host where
  loopback : Bool
  linkLocal : Bool
  compressed : String

variable (py : Python) (parse : String → Option Host)

/-- `_is_skippable_ip`; `none` is an address to be skipped. -/
def isSkippableIp (ipText : String) (ignoreIpv6LinkLocal : Bool) : Option String :=
  let cleaned := (Text.strip ipText).toList.takeWhile (· ≠ '%')
  if cleaned = [] then none
  else match parse (String.ofList cleaned) with
    | none => none
    | some host =>
      if host.loopback || (ignoreIpv6LinkLocal && host.linkLocal) then none
      else some host.compressed

/-- What the payloads of one interface share; `now` is the time of the sync as `isoformat` spells
it. -/
structure Interface where
  id : ℕ
  dnsName : Option String
  tagRefs : List TagRef
  ignoreIpv6LinkLocal : Bool
  now : String

/-- The address of `build_vm_interface_ip_payload`. -/
def cleanAddress (ignoreIpv6LinkLocal : Bool) (address : String) : Option String :=
  let host := String.ofList (address.toList.takeWhile (· ≠ '/'))
  let prefixPart := (address.toList.dropWhile (· ≠ '/')).drop 1
  (isSkippableIp parse host ignoreIpv6LinkLocal).map fun cleaned =>
    if prefixPart = [] then cleaned else cleaned ++ "/" ++ String.ofList prefixPart

/-- `normalize_status` of `NetBoxIpAddressSyncState`. -/
def normalizeStatus (status : String) : String :=
  let text := py.lower (Text.strip (if status = "" then "active" else status))
  if text = "" then "active" else text

/-- `str.rstrip(".")`. -/
def rstripDots (s : String) : String := String.ofList (s.toList.reverse.dropWhile (· = '.')).reverse

/-- `normalize_dns_name`. -/
def normalizeDnsName (name : String) : String :=
  let text := py.lower (rstripDots (Text.strip name))
  if text = "" || text = "localhost" || "localhost.".isPrefixOf text then ""
  else String.ofList (text.toList.take 255)

/-- A payload under the schema; its status is active, and its custom fields are
`proxmox_last_updated` or none. -/
structure Payload where
  address : String
  interfaceId : ℕ
  dnsName : String
  tags : List TagRef
  lastUpdated : Option String

def payloadOf (iface : Interface) (address : String) : Payload where
  address := address
  interfaceId := iface.id
  dnsName := normalizeDnsName py (iface.dnsName.getD "")
  tags := normalizedTagList iface.tagRefs
  lastUpdated := some iface.now

/-- `build_vm_interface_ip_payload`. -/
def buildVmInterfaceIpPayload (iface : Interface) (address : String) : Option Payload :=
  (cleanAddress parse iface.ignoreIpv6LinkLocal address).map (payloadOf py iface)

def Payload.owner (p : Payload) : String × ℕ := (vmInterface, p.interfaceId)

/-- The record of a POST. -/
def Payload.record (p : Payload) (id : ℕ) : IpRecord where
  id := id
  address := p.address
  assigned := some p.owner
  status := "active"
  dnsName := p.dnsName
  tags := p.tags
  lastUpdated := p.lastUpdated

/-- The fields that may be patched, apart from the assignment. -/
structure IpFields where
  status : Bool
  dnsName : Bool
  tags : Bool
  customFields : Bool

def IpFields.all : IpFields := ⟨true, true, true, true⟩

/-- What is read of `SyncOverwriteFlags`. -/
structure OverwriteFlags where
  overwriteIpStatus : Bool
  overwriteIpTags : Bool
  overwriteIpCustomFields : Bool
  overwriteIpAddressDnsName : Bool

/-- `include_custom_fields_in_payload`, by the setting `custom_fields_enabled`. -/
def includeCustomFieldsInPayload (enabled overwrite : Bool) : Bool := overwrite && enabled

/-- `patchable_fields` of `bulk_reconcile_vm_interface_ips`. -/
def patchableFields (enabled : Bool) : Option OverwriteFlags → IpFields
  | none => ⟨true, true, true, includeCustomFieldsInPayload enabled true⟩
  | some flags => ⟨flags.overwriteIpStatus, flags.overwriteIpAddressDnsName, flags.overwriteIpTags,
      includeCustomFieldsInPayload enabled flags.overwriteIpCustomFields⟩

/-- `legacy_custom_fields_payload`. -/
def legacyCustomFieldsPayload (enabled overwrite : Bool) (p : Payload) : Payload :=
  if includeCustomFieldsInPayload enabled overwrite then p else { p with lastUpdated := none }

/-- A field of a record is patched: it may be, and differs under the schema. -/
def patched {α : Type} [DecidableEq α] (allowed : Bool) (current desired : α) : Bool :=
  allowed && decide (current ≠ desired)

/-- `_ip_address_current_normalizer` reads no custom fields, so those of a payload differ always. -/
def differs (f : IpFields) (p : Payload) (r : IpRecord) : Bool :=
  patched f.status (normalizeStatus py r.status) "active" ||
    patched f.dnsName (normalizeDnsName py r.dnsName) p.dnsName ||
    patched f.tags (normalizedTagList r.tags) p.tags ||
    patched f.customFields none p.lastUpdated

/-- The record after a PATCH of the fields that differ. -/
def settled (f : IpFields) (p : Payload) (r : IpRecord) : IpRecord where
  id := r.id
  address := r.address
  assigned := r.assigned
  status := if patched f.status (normalizeStatus py r.status) "active" then "active" else r.status
  dnsName :=
    if patched f.dnsName (normalizeDnsName py r.dnsName) p.dnsName then p.dnsName else r.dnsName
  tags := if patched f.tags (normalizedTagList r.tags) p.tags then p.tags else r.tags
  lastUpdated := if patched f.customFields none p.lastUpdated then p.lastUpdated else r.lastUpdated

/-- The lookup key of a record of the listing, which holds the addresses of VM interfaces. -/
def IpRecord.key (r : IpRecord) : Option (String × ℕ) :=
  match r.assigned with
  | none => none
  | some (objectType, objectId) =>
    if objectType = vmInterface then some (r.address, objectId) else none

/-- The reconciliation by address and interface. -/
def bulkSpec (f : IpFields) : FirstMatch.Spec IpRecord Payload (String × ℕ) where
  id := IpRecord.id
  rowKey := IpRecord.key
  key p := (p.address, p.interfaceId)
  differs := differs py f
  change := settled py f
  make id p := p.record id

/-- What `bulk_reconcile_vm_interface_ips` sends of a payload. -/
def sent (enabled : Bool) (flags : Option OverwriteFlags) (p : Payload) : Payload :=
  legacyCustomFieldsPayload enabled (flags.elim true OverwriteFlags.overwriteIpCustomFields) p

/-- `bulk_reconcile_vm_interface_ips`. -/
def bulkReconcileVmInterfaceIps (enabled : Bool) (flags : Option OverwriteFlags)
    (payloads : List Payload) (t : IpTable) : IpTable :=
  (bulkSpec py (patchableFields enabled flags)).bulk t (payloads.map (sent enabled flags))

/-- The record is assigned to the interface of the payload. -/
def Payload.owns (p : Payload) (r : IpRecord) : Bool := r.assigned = some p.owner

def IpRecord.adoptable (r : IpRecord) : Bool := r.assigned = none

/-- The record that is chosen among those of the address: one of the interface, or one of
nobody. -/
def Payload.target (p : Payload) (rows : List IpRecord) : Option IpRecord :=
  let existing := rows.filter fun r => r.address = p.address
  (existing.find? p.owns).or (existing.find? IpRecord.adoptable)

/-- The record after the PATCH of `_reconcile_interface_ip`, which assigns it too. -/
def adopted (p : Payload) (r : IpRecord) : IpRecord :=
  { settled py .all p r with assigned := some p.owner }

/-- `rest_reconcile_async` by a strict lookup. -/
def reconcile (p : Payload) (lookup : IpRecord → Bool) (t : IpTable) : IpTable :=
  match t.rows.find? lookup with
  | none => { rows := t.rows ++ [p.record t.next], next := t.next + 1 }
  | some r =>
    if differs py .all p r || !p.owns r then
      { t with rows := t.rows.map fun r' => if r'.id = r.id then adopted py p r' else r' }
    else t

/-- `_reconcile_interface_ip`. -/
def reconcileInterfaceIp (p : Payload) (t : IpTable) : IpTable :=
  match p.target t.rows with
  | some r => reconcile py p (fun r' => r'.id = r.id) t
  | none => reconcile py p (fun r' => r'.address = p.address && p.owns r') t

/-- `_reconcile_interface_ip`, for each payload. -/
def reconcileEach (payloads : List Payload) (t : IpTable) : IpTable :=
  payloads.foldl (fun t p => reconcileInterfaceIp py p t) t

end ProxboxApi.InterfaceIps
