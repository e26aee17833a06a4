import ProxboxApi.VmIdentity
import Mathlib.Data.Set.Function

/-! The gate of cloud provisioning: an endpoint that is closed to writes is opened by the NetBox rows
that match it, and stays open. -/

namespace ProxboxApi.CloudGate

open VmQueue (Record field)

variable (py : Python)

/-- What the gate reads of a `ProxmoxEndpoint`. -/
structure Endpoint where
  name : String
  ipAddress : String
  domain : Option String
  allowWrites : Bool

abbrev Endpoints := ℤ → Option Endpoint

/-- `str(value or "")`. -/
def textOf (value : Json) : String := if Python.truthy value then py.str value else ""

/-- `text.split("/", 1)[0]`. -/
def beforeSlash (text : String) : String := String.ofList (text.toList.takeWhile (· ≠ '/'))

/-- `_row_ip_address`. -/
def rowIpAddress (row : Record) : String :=
  let value := match field "ip_address" row with
    | .obj fields => field "address" fields
    | value => value
  Text.strip (beforeSlash (textOf py value))

/-- Text, read backwards, without a suffix such as `(nb:12)`. -/
def withoutSuffix : List Char → List Char
  | ')' :: rest =>
    match rest.takeWhile py.isDecimal, rest.dropWhile py.isDecimal with
    | _ :: _, ':' :: 'b' :: 'n' :: '(' :: base => base.dropWhile Text.isSpace
    | _, _ => ')' :: rest
  | text => text

/-- `_endpoint_base_name`. -/
def endpointBaseName (value : Json) : String :=
  String.ofList (withoutSuffix py (Text.strip (textOf py value)).toList.reverse).reverse

/-- `_netbox_row_matches_endpoint`. -/
def netboxRowMatchesEndpoint (row : Record) (endpoint : Endpoint) : Bool :=
  let rowName := endpointBaseName py (field "name" row)
  let endpointName := endpointBaseName py (.str endpoint.name)
  let rowDomain := Text.strip (textOf py (field "domain" row))
  let domain := endpoint.domain.getD ""
  (rowName ≠ "" && endpointName ≠ "" && rowName = endpointName) ||
    (rowDomain ≠ "" && domain ≠ "" && rowDomain = domain) ||
    (rowIpAddress py row ≠ "" && rowIpAddress py row = beforeSlash endpoint.ipAddress)

def allowsWrites (row : Record) : Bool := Python.truthy (field "allow_writes" row)

/-- `_netbox_allows_endpoint_writes`; without a listing the read has failed. -/
def netboxAllowsEndpointWrites (listing : Option (List Record)) (endpoint : Endpoint) : Bool :=
  match listing with
  | none => false
  | some rows => (rows.filter fun row => netboxRowMatchesEndpoint py row endpoint).any allowsWrites

/-- A response, or the endpoint. -/
inductive Gated
  | refused (status : ℕ) (reason : String)
  | admitted (endpoint : Endpoint)

/-- `_gate`. -/
def gate (endpoints : Endpoints) : Option ℤ → Gated
  | none => .refused 403 "endpoint_id_required"
  | some id => match endpoints id with
    | none => .refused 403 "endpoint_not_found"
    | some endpoint =>
      if endpoint.allowWrites then .admitted endpoint else .refused 403 "endpoint_writes_disabled"

/-- `_cloud_provision_gate`, with the endpoints that it leaves. -/
def cloudProvisionGate (endpoints : Endpoints) (endpointId : Option ℤ)
    (listing : Option (List Record)) : Gated × Endpoints :=
  match gate endpoints endpointId with
  | .admitted endpoint => (.admitted endpoint, endpoints)
  | .refused status reason =>
    let gated := .refused status reason
    if status ≠ 403 then (gated, endpoints)
    else if reason ∉ ["endpoint_writes_disabled", "writes_disabled_for_endpoint"] then
      (gated, endpoints)
    else match endpointId with
      | none => (gated, endpoints)
      | some id => match endpoints id with
        | none => (gated, endpoints)
        | some endpoint =>
          if netboxAllowsEndpointWrites py listing endpoint then
            let opened := { endpoint with allowWrites := true }
            (.admitted opened, Function.update endpoints id (some opened))
          else (gated, endpoints)

/-- A provision request: the rows that NetBox holds at the time, and the listing that is read, which
may come from the cache. -/
structure Request where
  endpointId : Option ℤ
  current : List Record
  listing : Option (List Record)

/-- The endpoints after provision requests. -/
def serve (endpoints : Endpoints) (requests : List Request) : Endpoints :=
  requests.foldl (fun endpoints request =>
    (cloudProvisionGate py endpoints request.endpointId request.listing).2) endpoints

/-- The gate lets the request through. -/
def Passes (endpoints : Endpoints) (request : Request) : Prop :=
  ∃ endpoint, (cloudProvisionGate py endpoints request.endpointId request.listing).1 =
    .admitted endpoint

/-- The rows of an endpoint allow writes: one does, and none forbids them. -/
def Permits (denotes : Record → Prop) (rows : List Record) : Prop :=
  (∃ row ∈ rows, denotes row ∧ allowsWrites row) ∧ ∀ row ∈ rows, denotes row → allowsWrites row

/-- Over all requests, one for an endpoint that was closed is let through only while the rows of this
endpoint allow writes. `denotes` says of which endpoint a row is. -/
def NeverWidens (denotes : Record → ℤ → Prop) (endpoints : Endpoints) (requests : List Request) :
    Prop :=
  ∀ before request after id endpoint, requests = before ++ request :: after →
    request.endpointId = some id → endpoints id = some endpoint → endpoint.allowWrites = false →
    Passes py (serve py endpoints before) request → Permits (denotes · id) request.current

/-- The request reads a row that matches the endpoint and allows writes. -/
def Request.opens (request : Request) (id : ℤ) (endpoint : Endpoint) : Bool :=
  request.endpointId = some id && netboxAllowsEndpointWrites py request.listing endpoint

/-- From the first request on that opens an endpoint, its rows allow writes whenever it is asked for. -/
def OpenedByItsRows (denotes : Record → ℤ → Prop) (endpoints : Endpoints)
    (requests : List Request) : Prop :=
  ∀ before request after id endpoint, requests = before ++ request :: after →
    request.endpointId = some id → endpoints id = some endpoint → endpoint.allowWrites = false →
    (before ++ [request]).any (·.opens py id endpoint) → Permits (denotes · id) request.current

variable {py}

@[simp] theorem opens_allowWrites {request : Request} {id : ℤ} {endpoint : Endpoint} (b : Bool) :
    request.opens py id { endpoint with allowWrites := b } = request.opens py id endpoint := rfl

theorem gate_some {endpoints : Endpoints} {id : ℤ} {endpoint : Endpoint}
    (h : endpoints id = some endpoint) : gate endpoints (some id) =
      if endpoint.allowWrites then .admitted endpoint
      else .refused 403 "endpoint_writes_disabled" := by
  simp [gate, h]

/-- A request for a known endpoint. -/
theorem cloudProvisionGate_some {endpoints : Endpoints} {id : ℤ} {endpoint : Endpoint}
    (h : endpoints id = some endpoint) (listing : Option (List Record)) :
    cloudProvisionGate py endpoints (some id) listing =
      if endpoint.allowWrites then (.admitted endpoint, endpoints)
      else if netboxAllowsEndpointWrites py listing endpoint then
        (.admitted { endpoint with allowWrites := true },
          Function.update endpoints id (some { endpoint with allowWrites := true }))
      else (.refused 403 "endpoint_writes_disabled", endpoints) := by
  unfold cloudProvisionGate
  rw [gate_some h]
  cases endpoint.allowWrites with
  | true => rfl
  | false => simp [h]

/-- A request for another endpoint, or for none, leaves an endpoint as it is. -/
theorem cloudProvisionGate_of_ne {endpoints : Endpoints} {id : ℤ} {endpointId : Option ℤ}
    (hne : endpointId ≠ some id) (listing : Option (List Record)) :
    (cloudProvisionGate py endpoints endpointId listing).2 id = endpoints id := by
  cases endpointId with
  | none => simp [cloudProvisionGate, gate]
  | some other =>
    have hother : id ≠ other := fun heq => hne (congrArg some heq.symm)
    cases hendpoint : endpoints other with
    | none => simp [cloudProvisionGate, gate, hendpoint]
    | some endpoint =>
      rw [cloudProvisionGate_some hendpoint]
      split_ifs
      · rfl
      · exact Function.update_of_ne hother _ _
      · rfl

/-- What a request leaves of an endpoint. -/
theorem cloudProvisionGate_endpoints {endpoints : Endpoints} {id : ℤ} {endpoint : Endpoint}
    (h : endpoints id = some endpoint) (request : Request) :
    (cloudProvisionGate py endpoints request.endpointId request.listing).2 id =
      some { endpoint with
        allowWrites := endpoint.allowWrites || request.opens py id endpoint } := by
  by_cases hid : request.endpointId = some id
  · have hopens : request.opens py id endpoint =
        netboxAllowsEndpointWrites py request.listing endpoint := by
      simp [Request.opens, hid]
    rw [hid, cloudProvisionGate_some h, hopens]
    obtain ⟨name, ipAddress, domain, allowWrites⟩ := endpoint
    cases allowWrites with
    | true => simp [h]
    | false =>
      cases hlisting : netboxAllowsEndpointWrites py request.listing
        ⟨name, ipAddress, domain, false⟩ with
      | true => simp
      | false => simp [h]
  · have hopens : request.opens py id endpoint = false := by
      simp [Request.opens, hid]
    rw [cloudProvisionGate_of_ne hid, h, hopens, Bool.or_false]

theorem serve_endpoints {endpoints : Endpoints} {id : ℤ} {endpoint : Endpoint}
    (h : endpoints id = some endpoint) (requests : List Request) :
    serve py endpoints requests id = some { endpoint with
      allowWrites := endpoint.allowWrites || requests.any (·.opens py id endpoint) } := by
  induction requests generalizing endpoints endpoint with
  | nil => simpa [serve] using h
  | cons request requests ih =>
    have hrest := ih (@cloudProvisionGate_endpoints py _ _ _ h request)
    simp only [opens_allowWrites] at hrest
    rw [List.any_cons, ← Bool.or_assoc]
    exact hrest

theorem passes_iff {endpoints : Endpoints} {id : ℤ} {endpoint : Endpoint}
    (h : endpoints id = some endpoint) {request : Request} (hid : request.endpointId = some id) :
    Passes py endpoints request ↔ endpoint.allowWrites ∨ request.opens py id endpoint := by
  have hopens : request.opens py id endpoint =
      netboxAllowsEndpointWrites py request.listing endpoint := by
    simp [Request.opens, hid]
  unfold Passes
  rw [hid, cloudProvisionGate_some h, hopens]
  cases endpoint.allowWrites with
  | true => simp
  | false => cases netboxAllowsEndpointWrites py request.listing endpoint <;> simp

/-- An endpoint that was closed is let through once a request opens it. -/
theorem passes_serve_iff {endpoints : Endpoints} {before : List Request} {request : Request}
    {id : ℤ} {endpoint : Endpoint} (hid : request.endpointId = some id)
    (h : endpoints id = some endpoint) (hclosed : endpoint.allowWrites = false) :
    Passes py (serve py endpoints before) request ↔
      (before ++ [request]).any (·.opens py id endpoint) := by
  rw [passes_iff (serve_endpoints h before) hid]
  simp [hclosed]

variable (py)

/-- The gate never widens writes exactly if an endpoint is opened by its own rows only and these
stay as they are. -/
theorem neverWidens_iff (denotes : Record → ℤ → Prop) (endpoints : Endpoints)
    (requests : List Request) : NeverWidens py denotes endpoints requests ↔
      OpenedByItsRows py denotes endpoints requests := by
  constructor
  · intro h before request after id endpoint heq hid hendpoint hclosed hopens
    have hpasses := (passes_serve_iff hid hendpoint hclosed).mpr hopens
    exact h before request after id endpoint heq hid hendpoint hclosed hpasses
  · intro h before request after id endpoint heq hid hendpoint hclosed hpasses
    have hopens := (passes_serve_iff hid hendpoint hclosed).mp hpasses
    exact h before request after id endpoint heq hid hendpoint hclosed hopens

/-- A row of the NetBox endpoint list. -/
def endpointRow (id : ℤ) (name : String) (allow : Bool) : Record :=
  [("id", .int id), ("name", .str name), ("domain", .str "pve.example.net"),
    ("ip_address", .obj [("address", .str "10.0.0.10/24")]), ("allow_writes", .bool allow)]

def labEndpoints : Endpoints := fun id =>
  if id = 1 then some ⟨"lab (nb:11)", "10.0.0.10", some "pve.example.net", false⟩ else none

def ofLab (row : Record) (id : ℤ) : Prop := id = 1 ∧ field "id" row = .int 11

/-- A request for the endpoint 1 that reads what NetBox holds. -/
def labRequest (rows : List Record) : Request := ⟨some 1, rows, some rows⟩

/-- The row 12 of another endpoint, with the domain and the address of the endpoint 1, opens it; and a
row that allows writes no more does not close it again. -/
theorem foreign_row_opens :
    ¬ NeverWidens .ascii ofLab labEndpoints
      [labRequest [endpointRow 11 "lab" false, endpointRow 12 "shop" true]] ∧
    ¬ NeverWidens .ascii ofLab labEndpoints
      [labRequest [endpointRow 11 "lab" true], labRequest [endpointRow 11 "lab" false]] := by
  constructor
  · intro h
    have hpermits := h [] _ [] 1 ⟨"lab (nb:11)", "10.0.0.10", some "pve.example.net", false⟩ rfl rfl
      rfl rfl ((passes_serve_iff rfl rfl rfl).mpr (by decide +kernel))
    have hforbids := hpermits.2 (endpointRow 11 "lab" false) (by simp [labRequest]) ⟨rfl, rfl⟩
    revert hforbids
    decide +kernel
  · intro h
    have hpermits := h [labRequest [endpointRow 11 "lab" true]] _ [] 1
      ⟨"lab (nb:11)", "10.0.0.10", some "pve.example.net", false⟩ rfl rfl rfl rfl
      ((passes_serve_iff rfl rfl rfl).mpr (by decide +kernel))
    have hforbids := hpermits.2 (endpointRow 11 "lab" false) (by simp [labRequest]) ⟨rfl, rfl⟩
    revert hforbids
    decide +kernel

end ProxboxApi.CloudGate
