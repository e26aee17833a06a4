import Mathlib.Data.List.Sort
import ProxboxApi.CephRedaction

/-! The plans of the Ceph engine and how a plan is applied. -/

namespace ProxboxApi.Ceph

structure ProviderOperation where
  id : Option String
  provider : String
  kind : String
  targetRef : String
  action : String
  isDestructive : Bool
  supported : Bool
  blockedReason : Option String
  beforeSummary : Value
  afterSummary : Value
  metadata : Value

structure DesiredObject where
  kind : String
  targetRef : Option String
  name : Option String
  action : String
  payload : Value

/-- The part of `PlanRequest` that the engine reads; the request as a value is what is
redacted. -/
structure PlanRequest where
  objects : List DesiredObject
  desiredScope : Json.Fields
  operations : List ProviderOperation
  scope : Json.Fields
  netboxBranchSchemaId : Option String
  sourceBranchSchemaId : Option String
  asValue : Value

inductive Severity where
  | info
  | warning
  | error
  deriving DecidableEq, Repr

structure ValidationResult where
  severity : Severity
  code : String
  message : String
  target : String

structure ProviderCapabilities where
  provider : String
  supported : Bool
  plan : Bool
  apply : Bool
  operationKinds : List (String × Bool)
  notes : List String

structure MetricSnapshot where
  clusterHealth : String
  degradedPgs : Option ℤ
  misplacedPgs : Option ℤ
  recoveringPgs : Option ℤ

structure PlanResponse where
  id : String
  provider : String
  sourceBranchSchemaId : Option String
  operations : List ProviderOperation
  validations : List ValidationResult
  warnings : List String
  blockedActions : List ProviderOperation
  liveStateSummary : Json
  requestSummary : Json

/-- What an adapter raises: `CephCapabilityUnsupported`, or anything else. -/
inductive AdapterError where
  | unsupported (message : String)
  | other (message : String)

/-- The answers of a provider adapter while a plan is built. -/
structure Adapter where
  capabilities : ProviderCapabilities
  readState : Json.Fields → Except AdapterError (List (String × Value))
  diff : List DesiredObject → List (String × Value) → Except AdapterError (List ProviderOperation)
  plan : List ProviderOperation → Except AdapterError (List ProviderOperation)

variable (py : Python)

/-- The Python value `a or b` of an optional string. -/
def orElse (s : Option String) (other : String) : String :=
  match s with
  | some s => if s = "" then other else s
  | none => other

def targetRequired (message target : String) : ValidationResult :=
  ⟨.error, "target_ref_required", message, target⟩

/-- `validation_results_for_request`. -/
def validationResultsForRequest (request : PlanRequest) : List ValidationResult :=
  (request.objects.filter fun desired =>
      orElse desired.targetRef (desired.name.getD "") = "").map (fun desired => targetRequired
    "Desired Ceph objects require target_ref, ref, name, or payload.name." desired.kind) ++
  (request.operations.filter fun operation => operation.targetRef = "").map (fun operation =>
    targetRequired "Provider operations require target_ref, ref, target, or name." operation.kind)

def counted (n : Option ℤ) : Bool := n.getD 0 ≠ 0

/-- `CephMetricSnapshot.is_degraded`. -/
def MetricSnapshot.isDegraded (s : MetricSnapshot) : Bool :=
  s.clusterHealth = "HEALTH_WARN" || s.clusterHealth = "HEALTH_ERR" ||
    counted s.degradedPgs || counted s.misplacedPgs || counted s.recoveringPgs

def MetricSnapshot.reason (s : MetricSnapshot) : String :=
  "cluster health is " ++ s.clusterHealth ++
    if counted s.recoveringPgs || counted s.degradedPgs || counted s.misplacedPgs then
      " (recovering=" ++ toString (s.recoveringPgs.getD 0) ++ ", degraded=" ++
        toString (s.degradedPgs.getD 0) ++ ", misplaced=" ++
        toString (s.misplacedPgs.getD 0) ++ ")"
    else ""

/-- `metric_safety_validations`. -/
def metricSafetyValidations (snapshot : Option MetricSnapshot)
    (operations : List ProviderOperation) : List ValidationResult :=
  match snapshot with
  | none => []
  | some s =>
    if s.isDegraded then
      (operations.filter (·.isDestructive)).map fun operation =>
        ⟨.warning, "cluster_degraded", "Destructive operation while " ++ s.reason ++
          "; proceed only with explicit confirmation.",
          if operation.targetRef = "" then operation.kind else operation.targetRef⟩
    else []

def destructiveActions : List String := ["delete", "destroy", "purge", "remove", "zap"]

/-- `_DESTRUCTIVE_KIND_ACTIONS`. -/
def destructiveKindActions : List (String × List String) :=
  ["osd", "pool", "rbd", "rbd_image", "rgw_bucket", "crush", "crush_rule", "key", "user"].map
    fun kind => (kind, destructiveActions)

def underscored (s : String) : String :=
  String.ofList (s.toList.map fun c => if c = '-' then '_' else c)

/-- `kind.strip().lower().replace("-", "_")`. -/
def normalizedKind (kind : String) : String := underscored (py.lower (Text.strip kind))

/-- `action.strip().lower() or "ensure"`. -/
def normalizedAction (action : String) : String :=
  let action := py.lower (Text.strip action)
  if action = "" then "ensure" else action

/-- `_is_destructive`, of a kind and an action. -/
def isDestructive (kind action : String) : Bool :=
  let action := py.lower (Text.strip action)
  destructiveActions.contains action ||
    ((Dict.get (normalizedKind py kind) destructiveKindActions).getD []).contains action

/-- `_provider_supports_operation`. -/
def providerSupportsOperation (capabilities : ProviderCapabilities)
    (operation : ProviderOperation) : Bool :=
  if operation.action = "noop" then true
  else
    let keys := [operation.kind ++ ":" ++ operation.action, operation.kind ++ ":*",
      operation.action, operation.kind]
    (keys.findSome? (Dict.get · capabilities.operationKinds)).getD capabilities.apply

/-- What blocks an operation whose fields are normalized. -/
def block (capabilities : ProviderCapabilities) (op : ProviderOperation) : ProviderOperation :=
  if op.targetRef = "" then
    { op with
      supported := false
      blockedReason := some "target_ref is required for Ceph provider operations." }
  else if !capabilities.supported then
    { op with
      supported := false
      blockedReason :=
        some ("provider " ++ py.repr (.str capabilities.provider) ++ " is not implemented.") }
  else if op.supported && !providerSupportsOperation capabilities op then
    { op with
      supported := false
      blockedReason := some ("provider " ++ py.repr (.str capabilities.provider) ++
        " does not support " ++ op.action ++ " for " ++ op.kind ++ ".") }
  else if !op.supported && orElse op.blockedReason "" = "" then
    { op with blockedReason := some "provider operation is marked unsupported." }
  else op

/-- `_normalize_operation`; `stableId` is `_stable_operation_id`. -/
def normalizeOperation (stableId : ProviderOperation → String)
    (capabilities : ProviderCapabilities) (operation : ProviderOperation) : ProviderOperation :=
  let op := { operation with
    provider := capabilities.provider
    kind := normalizedKind py operation.kind
    action := normalizedAction py operation.action }
  let op := { op with isDestructive := op.isDestructive || isDestructive py op.kind op.action }
  let op := { op with id := some (orElse op.id (stableId op)) }
  block py capabilities op

def actionPriority (action : String) : ℕ :=
  (Dict.get action [("noop", 0), ("create", 10), ("ensure", 20), ("update", 30), ("set", 30),
    ("delete", 90), ("destroy", 90), ("purge", 90), ("remove", 90), ("zap", 90)]).getD 50

/-- `_operation_priority`. -/
def operationPriority (op : ProviderOperation) : ℕ × List String :=
  (actionPriority op.action, [op.kind, op.targetRef, op.id.getD ""])

/-- The order of the priorities. -/
def priorityLe (a b : ProviderOperation) : Prop :=
  (operationPriority a).1 < (operationPriority b).1 ∨
    ((operationPriority a).1 = (operationPriority b).1 ∧
      ¬ (operationPriority b).2 < (operationPriority a).2)

instance : DecidableRel priorityLe := fun _ _ => inferInstanceAs (Decidable (_ ∨ _))

/-- `_generic_operations_from_desired`. -/
def genericOperationsFromDesired (request : PlanRequest) (provider : String) :
    List ProviderOperation :=
  request.objects.map fun desired => {
    id := none
    provider
    kind := desired.kind
    targetRef := orElse desired.targetRef (desired.name.getD "")
    action := desired.action
    isDestructive := false
    supported := true
    blockedReason := none
    beforeSummary := .dict []
    afterSummary := desired.payload
    metadata := .dict [] }

/-- `_raw_operations`. -/
def rawOperations (request : PlanRequest) (adapter : Adapter) :
    Except AdapterError (List ProviderOperation × List (String × Value)) :=
  if request.operations ≠ [] then .ok (request.operations, [])
  else if !adapter.capabilities.supported then
    .ok (genericOperationsFromDesired request adapter.capabilities.provider, [])
  else do
    let scope := if request.scope.isEmpty then request.desiredScope else request.scope
    let live ← adapter.readState scope
    let operations ← adapter.diff request.objects live
    .ok (operations, live)

/-- The operations of a request whose validation has no error. -/
def plannedOperations (request : PlanRequest) (adapter : Adapter) :
    Except AdapterError (List ProviderOperation × List (String × Value)) := do
  let (operations, live) ← rawOperations request adapter
  if adapter.capabilities.supported && adapter.capabilities.plan then
    let operations ← adapter.plan operations
    .ok (operations, live)
  else .ok (operations, live)

/-- `build_plan`, on from its operations, live state and warnings. -/
def assemblePlan (stableId : ProviderOperation → String) (planId : String)
    (snapshot : Option MetricSnapshot) (request : PlanRequest) (capabilities : ProviderCapabilities)
    (operations : List ProviderOperation) (live : List (String × Value))
    (warnings : List String) : PlanResponse :=
  let normalized :=
    (operations.map (normalizeOperation py stableId capabilities)).insertionSort priorityLe
  { id := planId
    provider := capabilities.provider
    sourceBranchSchemaId := (request.netboxBranchSchemaId.filter (· ≠ "")).or
      request.sourceBranchSchemaId
    operations := normalized
    validations :=
      validationResultsForRequest request ++ metricSafetyValidations snapshot normalized
    warnings
    blockedActions := normalized.filter (!·.supported)
    liveStateSummary := jsonable ((Dict.get "summary" live).getD (.dict []))
    requestSummary := redactSecrets py request.asValue }

/-- `build_plan`; the plan id is fresh. -/
def buildPlan (stableId : ProviderOperation → String) (planId : String)
    (snapshot : Option MetricSnapshot) (request : PlanRequest) (adapter : Adapter) :
    Except AdapterError PlanResponse :=
  let capabilities := adapter.capabilities
  let assemble := assemblePlan py stableId planId snapshot request capabilities
  if (validationResultsForRequest request).any (·.severity = .error) then
    .ok (assemble [] [] capabilities.notes)
  else match plannedOperations request adapter with
    | .ok (operations, live) => .ok (assemble operations live capabilities.notes)
    | .error (.unsupported message) =>
      .ok (assemble (genericOperationsFromDesired request capabilities.provider) []
        (capabilities.notes ++ [message]))
    | .error error => .error error

end ProxboxApi.Ceph
