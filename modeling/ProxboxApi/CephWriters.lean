import ProxboxApi.CephPlan

/-! The writers of the Ceph providers: the call to the Dashboard or to Proxmox that an operation
of a plan becomes, and the object that the call names. -/

namespace ProxboxApi.Ceph

abbrev Payload := List (String × Value)

/-- `bool` of a Python value. -/
def Value.truthy : Value → Bool
  | .leaf (.other _ _) => true
  | .leaf l => Python.truthy l.jsonable
  | .seq items => !items.isEmpty
  | .dict entries => !entries.isEmpty
  | .model _ => true

variable (py : Python)

/-- `str` of a Python value. -/
def Value.text (v : Value) : String := py.str (jsonable v)

def textual (s : String) : Value := .leaf (.str s)

/-- `operation.after_summary`, a dictionary. -/
def ProviderOperation.summary (operation : ProviderOperation) : Payload :=
  match operation.afterSummary with
  | .dict entries => entries
  | _ => []

/-- The entries of a dictionary that are not control keys and not `None`. -/
def forwarded (controlKeys : List String) (summary : Payload) : Payload :=
  summary.filter fun kv => !controlKeys.contains kv.1 && !kv.2.isNone

/-- The true value of `payload.get(key)`. -/
def given (payload : Payload) (key : String) : Option Value :=
  (Dict.get key payload).filter Value.truthy

/-- The true value of `payload.get(key) or payload.get(other)`. -/
def either (payload : Payload) (key other : String) : Option Value :=
  (given payload key).or (given payload other)

/-- `operation_id`, `result`, `target_ref`, `action` and `kind` of a result. -/
def resultFields (operation : ProviderOperation) (result : String) : Json.Fields :=
  [("operation_id", match operation.id with
    | some i => .str i
    | none => .null),
   ("result", .str result), ("target_ref", .str operation.targetRef),
   ("action", .str operation.action), ("kind", .str operation.kind)]

/-- `op_key`. -/
def opKey (operation : ProviderOperation) : String :=
  if operation.action = "noop" then "noop" else operation.kind ++ ":" ++ operation.action

/-- `f"{kind}:{action}.{suffix}"`. -/
def gap (writer : String) (operation : ProviderOperation) (detail : Option String) :
    AdapterError :=
  .unsupported (writer ++ " write adapter does not support " ++ operation.kind ++ ":" ++
    operation.action ++ "." ++ match detail with
      | some d => " " ++ d
      | none => "")

/-- What a writer did: the calls it issued and what it returned or raised. -/
structure Written (κ : Type) where
  calls : List κ
  answer : Except AdapterError Json.Fields

/-- An object of the cluster that a call names. -/
inductive Object where
  | pool (name : String)
  | image (spec : String)
  | snapshot (image : String) (name : Value)
  | daemon (kind id : String)
  | flag (name : String)

/-- The image and the snapshot of `_split_rbd_snapshot_ref`: what stands before the last `@` and
after it. -/
def snapshotRef (ref : String) : String × Option String :=
  let after := ref.toList.reverse.takeWhile (· ≠ '@')
  match ref.toList.reverse.dropWhile (· ≠ '@') with
  | [] => (ref, none)
  | _ :: before =>
    (String.ofList before.reverse,
      if after = [] then none else some (String.ofList after.reverse))

namespace Dashboard

/-- `WRITE_OPERATION_KINDS`. -/
def writeOperationKinds : List (String × Bool) :=
  ["pool:create", "pool:update", "pool:delete", "rbd_image:create", "rbd_image:update",
    "rbd_image:delete", "rbd_image:trash", "rbd_snapshot:create", "rbd_snapshot:delete",
    "noop"].map (·, true) ++
  ["rgw_bucket:create", "rgw_bucket:delete", "rgw_user:create", "rgw_user:delete",
    "crush_rule:create", "crush_rule:update", "crush_rule:delete"].map (·, false)

def controlKeys : List String := ["node", "confirm_destroy", "confirm_destructive"]

inductive Call where
  | poolCreate (payload : Payload)
  | poolEdit (pool : String) (payload : Payload)
  | poolDelete (pool : String) (confirmDestroy : Bool)
  | rbdCreate (payload : Payload)
  | rbdEdit (spec : String) (payload : Payload)
  | rbdDelete (spec : String) (confirmDestroy : Bool)
  | rbdMoveTrash (spec : String) (confirmDestroy : Bool)
  | rbdSnapshotCreate (spec : String) (snap : Value)
  | rbdSnapshotDelete (spec : String) (snap : Value) (confirmDestroy : Bool)

/-- The object that an update, a deletion or a move to the trash names. -/
def Call.object : Call → Option Object
  | .poolEdit pool _ | .poolDelete pool _ => some (.pool pool)
  | .rbdEdit spec _ | .rbdDelete spec _ | .rbdMoveTrash spec _ => some (.image spec)
  | .rbdSnapshotDelete spec snap _ => some (.snapshot spec snap)
  | .poolCreate _ | .rbdCreate _ | .rbdSnapshotCreate _ _ => none

/-- `_payload`. -/
def payload (operation : ProviderOperation) : Payload :=
  forwarded controlKeys operation.summary

/-- `pool/image` or `pool/namespace/image`, of the keys of the payload. -/
def spelledImage (payload : Payload) : Option String :=
  match either payload "pool_name" "pool", either payload "name" "image" with
  | some pool, some name =>
    some ("/".intercalate ([pool.text py] ++ ((given payload "namespace").map (·.text py)).toList ++
      [name.text py]))
  | _, _ => none

/-- `_image_spec`. -/
def imageSpec (operation : ProviderOperation) (payload : Payload) : String :=
  (spelledImage py payload).getD operation.targetRef

/-- `payload.get("snapshot_name") or payload.get("name")`. -/
def spelledSnapshot (payload : Payload) : Option Value := either payload "snapshot_name" "name"

/-- What a pool is created with: the payload, or the name alone. -/
def newPool (target : String) (payload : Payload) : Payload :=
  if payload = [] then [("pool_name", textual target)] else payload

/-- `_dispatch`. -/
def dispatch (operation : ProviderOperation) (payload : Payload) (confirm : Bool) :
    Except AdapterError Call :=
  let target := operation.targetRef
  let unsupported := gap "Ceph Dashboard" operation none
  if operation.kind = "pool" then
    if operation.action = "create" then
      .ok (.poolCreate (newPool target payload))
    else if operation.action = "update" then .ok (.poolEdit target payload)
    else if operation.action = "delete" then .ok (.poolDelete target confirm)
    else .error unsupported
  else if operation.kind = "rbd_image" then
    let spec := imageSpec py operation payload
    if operation.action = "create" then .ok (.rbdCreate payload)
    else if operation.action = "update" then .ok (.rbdEdit spec payload)
    else if operation.action = "delete" then .ok (.rbdDelete spec confirm)
    else if operation.action = "trash" then .ok (.rbdMoveTrash spec confirm)
    else .error unsupported
  else if operation.kind = "rbd_snapshot" then
    let spec := imageSpec py operation payload
    match spelledSnapshot payload with
    | none =>
      .error (gap "Ceph Dashboard" operation (some "snapshot requires payload 'snapshot_name'."))
    | some snap =>
      if operation.action = "create" then .ok (.rbdSnapshotCreate spec snap)
      else if operation.action = "delete" then .ok (.rbdSnapshotDelete spec snap confirm)
      else .error unsupported
  else .error unsupported

/-- `_result`. -/
def result (operation : ProviderOperation) (raw : Json) (result : String) : Json.Fields :=
  let task := match raw with
    | .obj fields => ["name", "task", "metadata"].findSome? fun key =>
        (Dict.get key fields).filter Python.truthy
    | _ => none
  resultFields operation result ++ match task with
    | some (.str task) => [("provider_task_ref", .str task)]
    | _ => []

end Dashboard

namespace Proxmox

/-- `WRITE_OPERATION_KINDS`. -/
def writeOperationKinds : List (String × Bool) :=
  ["pool:create", "pool:update", "pool:delete", "flag:create", "flag:update", "flag:delete",
    "osd:create", "osd:delete", "osd:update", "mon:create", "mon:delete", "mgr:create",
    "mgr:delete", "mds:create", "mds:delete", "filesystem:create", "noop"].map (·, true) ++
  ["filesystem:update", "filesystem:delete", "crush_rule:create", "crush_rule:update",
    "crush_rule:delete"].map (·, false)

def controlKeys : List String :=
  ["node", "name", "target_ref", "confirm_destroy", "confirm_destructive"]

/-- The methods of `CephWrite` that take keywords of the payload. -/
inductive Method where
  | poolCreate
  | poolSet
  | poolDelete
  | osdCreate
  | osdDelete
  | monCreate
  | mdsCreate
  | cephfsCreate
  deriving DecidableEq

inductive Call where
  | poolCreate (node name : String) (keywords : Payload)
  | poolSet (node name : String) (keywords : Payload)
  | poolDelete (node name : String) (confirmDestroy : Bool) (keywords : Payload)
  | flagSet (flag : String)
  | flagUnset (flag : String)
  | osdCreate (node : String) (dev : Value) (keywords : Payload)
  | osdDelete (node osd : String) (confirmDestroy : Bool) (keywords : Payload)
  | osdIn (node osd : String)
  | osdOut (node osd : String)
  | monCreate (node mon : String) (keywords : Payload)
  | monDelete (node mon : String) (confirmDestroy : Bool)
  | mgrCreate (node mgr : String)
  | mgrDelete (node mgr : String) (confirmDestroy : Bool)
  | mdsCreate (node mds : String) (keywords : Payload)
  | mdsDelete (node mds : String) (confirmDestroy : Bool)
  | cephfsCreate (node name : String) (keywords : Payload)

/-- The object that an update or a deletion names; a flag is set the same way by a creation. -/
def Call.object : Call → Option Object
  | .poolSet _ name _ | .poolDelete _ name _ _ => some (.pool name)
  | .flagSet flag | .flagUnset flag => some (.flag flag)
  | .osdDelete _ osd _ _ | .osdIn _ osd | .osdOut _ osd => some (.daemon "osd" osd)
  | .monDelete _ mon _ => some (.daemon "mon" mon)
  | .mgrDelete _ mgr _ => some (.daemon "mgr" mgr)
  | .mdsDelete _ mds _ => some (.daemon "mds" mds)
  | .poolCreate _ _ _ | .osdCreate _ _ _ | .monCreate _ _ _ | .mgrCreate _ _ | .mdsCreate _ _ _
  | .cephfsCreate _ _ _ => none

/-- What the writer sees of the SDK: the keywords that a method accepts (`none` if it accepts
any), the error of a call whose arguments do not bind, and the answer of a call. -/
structure Sdk where
  accepted : Method → Option (List String)
  unbound : Call → Option AdapterError
  answer : Call → Except AdapterError (Option Json)

/-- `_params`. -/
def params (summary : Payload) : Payload := forwarded controlKeys summary

/-- `_filtered`. -/
def filtered (sdk : Sdk) (method : Method) (payload : Payload) : Payload :=
  match sdk.accepted method with
  | none => payload
  | some accepted => payload.filter fun kv => accepted.contains kv.1

/-- `_dispatch`. -/
def dispatch (sdk : Sdk) (operation : ProviderOperation) (node target : String)
    (payload : Payload) (confirm : Bool) : Except AdapterError Call :=
  let unsupported := gap "Proxmox Ceph" operation none
  let action := operation.action
  if operation.kind = "pool" then
    if action = "create" then .ok (.poolCreate node target (filtered sdk .poolCreate payload))
    else if action = "update" then .ok (.poolSet node target (filtered sdk .poolSet payload))
    else if action = "delete" then
      .ok (.poolDelete node target confirm (filtered sdk .poolDelete payload))
    else .error unsupported
  else if operation.kind = "flag" then
    if action = "create" ∨ action = "update" then .ok (.flagSet target)
    else if action = "delete" then .ok (.flagUnset target)
    else .error unsupported
  else if operation.kind = "osd" then
    if action = "create" then
      match given payload "dev" with
      | none => .error (gap "Proxmox Ceph" operation
          (some "osd create requires payload 'dev' (device path)."))
      | some dev =>
        .ok (.osdCreate node dev (filtered sdk .osdCreate (Dict.erase "dev" payload)))
    else if action = "delete" then
      .ok (.osdDelete node target confirm (filtered sdk .osdDelete payload))
    else if action = "update" then
      match Dict.get "in" payload with
      | some (.leaf (.bool true)) => .ok (.osdIn node target)
      | some (.leaf (.bool false)) => .ok (.osdOut node target)
      | _ => .error (gap "Proxmox Ceph" operation
          (some "osd update requires payload \x7b'in': true|false\x7d."))
    else .error unsupported
  else if operation.kind = "mon" then
    if action = "create" then .ok (.monCreate node target (filtered sdk .monCreate payload))
    else if action = "delete" then .ok (.monDelete node target confirm)
    else .error unsupported
  else if operation.kind = "mgr" then
    if action = "create" then .ok (.mgrCreate node target)
    else if action = "delete" then .ok (.mgrDelete node target confirm)
    else .error unsupported
  else if operation.kind = "mds" then
    if action = "create" then .ok (.mdsCreate node target (filtered sdk .mdsCreate payload))
    else if action = "delete" then .ok (.mdsDelete node target confirm)
    else .error unsupported
  else if operation.kind = "filesystem" then
    if action = "create" then
      .ok (.cephfsCreate node target (filtered sdk .cephfsCreate payload))
    else .error unsupported
  else .error unsupported

/-- `_result`. -/
def result (operation : ProviderOperation) (upid : Option Json) (result : String) :
    Json.Fields :=
  resultFields operation result ++ match upid with
    | some upid => [("upid", .str (py.str upid))]
    | none => []

end Proxmox

/-- The actions that change or remove an object that is there. -/
def changes (action : String) : Prop := action = "update" ∨ action = "delete" ∨ action = "trash"

/-- The keys under which a payload names the object of a kind. The pool and the name of an RBD
payload are parts of an image. -/
def namingKeys (kind : String) : List String :=
  if kind = "pool" then ["pool_name", "name", "target_ref"]
  else if kind = "rbd_image" ∨ kind = "rbd_snapshot" then ["target_ref"]
  else ["name", "target_ref"]

/-- The payload names another object than `target_ref`: by a key that names the object, by the
image that it spells, or by the image or the snapshot of a snapshot. -/
def NamesAnother (operation : ProviderOperation) : Prop :=
  let entries := Dashboard.payload operation
  (∃ key ∈ namingKeys operation.kind, ∃ named ∈ given operation.summary key,
    named.text py ≠ operation.targetRef) ∨
  (operation.kind = "rbd_image" ∧
    ∃ spec ∈ Dashboard.spelledImage py entries, spec ≠ operation.targetRef) ∨
  (operation.kind = "rbd_snapshot" ∧
    ((∃ spec ∈ Dashboard.spelledImage py entries, spec ≠ (snapshotRef operation.targetRef).1) ∨
      ∃ snap ∈ Dashboard.spelledSnapshot entries, ∃ s ∈ (snapshotRef operation.targetRef).2,
        snap ≠ textual s))

/-- The image that a payload spells is the target, and of a snapshot the image before the `@` of
the target, with the snapshot after it. -/
structure Spells (operation : ProviderOperation) : Prop where
  image : operation.kind = "rbd_image" → changes operation.action →
    ∀ spec ∈ Dashboard.spelledImage py (Dashboard.payload operation), spec = operation.targetRef
  snapshot : operation.kind = "rbd_snapshot" → operation.action = "delete" →
    ∀ snap ∈ Dashboard.spelledSnapshot (Dashboard.payload operation),
      Dashboard.imageSpec py operation (Dashboard.payload operation) =
        (snapshotRef operation.targetRef).1 ∧
      ∀ s ∈ (snapshotRef operation.targetRef).2, snap = textual s

/-- The changes that the Dashboard writer knows; a snapshot needs a name. -/
structure Dashboard.CarriesOut (operation : ProviderOperation) : Prop where
  known : (operation.kind, operation.action) ∈ [("pool", "update"), ("pool", "delete"),
    ("rbd_image", "update"), ("rbd_image", "delete"), ("rbd_image", "trash"),
    ("rbd_snapshot", "delete")]
  snapshot : operation.kind = "rbd_snapshot" →
    ∃ snap, Dashboard.spelledSnapshot (Dashboard.payload operation) = some snap

/-- The changes that the Proxmox writer knows; the update of an OSD needs `in`. -/
structure Proxmox.CarriesOut (operation : ProviderOperation) : Prop where
  known : (operation.kind, operation.action) ∈ [("pool", "update"), ("pool", "delete"),
    ("flag", "update"), ("flag", "delete"), ("osd", "update"), ("osd", "delete"),
    ("mon", "delete"), ("mgr", "delete"), ("mds", "delete")]
  osd : operation.kind = "osd" → operation.action = "update" →
    ∃ b, Dict.get "in" (Proxmox.params operation.summary) = some (.leaf (.bool b))

/-- The payload of a change that one of the writers carries out names nothing but the target. -/
structure Agrees (operation : ProviderOperation) : Prop where
  spells : Spells py operation
  dashboard : Dashboard.CarriesOut operation → ¬ NamesAnother py operation
  proxmox : Proxmox.CarriesOut operation → ¬ NamesAnother py operation

/-- An operation of a list whose entries are all supported. -/
theorem supported_of_mem {kinds : List (String × Bool)} {known : List (String × String)}
    {operation : ProviderOperation}
    (hknown : ∀ p ∈ known, Dict.get (p.1 ++ ":" ++ p.2) kinds ≠ some false ∧ p.2 ≠ "noop")
    (h : (operation.kind, operation.action) ∈ known) :
    Dict.get (opKey operation) kinds ≠ some false ∧ operation.action ≠ "noop" := by
  rw [opKey, if_neg (hknown _ h).2]
  exact hknown _ h

namespace Proxmox

variable {sdk : Sdk} {operation : ProviderOperation} {node : String} {confirm : Bool}

theorem CarriesOut.changes (h : CarriesOut operation) : changes operation.action := by
  have hknown := h.known
  unfold Ceph.changes
  generalize operation.kind = kind at hknown
  generalize operation.action = action at hknown ⊢
  simp only [List.mem_cons, Prod.mk.injEq, List.not_mem_nil, or_false] at hknown
  tauto

/-- A change that is carried out is dispatched. -/
theorem CarriesOut.dispatch (h : CarriesOut operation) (sdk : Sdk) (node : String)
    (confirm : Bool) :
    ∃ call, dispatch sdk operation node operation.targetRef (params operation.summary) confirm =
      .ok call := by
  have hknown := h.known
  simp only [List.mem_cons, Prod.mk.injEq, List.not_mem_nil, or_false] at hknown
  unfold Proxmox.dispatch
  rcases hknown with ⟨hkind, haction⟩ | ⟨hkind, haction⟩ | ⟨hkind, haction⟩ | ⟨hkind, haction⟩ |
    ⟨hkind, haction⟩ | ⟨hkind, haction⟩ | ⟨hkind, haction⟩ | ⟨hkind, haction⟩ | ⟨hkind, haction⟩
  case inr.inr.inr.inr.inl =>
    obtain ⟨b, hb⟩ := h.osd hkind haction
    cases b <;> simp [hkind, haction, hb]
  all_goals simp [hkind, haction]

theorem CarriesOut.supported (h : CarriesOut operation) :
    Dict.get (opKey operation) writeOperationKinds ≠ some false ∧ operation.action ≠ "noop" :=
  supported_of_mem (by decide +kernel) h.known

end Proxmox

namespace Dashboard

variable {py} {client : Call → Except AdapterError Json} {operation : ProviderOperation}
  {confirm : Bool}

variable (py confirm) in
/-- A change of a pool is dispatched. -/
theorem dispatch_pool (hkind : operation.kind = "pool")
    (haction : operation.action = "update" ∨ operation.action = "delete") :
    ∃ call, dispatch py operation (payload operation) confirm = .ok call := by
  unfold dispatch
  rcases haction with haction | haction <;> simp [hkind, haction]

variable (py confirm) in
theorem dispatch_image (hkind : operation.kind = "rbd_image") (haction : changes operation.action) :
    ∃ call, dispatch py operation (payload operation) confirm = .ok call ∧
      call.object = some (.image (imageSpec py operation (payload operation))) := by
  unfold dispatch
  rcases haction with haction | haction | haction <;>
    simp [hkind, haction, Call.object]

variable (py confirm) in
theorem dispatch_snapshot {snap : Value} (hkind : operation.kind = "rbd_snapshot")
    (haction : operation.action = "delete")
    (hsnap : spelledSnapshot (payload operation) = some snap) :
    ∃ call, dispatch py operation (payload operation) confirm = .ok call ∧
      call.object = some (.snapshot (imageSpec py operation (payload operation)) snap) := by
  unfold dispatch
  simp [hkind, haction, hsnap, Call.object]

variable (py confirm) in
/-- A change that is carried out is dispatched. -/
theorem CarriesOut.dispatch (h : CarriesOut operation) : changes operation.action ∧
    ∃ call, dispatch py operation (payload operation) confirm = .ok call := by
  have hknown := h.known
  simp only [List.mem_cons, Prod.mk.injEq, List.not_mem_nil, or_false] at hknown
  rcases hknown with ⟨hkind, hact⟩ | ⟨hkind, hact⟩ | ⟨hkind, hact⟩ | ⟨hkind, hact⟩ |
    ⟨hkind, hact⟩ | ⟨hkind, hact⟩
  · exact ⟨.inl hact, dispatch_pool py confirm hkind (.inl hact)⟩
  · exact ⟨.inr (.inl hact), dispatch_pool py confirm hkind (.inr hact)⟩
  · have hchanges : changes operation.action := .inl hact
    obtain ⟨call, hcall, -⟩ := dispatch_image py confirm hkind hchanges
    exact ⟨hchanges, call, hcall⟩
  · have hchanges : changes operation.action := .inr (.inl hact)
    obtain ⟨call, hcall, -⟩ := dispatch_image py confirm hkind hchanges
    exact ⟨hchanges, call, hcall⟩
  · have hchanges : changes operation.action := .inr (.inr hact)
    obtain ⟨call, hcall, -⟩ := dispatch_image py confirm hkind hchanges
    exact ⟨hchanges, call, hcall⟩
  · obtain ⟨snap, hsnap⟩ := h.snapshot hkind
    obtain ⟨call, hcall, -⟩ := dispatch_snapshot py confirm hkind hact hsnap
    exact ⟨.inr (.inl hact), call, hcall⟩

end Dashboard

end ProxboxApi.Ceph
