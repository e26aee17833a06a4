import Mathlib.Tactic.Tauto
import ProxboxApi.VmPayload

/-! The validated body field by field: what each field of the dump says depends only on the
field of the payload. -/

namespace ProxboxApi.VmQueue

variable (py : Python)

/-- The tags a payload value stands for. -/
def tagsOf (raw : Json) : List ℤ := sortedSet (((tagItems raw).getD []).filterMap (tagId py))

/-- The value a field of the dump has, for the value of the payload; `none` is left out. -/
def normalField (name : String) (payload : Json.Fields) : Option Json :=
  let raw := field name payload
  match name with
  | "name" => (nameField raw).map .str
  | "status" => some (.str (normalizeStatus py raw).text)
  | "vcpus" => (coerceOptionalVcpus py raw).map fun n => .int n.1
  | "memory" | "disk" => some (.int (coerceNullableVmInts py raw))
  | "tags" => some (.arr ((tagsOf py raw).map .int))
  | "custom_fields" => (customFieldsField payload).map .obj
  | "description" => (descriptionField raw).join.map .str
  | name => relationJson (relationField py name payload).join

/-- A field of the payload does not make the validation fail. -/
def FieldOk (name : String) (payload : Json.Fields) : Prop :=
  let raw := field name payload
  match name with
  | "name" => ∃ s, nameField raw = some s
  | "status" => ∃ s, Dict.get "status" payload = some s
  | "vcpus" | "memory" | "disk" => True
  | "tags" => ∃ items, tagItems raw = some items
  | "custom_fields" => ∃ fields, customFieldsField payload = some fields
  | "description" => ∃ d, descriptionField raw = some d
  | name => ∃ relation, relationField py name payload = some relation

theorem get_optionalField {name k : String} {value : Option Json} :
    Dict.get k (optionalField name value) = if name = k then value else none := by
  cases value <;> simp [optionalField, Dict.get]

theorem forall_bodyFields {P : String → Prop} : (∀ k ∈ bodyFields, P k) ↔
    P "name" ∧ P "status" ∧ P "cluster" ∧ P "device" ∧ P "site" ∧ P "virtual_machine_type" ∧
      P "role" ∧ P "vcpus" ∧ P "memory" ∧ P "disk" ∧ P "tags" ∧ P "custom_fields" ∧
      P "description" := by
  simp [bodyFields]

/-- What a successful validation says of the fields and of the dump. -/
theorem validate_some {payload : Json.Fields} {b : VmBody} (h : validate py payload = some b) :
    (∀ kv ∈ payload, kv.1 ∈ bodyFields) ∧ (∀ k ∈ bodyFields, FieldOk py k payload) ∧
      (∀ k ∈ bodyFields, Dict.get k b.dump = normalField py k payload) ∧
      b.tags = tagsOf py (field "tags" payload) ∧
      customFieldsField payload = some b.customFields := by
  unfold validate at h
  obtain ⟨_, hguard, h⟩ := Option.bind_eq_some_iff.mp h
  obtain ⟨name, hname, h⟩ := Option.bind_eq_some_iff.mp h
  obtain ⟨status, hstatus, h⟩ := Option.bind_eq_some_iff.mp h
  obtain ⟨cluster, hcluster, h⟩ := Option.bind_eq_some_iff.mp h
  obtain ⟨device, hdevice, h⟩ := Option.bind_eq_some_iff.mp h
  obtain ⟨site, hsite, h⟩ := Option.bind_eq_some_iff.mp h
  obtain ⟨vmType, hvmType, h⟩ := Option.bind_eq_some_iff.mp h
  obtain ⟨role, hrole, h⟩ := Option.bind_eq_some_iff.mp h
  obtain ⟨items, hitems, h⟩ := Option.bind_eq_some_iff.mp h
  obtain ⟨customFields, hcustom, h⟩ := Option.bind_eq_some_iff.mp h
  obtain ⟨description, hdescription, h⟩ := Option.bind_eq_some_iff.mp h
  obtain rfl := Option.some.inj h
  have hraw : field "status" payload = status := by simp [field, hstatus]
  refine ⟨?_, forall_bodyFields.mpr ?_, forall_bodyFields.mpr ?_, ?_, hcustom⟩
  · have hkeys : payload.all (fun kv => decide (kv.1 ∈ bodyFields)) = true := by
      by_contra hne
      simp [guard, hne] at hguard
    simpa using hkeys
  · exact ⟨⟨_, hname⟩, ⟨_, hstatus⟩, ⟨_, hcluster⟩, ⟨_, hdevice⟩, ⟨_, hsite⟩, ⟨_, hvmType⟩,
      ⟨_, hrole⟩, trivial, trivial, trivial, ⟨_, hitems⟩, ⟨_, hcustom⟩, ⟨_, hdescription⟩⟩
  · simp [VmBody.dump, Dict.get_append, get_optionalField, Dict.get, normalField, hname, hraw,
      hcluster, hdevice, hsite, hvmType, hrole, hcustom, hdescription, tagsOf, hitems]
  · simp [tagsOf, hitems]

/-- The validation succeeds when each field allows it. -/
theorem validate_of_fieldOk {payload : Json.Fields} (hkeys : ∀ kv ∈ payload, kv.1 ∈ bodyFields)
    (hok : ∀ k ∈ bodyFields, FieldOk py k payload) : ∃ b, validate py payload = some b := by
  obtain ⟨⟨_, hname⟩, ⟨_, hstatus⟩, ⟨_, hcluster⟩, ⟨_, hdevice⟩, ⟨_, hsite⟩, ⟨_, hvmType⟩,
    ⟨_, hrole⟩, -, -, -, ⟨_, hitems⟩, ⟨_, hcustom⟩, ⟨_, hdescription⟩⟩ := forall_bodyFields.mp hok
  have hguard : payload.all (fun kv => decide (kv.1 ∈ bodyFields)) = true := by simpa using hkeys
  unfold validate
  rw [hguard, hname, hstatus, hcluster, hdevice, hsite, hvmType, hrole, hitems, hcustom,
    hdescription]
  exact ⟨_, rfl⟩

theorem keys_dump (b : VmBody) : (Dict.keys b.dump).Sublist bodyFields := by
  have hopt := keys_optionalField
  have hsplit : bodyFields = ["name", "status"] ++ ["cluster"] ++ ["device"] ++ ["site"] ++
      ["virtual_machine_type"] ++ ["role"] ++ ["vcpus"] ++
      ["memory", "disk", "tags", "custom_fields"] ++ ["description"] := rfl
  rw [hsplit]
  simp only [VmBody.dump, Dict.keys, List.map_append, List.map_cons, List.map_nil]
  apply List.Sublist.append
  · apply List.Sublist.append _ (List.Sublist.refl _)
    exact ((((((List.Sublist.refl _).append (hopt _ _)).append (hopt _ _)).append
      (hopt _ _)).append (hopt _ _)).append (hopt _ _)).append (hopt _ _)
  · exact hopt _ _

theorem nodup_keys_dump (b : VmBody) : (Dict.keys b.dump).Nodup :=
  (keys_dump b).nodup (by decide)

/-- A field of a payload alone decides what is made of it. -/
theorem normalField_congr {k : String} (hk : k ∈ bodyFields) {payload payload' : Json.Fields}
    (h : Dict.get k payload = Dict.get k payload') :
    normalField py k payload = normalField py k payload' ∧
      (FieldOk py k payload ↔ FieldOk py k payload') := by
  have hfield : field k payload = field k payload' := by rw [field, field, h]
  simp only [bodyFields, List.mem_cons, List.not_mem_nil, or_false] at hk
  rcases hk with rfl | rfl | rfl | rfl | rfl | rfl | rfl | rfl | rfl | rfl | rfl | rfl | rfl <;>
    simp [normalField, FieldOk, relationField, customFieldsField, hfield, h]

theorem tagsOf_ints (ids : List ℤ) : tagsOf py (.arr (ids.map .int)) = sortedSet ids := by
  have hids : (ids.map Json.int).filterMap (tagId py) = ids := by
    rw [List.filterMap_map]
    exact (List.filterMap_congr fun n _ => rfl).trans List.filterMap_some
  rw [tagsOf, tagItems, Option.getD_some, hids]

theorem tagsOf_sorted (raw : Json) : (tagsOf py raw).Pairwise (· < ·) := sortedSet_sorted _

/-- The statuses survive what is done to the text of a status. -/
def KeepsStatus : Prop := ∀ s : VmStatus, py.lower s.text = s.text

theorem normalizeStatus_text (h : KeepsStatus py) (s : VmStatus) :
    normalizeStatus py (.str s.text) = s := by
  have hstrip : Text.strip s.text = s.text := by cases s <;> decide
  have htruthy : Python.truthy (.str s.text) = true := by cases s <;> decide
  have hback : VmStatus.ofText s.text = s := by cases s <;> decide
  unfold normalizeStatus fromProxmox
  rw [if_pos htruthy]
  dsimp only
  rw [if_pos htruthy]
  change VmStatus.ofText (py.lower (Text.strip s.text)) = s
  rw [hstrip, h, hback]

theorem relationField_int {k : String} {payload : Json.Fields} {n : ObjectId}
    (h : Dict.get k payload = some (.int n.1)) : relationField py k payload = some (some n) := by
  unfold relationField
  rw [field, h]
  simp [laxInt, n.2]

/-- A value of the dump is read back as it is. -/
theorem normalField_back (hstatus : KeepsStatus py) {k : String} (hk : k ∈ bodyFields)
    {payload payload' : Json.Fields} {v : Json} (hv : normalField py k payload = some v)
    (hget : Dict.get k payload' = some v) :
    normalField py k payload' = some v ∧ FieldOk py k payload' := by
  have hfield : field k payload' = v := by rw [field, hget]; rfl
  have hrelation : ∀ {k}, relationJson (relationField py k payload).join = some v →
      Dict.get k payload' = some v → relationJson (relationField py k payload').join = some v ∧
        ∃ relation, relationField py k payload' = some relation := by
    intro k hv hget
    cases hrel : (relationField py k payload).join with
    | none => simp [hrel, relationJson] at hv
    | some n =>
      rw [hrel] at hv
      obtain rfl := Option.some.inj hv
      have hback := relationField_int py hget
      simp [hback, relationJson]
  simp only [bodyFields, List.mem_cons, List.not_mem_nil, or_false] at hk
  rcases hk with rfl | rfl | rfl | rfl | rfl | rfl | rfl | rfl | rfl | rfl | rfl | rfl | rfl
  · obtain ⟨name, -, rfl⟩ := Option.map_eq_some_iff.mp hv
    simp [normalField, FieldOk, hfield, nameField]
  · obtain rfl := Option.some.inj hv
    simp [normalField, FieldOk, hfield, hget, normalizeStatus_text py hstatus]
  · exact hrelation hv hget
  · exact hrelation hv hget
  · exact hrelation hv hget
  · exact hrelation hv hget
  · exact hrelation hv hget
  · obtain ⟨n, -, rfl⟩ := Option.map_eq_some_iff.mp hv
    simp [normalField, FieldOk, hfield, coerceOptionalVcpus, Python.int, n.2]
  · obtain rfl := Option.some.inj hv
    simp [normalField, FieldOk, hfield, coerceNullableVmInts, Python.int]
  · obtain rfl := Option.some.inj hv
    simp [normalField, FieldOk, hfield, coerceNullableVmInts, Python.int]
  · obtain rfl := Option.some.inj hv
    simp [normalField, FieldOk, hfield, tagsOf_ints, sortedSet_of_sorted (tagsOf_sorted py _),
      tagItems]
  · obtain ⟨fields, -, rfl⟩ := Option.map_eq_some_iff.mp hv
    simp [normalField, FieldOk, customFieldsField, hget]
  · obtain ⟨description, -, rfl⟩ := Option.map_eq_some_iff.mp hv
    simp [normalField, FieldOk, hfield, descriptionField]

theorem keys_normalizeCurrent {r : Record} {supports : Bool} :
    ∀ kv ∈ normalizeCurrentVmPayload r supports, kv.1 ∈ bodyFields := by
  intro kv hkv
  rcases List.mem_append.mp hkv with hkv | hkv
  · obtain ⟨name, hname, rfl⟩ := List.mem_map.mp hkv
    revert hname
    simp only [bodyFields, List.mem_cons, List.not_mem_nil, or_false]
    tauto
  · cases supports with
    | false => simp at hkv
    | true =>
      obtain rfl := List.mem_singleton.mp hkv
      simp [bodyFields]

/-- The payload of a record has the fields of the record. -/
theorem get_normalizeCurrent {k : String} (hk : k ∈ bodyFields) (r : Record) (supports : Bool) :
    Dict.get k (normalizeCurrentVmPayload r supports) =
      if supports = false ∧ k = "virtual_machine_type" then none else some (field k r) := by
  simp only [bodyFields, List.mem_cons, List.not_mem_nil, or_false] at hk
  rcases hk with rfl | rfl | rfl | rfl | rfl | rfl | rfl | rfl | rfl | rfl | rfl | rfl | rfl <;>
    cases supports <;> simp [normalizeCurrentVmPayload, Dict.get]

end ProxboxApi.VmQueue
