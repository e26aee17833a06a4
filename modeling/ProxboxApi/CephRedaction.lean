import ProxboxApi.Python

/-! What the Ceph engine leaves of a value in its run records: the redaction of the fields that
bear secrets. -/

namespace ProxboxApi.Ceph

/-- A value without parts: a JSON scalar, or any other object by its `str` and by what a
Pydantic dump makes of it. -/
inductive Leaf where
  | null
  | bool (b : Bool)
  | int (n : ℤ)
  | float (q : ℚ)
  | str (s : String)
  | other (text : String) (dumped : Json)

/-- A Python value; the keys of a dictionary are given by their `str`. -/
inductive Value where
  | leaf (l : Leaf)
  | seq (items : List Value)
  | dict (entries : List (String × Value))
  | model (fields : List (String × Value))

def Leaf.jsonable : Leaf → Json
  | .null => .null
  | .bool b => .bool b
  | .int n => .int n
  | .float q => .float q
  | .str s => .str s
  | .other text _ => .str text

def Leaf.dump : Leaf → Json
  | .other _ dumped => dumped
  | l => l.jsonable

def Value.isNone : Value → Bool
  | .leaf .null => true
  | _ => false

mutual

/-- `model_dump(mode="json", exclude_none=True)` of a part of a model. -/
def dump : Value → Json
  | .leaf l => l.dump
  | .seq items => .arr (dumpItems items)
  | .dict entries => .obj (Dict.update [] (dumpEntries entries))
  | .model fields => .obj (dumpFields fields)

def dumpItems : List Value → List Json
  | [] => []
  | v :: vs => dump v :: dumpItems vs

def dumpEntries : List (String × Value) → Json.Fields
  | [] => []
  | (k, v) :: es => (k, dump v) :: dumpEntries es

/-- The fields of a model that are not `None`. -/
def dumpFields : List (String × Value) → Json.Fields
  | [] => []
  | (k, v) :: es => if v.isNone then dumpFields es else (k, dump v) :: dumpFields es

end

mutual

/-- `_jsonable`. -/
def jsonable : Value → Json
  | .leaf l => l.jsonable
  | .seq items => .arr (jsonableItems items)
  | .dict entries => .obj (Dict.update [] (jsonableEntries entries))
  | .model fields => dump (.model fields)

def jsonableItems : List Value → List Json
  | [] => []
  | v :: vs => jsonable v :: jsonableItems vs

def jsonableEntries : List (String × Value) → Json.Fields
  | [] => []
  | (k, v) :: es => (k, jsonable v) :: jsonableEntries es

end

mutual

/-- `_jsonable` of JSON data. -/
def jsonableJson : Json → Json
  | .arr items => .arr (jsonableJsonItems items)
  | .obj fields => .obj (Dict.update [] (jsonableJsonFields fields))
  | j => j

def jsonableJsonItems : List Json → List Json
  | [] => []
  | j :: js => jsonableJson j :: jsonableJsonItems js

def jsonableJsonFields : Json.Fields → Json.Fields
  | [] => []
  | (k, j) :: fs => (k, jsonableJson j) :: jsonableJsonFields fs

end

variable (py : Python)

def secretKeyFragments : List String :=
  ["password", "secret", "token", "private_key", "access_key"]

/-- A key that bears a secret. -/
def isSecretKey (key : String) : Bool :=
  secretKeyFragments.any fun fragment =>
    (py.lower key).toList.tails.any fun tail => fragment.toList.isPrefixOf tail

/-- The three ways of `redact_secrets` with the value under a key. -/
def redactUnder (key : String) (reference redacted : Json) : Json :=
  if py.lower key = "credential_ref" then reference
  else if isSecretKey py key then .str "[REDACTED]"
  else redacted

mutual

/-- `redact_secrets` of JSON data. -/
def redactJson : Json → Json
  | .arr items => .arr (redactJsonItems items)
  | .obj fields => .obj (Dict.update [] (redactJsonFields fields))
  | j => j

def redactJsonItems : List Json → List Json
  | [] => []
  | j :: js => redactJson j :: redactJsonItems js

def redactJsonFields : Json.Fields → Json.Fields
  | [] => []
  | (k, j) :: fs =>
    (k, redactUnder py k (jsonableJson j) (redactJson j)) :: redactJsonFields fs

end

mutual

/-- `redact_secrets`. -/
def redactSecrets : Value → Json
  | .leaf l => l.jsonable
  | .seq items => .arr (redactItems items)
  | .dict entries => .obj (Dict.update [] (redactEntries entries))
  | .model fields => redactJson py (dump (.model fields))

def redactItems : List Value → List Json
  | [] => []
  | v :: vs => redactSecrets v :: redactItems vs

def redactEntries : List (String × Value) → Json.Fields
  | [] => []
  | (k, v) :: es => (k, redactUnder py k (jsonable v) (redactSecrets v)) :: redactEntries es

end

mutual

/-- JSON data as a value. -/
def ofJson : Json → Value
  | .null => .leaf .null
  | .bool b => .leaf (.bool b)
  | .int n => .leaf (.int n)
  | .float q => .leaf (.float q)
  | .str s => .leaf (.str s)
  | .arr items => .seq (ofJsonItems items)
  | .obj fields => .dict (ofJsonFields fields)

def ofJsonItems : List Json → List Value
  | [] => []
  | j :: js => ofJson j :: ofJsonItems js

def ofJsonFields : Json.Fields → List (String × Value)
  | [] => []
  | (k, j) :: fs => (k, ofJson j) :: ofJsonFields fs

end

mutual

theorem jsonable_ofJson : ∀ j, jsonable (ofJson j) = jsonableJson j
  | .null | .bool _ | .int _ | .float _ | .str _ => rfl
  | .arr items => by rw [ofJson, jsonable, jsonableJson, jsonable_ofJsonItems]
  | .obj fields => by rw [ofJson, jsonable, jsonableJson, jsonable_ofJsonFields]

theorem jsonable_ofJsonItems : ∀ js, jsonableItems (ofJsonItems js) = jsonableJsonItems js
  | [] => rfl
  | j :: js => by
    rw [ofJsonItems, jsonableItems, jsonableJsonItems, jsonable_ofJson, jsonable_ofJsonItems]

theorem jsonable_ofJsonFields : ∀ fs, jsonableEntries (ofJsonFields fs) = jsonableJsonFields fs
  | [] => rfl
  | (k, j) :: fs => by
    rw [ofJsonFields, jsonableEntries, jsonableJsonFields, jsonable_ofJson, jsonable_ofJsonFields]

end

mutual

/-- On JSON data, such as the dump of a model, `redact_secrets` is `redactJson`. -/
theorem redactSecrets_ofJson : ∀ j, redactSecrets py (ofJson j) = redactJson py j
  | .null | .bool _ | .int _ | .float _ | .str _ => rfl
  | .arr items => by rw [ofJson, redactSecrets, redactJson, redactItems_ofJson]
  | .obj fields => by rw [ofJson, redactSecrets, redactJson, redactEntries_ofJson]

theorem redactItems_ofJson : ∀ js, redactItems py (ofJsonItems js) = redactJsonItems py js
  | [] => rfl
  | j :: js => by
    rw [ofJsonItems, redactItems, redactJsonItems, redactSecrets_ofJson, redactItems_ofJson]

theorem redactEntries_ofJson : ∀ fs, redactEntries py (ofJsonFields fs) = redactJsonFields py fs
  | [] => rfl
  | (k, j) :: fs => by
    rw [ofJsonFields, redactEntries, redactJsonFields, jsonable_ofJson, redactSecrets_ofJson,
      redactEntries_ofJson]

end

mutual

/-- Two values that are equal but for what is stored under keys that bear secrets. The names of
a model's fields are distinct. -/
def SameButSecrets : Value → Value → Prop
  | .leaf l, .leaf m => l = m
  | .seq xs, .seq ys => SameItems xs ys
  | .dict xs, .dict ys => SameEntries xs ys
  | .model xs, .model ys => (Dict.keys xs).Nodup ∧ SameEntries xs ys
  | _, _ => False

def SameItems : List Value → List Value → Prop
  | [], [] => True
  | x :: xs, y :: ys => SameButSecrets x y ∧ SameItems xs ys
  | _, _ => False

def SameEntries : List (String × Value) → List (String × Value) → Prop
  | [], [] => True
  | (k, x) :: xs, (k', y) :: ys =>
    k = k' ∧ (isSecretKey py k ∨ SameButSecrets x y) ∧ SameEntries xs ys
  | _, _ => False

end

/-- What is written under a `credential_ref` key. -/
def reference (inModel : Bool) (v : Value) : Json :=
  if inModel then jsonableJson (dump v) else jsonable v

/-- The redaction, of a value or of its dump. -/
def redaction (inModel : Bool) (v : Value) : Json :=
  if inModel then redactJson py (dump v) else redactSecrets py v

mutual

/-- The secrets in which two values differ leave no trace: none lies under a `credential_ref`
key, and in a model none is `None` on one side only. A key that comes again is overwritten. -/
def Untraced : Bool → Value → Value → Prop
  | _, .leaf _, .leaf _ => True
  | inModel, .seq xs, .seq ys => UntracedItems inModel xs ys
  | inModel, .dict xs, .dict ys => UntracedEntries inModel xs ys
  | _, .model xs, .model ys => UntracedFields xs ys
  | _, _, _ => False
termination_by structural _ v => v

def UntracedItems : Bool → List Value → List Value → Prop
  | _, [], [] => True
  | inModel, x :: xs, y :: ys => Untraced inModel x y ∧ UntracedItems inModel xs ys
  | _, _, _ => False
termination_by structural _ xs => xs

def UntracedEntries : Bool → List (String × Value) → List (String × Value) → Prop
  | _, [], [] => True
  | inModel, (k, x) :: xs, (_, y) :: ys =>
    (k ∈ Dict.keys xs ∨ if py.lower k = "credential_ref" then
      reference inModel x = reference inModel y else isSecretKey py k ∨ Untraced inModel x y) ∧
    UntracedEntries inModel xs ys
  | _, _, _ => False
termination_by structural _ xs => xs

def UntracedFields : List (String × Value) → List (String × Value) → Prop
  | [], [] => True
  | (k, x) :: xs, (_, y) :: ys =>
    x.isNone = y.isNone ∧ (x.isNone ∨ if py.lower k = "credential_ref" then
      reference true x = reference true y else isSecretKey py k ∨ Untraced true x y) ∧
    UntracedFields xs ys
  | _, _ => False
termination_by structural xs => xs

end

theorem redactUnder_eq_iff {k : String} {r r' d d' : Json} :
    redactUnder py k r d = redactUnder py k r' d' ↔
      if py.lower k = "credential_ref" then r = r' else isSecretKey py k ∨ d = d' := by
  unfold redactUnder
  by_cases href : py.lower k = "credential_ref"
  · simp [href]
  · by_cases hsecret : isSecretKey py k
    · simp [href, hsecret]
    · simp [href, hsecret]

theorem dumpItems_eq (vs : List Value) : dumpItems vs = vs.map dump := by
  induction vs with
  | nil => rfl
  | cons v vs ih => simp [dumpItems, ih]

theorem redactItems_eq (vs : List Value) : redactItems py vs = vs.map (redactSecrets py) := by
  induction vs with
  | nil => rfl
  | cons v vs ih => simp [redactItems, ih]

theorem redactJsonItems_eq (js : List Json) : redactJsonItems py js = js.map (redactJson py) := by
  induction js with
  | nil => rfl
  | cons j js ih => simp [redactJsonItems, ih]

theorem dumpEntries_eq (es : List (String × Value)) :
    dumpEntries es = es.map fun e => (e.1, dump e.2) := by
  induction es with
  | nil => rfl
  | cons e es ih => simp [dumpEntries, ih]

theorem dumpFields_eq (fs : List (String × Value)) :
    dumpFields fs = (fs.filter fun f => !f.2.isNone).map fun f => (f.1, dump f.2) := by
  induction fs with
  | nil => rfl
  | cons f fs ih =>
    obtain ⟨k, v⟩ := f
    by_cases hnone : v.isNone
    · simp [dumpFields, hnone, ih]
    · simp [dumpFields, hnone, ih]

theorem redactEntries_eq (es : List (String × Value)) : redactEntries py es =
    es.map fun e => (e.1, redactUnder py e.1 (jsonable e.2) (redactSecrets py e.2)) := by
  induction es with
  | nil => rfl
  | cons e es ih => simp [redactEntries, ih]

theorem redactJsonFields_eq (fs : Json.Fields) : redactJsonFields py fs =
    fs.map fun f => (f.1, redactUnder py f.1 (jsonableJson f.2) (redactJson py f.2)) := by
  induction fs with
  | nil => rfl
  | cons f fs ih => simp [redactJsonFields, ih]

/-- An entry of a redacted dictionary or model. -/
def redactedEntry (inModel : Bool) (e : String × Value) : String × Json :=
  (e.1, redactUnder py e.1 (reference inModel e.2) (redaction py inModel e.2))

theorem keys_redactedEntry (inModel : Bool) (es : List (String × Value)) :
    Dict.keys (es.map (redactedEntry py inModel)) = Dict.keys es := by
  simp [Dict.keys, redactedEntry]

theorem redaction_seq (inModel : Bool) (items : List Value) :
    redaction py inModel (.seq items) = .arr (items.map (redaction py inModel)) := by
  cases inModel with
  | false => simp [redaction, redactSecrets, redactItems_eq]
  | true => simp [redaction, dump, redactJson, redactJsonItems_eq, dumpItems_eq]

/-- The redaction of a dictionary goes entry by entry. -/
theorem redaction_dict (inModel : Bool) (es : List (String × Value)) :
    redaction py inModel (.dict es) =
      .obj (Dict.update [] (es.map (redactedEntry py inModel))) := by
  cases inModel with
  | false =>
    rw [redaction, if_neg Bool.false_ne_true, redactSecrets, redactEntries_eq]
    rfl
  | true =>
    have hmap := Dict.map_update
      (fun k j => redactUnder py k (jsonableJson j) (redactJson py j)) (d := [])
      (e := dumpEntries es)
    simp only [redaction, if_true, dump, redactJson, redactJsonFields_eq]
    rw [Dict.update_nil_of_nodup]
    · rw [hmap, dumpEntries_eq, List.map_map]
      rfl
    · rw [hmap]
      exact Dict.nodup_keys_update List.nodup_nil

/-- The redaction of a model goes field by field. -/
theorem redaction_model (inModel : Bool) {fs : List (String × Value)}
    (h : (Dict.keys fs).Nodup) : redaction py inModel (.model fs) =
      .obj ((fs.filter fun f => !f.2.isNone).map (redactedEntry py true)) := by
  have hdump : redaction py inModel (.model fs) = redactJson py (dump (.model fs)) := by
    cases inModel with
    | false => rw [redaction, if_neg Bool.false_ne_true, redactSecrets]
    | true => rw [redaction, if_pos rfl]
  rw [hdump, dump, redactJson, redactJsonFields_eq, dumpFields_eq]
  have hmap : ((fs.filter fun f => !f.2.isNone).map fun f => (f.1, dump f.2)).map
      (fun f => (f.1, redactUnder py f.1 (jsonableJson f.2) (redactJson py f.2))) =
      (fs.filter fun f => !f.2.isNone).map (redactedEntry py true) := by
    rw [List.map_map]
    rfl
  rw [hmap, Dict.update_nil_of_nodup]
  rw [keys_redactedEntry]
  exact (List.filter_sublist.map Prod.fst).nodup h

theorem keys_eq_of_same {xs ys : List (String × Value)} (h : SameEntries py xs ys) :
    Dict.keys xs = Dict.keys ys := by
  induction xs generalizing ys with
  | nil =>
    cases ys with
    | nil => rfl
    | cons y ys => exact h.elim
  | cons x xs ih =>
    cases ys with
    | nil => exact h.elim
    | cons y ys =>
      obtain ⟨hk, -, hrest⟩ := h
      simpa [Dict.keys, hk] using ih hrest

/-- The entries under a key agree unless the difference is written there. -/
theorem redactedEntry_eq_iff {inModel : Bool} {k : String} {x y : Value}
    (h : isSecretKey py k ∨
      (redaction py inModel x = redaction py inModel y ↔ Untraced py inModel x y)) :
    redactUnder py k (reference inModel x) (redaction py inModel x) =
        redactUnder py k (reference inModel y) (redaction py inModel y) ↔
      if py.lower k = "credential_ref" then reference inModel x = reference inModel y
      else isSecretKey py k ∨ Untraced py inModel x y := by
  rw [redactUnder_eq_iff]
  split
  · rfl
  · rcases h with hsecret | hvalue
    · simp [hsecret]
    · rw [hvalue]

theorem kept_ne_cons {k : String} (x : Value) (xs : List (String × Value))
    {ys : List (String × Value)} (hfresh : k ∉ Dict.keys ys) :
    (ys.filter fun f => !f.2.isNone).map (redactedEntry py true) ≠
      redactedEntry py true (k, x) ::
        (xs.filter fun f => !f.2.isNone).map (redactedEntry py true) := by
  intro h
  have hkeys := congrArg Dict.keys h
  rw [keys_redactedEntry] at hkeys
  have hmem : k ∈ Dict.keys (ys.filter fun f => !f.2.isNone) := by
    rw [hkeys]
    exact List.mem_cons_self
  exact hfresh ((List.filter_sublist.map Prod.fst).subset hmem)

mutual

/-- The redactions of two values that differ in secrets only are equal if the difference is
not traced. -/
theorem redaction_eq_iff : ∀ (inModel : Bool) (v w : Value), SameButSecrets py v w →
    (redaction py inModel v = redaction py inModel w ↔ Untraced py inModel v w)
  | inModel, .leaf l, .leaf m, h => by
    obtain rfl : l = m := h
    simp [Untraced]
  | inModel, .seq xs, .seq ys, h => by
    rw [redaction_seq, redaction_seq, Json.arr.injEq, redaction_items_eq_iff inModel xs ys h,
      Untraced]
  | inModel, .dict xs, .dict ys, h => by
    have hkeys : Dict.keys (xs.map (redactedEntry py inModel)) =
        Dict.keys (ys.map (redactedEntry py inModel)) := by
      rw [keys_redactedEntry, keys_redactedEntry]
      exact keys_eq_of_same py h
    rw [redaction_dict, redaction_dict, Json.obj.injEq, Dict.update_nil_eq_iff hkeys,
      redaction_entries_eq_iff inModel xs ys h, Untraced]
  | inModel, .model xs, .model ys, h => by
    obtain ⟨hnodup, h⟩ := h
    have hnodup' : (Dict.keys ys).Nodup := keys_eq_of_same py h ▸ hnodup
    rw [redaction_model py inModel hnodup, redaction_model py inModel hnodup', Json.obj.injEq,
      redaction_fields_eq_iff xs ys hnodup h, Untraced]
termination_by structural _ v => v

theorem redaction_items_eq_iff : ∀ (inModel : Bool) (xs ys : List Value), SameItems py xs ys →
    (xs.map (redaction py inModel) = ys.map (redaction py inModel) ↔
      UntracedItems py inModel xs ys)
  | inModel, [], [], _ => by simp [UntracedItems]
  | inModel, x :: xs, y :: ys, h => by
    obtain ⟨hx, hxs⟩ := h
    rw [List.map_cons, List.map_cons, List.cons.injEq, redaction_eq_iff inModel x y hx,
      redaction_items_eq_iff inModel xs ys hxs, UntracedItems]
termination_by structural _ xs => xs

theorem redaction_entries_eq_iff : ∀ (inModel : Bool) (xs ys : List (String × Value)),
    SameEntries py xs ys →
    (Dict.SameLast (xs.map (redactedEntry py inModel)) (ys.map (redactedEntry py inModel)) ↔
      UntracedEntries py inModel xs ys)
  | inModel, [], [], _ => by simp [UntracedEntries, Dict.SameLast]
  | inModel, (k, x) :: xs, (k', y) :: ys, h => by
    obtain ⟨rfl, hx, hxs⟩ := h
    have hentry := redactedEntry_eq_iff py (hx.imp_right (redaction_eq_iff inModel x y))
    rw [List.map_cons, List.map_cons, redactedEntry, redactedEntry, Dict.SameLast, hentry,
      redaction_entries_eq_iff inModel xs ys hxs, keys_redactedEntry, UntracedEntries]
termination_by structural _ xs => xs

theorem redaction_fields_eq_iff : ∀ (xs ys : List (String × Value)), (Dict.keys xs).Nodup →
    SameEntries py xs ys →
    ((xs.filter fun f => !f.2.isNone).map (redactedEntry py true) =
      (ys.filter fun f => !f.2.isNone).map (redactedEntry py true) ↔ UntracedFields py xs ys)
  | [], [], _, _ => by simp [UntracedFields]
  | (k, x) :: xs, (k', y) :: ys, hnodup, h => by
    obtain ⟨rfl, hx, hxs⟩ := h
    obtain ⟨hfresh, hnodup⟩ : k ∉ Dict.keys xs ∧ (Dict.keys xs).Nodup := by
      simpa [Dict.keys] using hnodup
    have hrest := redaction_fields_eq_iff xs ys hnodup hxs
    have hentry := redactedEntry_eq_iff py (hx.imp_right (redaction_eq_iff true x y))
    have hfresh' : k ∉ Dict.keys ys := keys_eq_of_same py hxs ▸ hfresh
    cases hxnone : x.isNone <;> cases hynone : y.isNone
    case false.false =>
      simp [hxnone, hynone, UntracedFields, redactedEntry, hentry, hrest]
    case true.true => simp [hxnone, hynone, UntracedFields, hrest]
    case false.true =>
      -- the field is written on the left only
      have hne := kept_ne_cons py x xs hfresh'
      simp [hxnone, hynone, UntracedFields, Ne.symm hne]
    case true.false =>
      have hne := kept_ne_cons py y ys hfresh
      simp [hxnone, hynone, UntracedFields, hne]
termination_by structural xs => xs

end

/-- Two values that differ in secrets only leave the same record exactly if the difference is
not traced. -/
theorem redactSecrets_eq_iff {v w : Value} (h : SameButSecrets py v w) :
    redactSecrets py v = redactSecrets py w ↔ Untraced py false v w :=
  redaction_eq_iff py false v w h

/-- A plan request for a scope that names its credentials by a reference with a token. -/
def scopedRequest (token : String) : Value :=
  .model [("provider", .leaf (.str "proxmox")), ("scope", .dict
    [("credential_ref", .dict [("token", .leaf (.str token))])])]

theorem redactSecrets_eq_iff_password :
    redactSecrets .ascii (.dict [("password", .leaf (.str "a")), ("size", .leaf (.int 3))]) =
      redactSecrets .ascii (.dict [("password", .leaf .null), ("size", .leaf (.int 3))]) ↔
    Untraced .ascii false (.dict [("password", .leaf (.str "a")), ("size", .leaf (.int 3))])
      (.dict [("password", .leaf .null), ("size", .leaf (.int 3))]) :=
  redactSecrets_eq_iff .ascii ⟨rfl, Or.inl (by decide), rfl, Or.inr rfl, trivial⟩

theorem scopedRequest_record (token : String) :
    redactSecrets .ascii (scopedRequest token) = .obj [("provider", .str "proxmox"),
      ("scope", .obj [("credential_ref", .obj [("token", .str token)])])] := by
  have hprovider : isSecretKey .ascii "provider" = false := by decide +kernel
  have hscope : isSecretKey .ascii "scope" = false := by decide +kernel
  have hne : Python.ascii.lower "provider" ≠ "credential_ref" := by decide
  have hne' : Python.ascii.lower "scope" ≠ "credential_ref" := by decide
  have hlower : Python.ascii.lower "credential_ref" = "credential_ref" := by decide
  simp [scopedRequest, redactSecrets, dump, dumpFields, dumpEntries, Value.isNone, redactJson,
    redactJsonFields, redactUnder, jsonableJson, jsonableJsonFields, Leaf.dump, Leaf.jsonable,
    Dict.update, Dict.set, hprovider, hscope, hne, hne', hlower]

/-- A token under a `credential_ref` key is written to the record. -/
theorem token_recorded :
    SameButSecrets .ascii (scopedRequest "hunter2") (scopedRequest "letmein") ∧
    redactSecrets .ascii (scopedRequest "hunter2") ≠
      redactSecrets .ascii (scopedRequest "letmein") := by
  constructor
  · refine ⟨by decide, rfl, Or.inr rfl, rfl, Or.inr ?_, trivial⟩
    exact ⟨rfl, Or.inr ⟨rfl, Or.inl (by decide +kernel), trivial⟩, trivial⟩
  · rw [scopedRequest_record, scopedRequest_record]
    simp

end ProxboxApi.Ceph
