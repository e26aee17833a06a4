import Mathlib.Data.List.Nodup
import ProxboxApi.PydanticText

/-! When the generated module keeps the operations and the properties of a document apart. -/

namespace ProxboxApi.PydanticModels

open StringLiteral

/-- What reads the module: the Unicode names of Python, and whether Pydantic builds a class from
these names and annotations of fields. -/
structure Runtime where
  named : List Char → Option Char
  builds : List (String × String) → Bool

section Separation

variable (rt : Runtime) (printable : Char → Bool)

/-- The alias of a field, or its name. -/
def Field.aliasOf (f : Field) : Option String :=
  match f.aliasText with
  | some text => (readBody rt.named '"' text).map String.ofList
  | none => some f.name

/-- The class has one field for each property of its schema, with the property's name for an alias
and its requiredness. -/
def ClassDef.represents (c : ClassDef) : Prop :=
  match c.body with
  | .object _ fields =>
    (fields.map Field.name).Nodup ∧
      rt.builds (fields.map fun f => (f.name, fieldHint f.type f.required)) = true ∧
      fields.map (fun f => (f.aliasOf rt, f.required)) =
        (sortedItems c.source.properties).map fun p =>
          (some p.1, decide (p.1 ∈ c.source.required))
  | .root _ _ => c.source.properties = []

/-- Each operation has the classes of its own schemas, no two of which share a name, and each
class has the fields of its schema. -/
structure Apart (doc : Document) : Prop where
  own : classes printable doc = (models doc).flatMap fun m =>
    (generateModelFromSchema printable m.name m.schema).map ClassDef.substitute
  names : ((classes printable doc).map ClassDef.name).Nodup
  fields : ∀ c ∈ classes printable doc, c.represents rt

/-- The schemas that the classes of a schema are generated from. -/
def classSchemas (schema : Schema) : List Schema :=
  let s := resolvedSchema schema
  match objectItems s with
  | some items => [items, s]
  | none => [s]

/-- The name may stand as the alias of a field: it is the name of the field, or is read between
double quotes as it is and does not contain the replaced base class. -/
def Quotable (name : String) : Prop :=
  fieldName name = name ∨
    plain '"' name.toList = true ∧ ¬ "(BaseModel)".toList <:+: name.toList

/-- A schema whose properties have fields of their own: it has none, or says that it is an object
and the names of the fields are different ones that Pydantic takes. -/
def Distinct (s : Schema) : Prop :=
  s.properties = [] ∨ s.type = some "object" ∧ (s.properties.map fun p => fieldName p.1).Nodup ∧
    rt.builds ((sortedItems s.properties).map fun p =>
      (fieldName p.1, fieldHint (pythonType p.2) (p.1 ∈ s.required))) = true ∧
    ∀ p ∈ s.properties, Quotable p.1

/-- No two operations with a body, and no two with a response, have the same `PascalCase` name, and
the schemas keep their properties apart. -/
structure Separable (doc : Document) : Prop where
  names : ((models doc).map fun m => (m.kind, m.base)).Nodup
  schemas : ∀ m ∈ models doc, ∀ s ∈ classSchemas m.schema, Distinct rt s

end Separation

section Fields

variable {rt : Runtime} {printable : Char → Bool}

theorem readBody_adopt (name : List Char) : readBody rt.named '"' (adopt name) = some name ↔
    plain '"' name = true ∧ ¬ "(BaseModel)".toList <:+: name := by
  have hold : "(BaseModel)".toList = '(' :: 'B' :: "aseModel)".toList := rfl
  have hnew : "(ProxmoxBaseModel)".toList = '(' :: 'P' :: "roxmoxBaseModel)".toList := rfl
  have hordinary : ∀ c ∈ '(' :: 'P' :: "roxmoxBaseModel)".toList, ordinary '"' c := by
    unfold ordinary
    exact forall_mem_of_all (by decide)
  unfold adopt
  rw [hold, hnew]
  exact readBody_replaceAll_iff (by decide) hordinary (by decide) (by decide)

/-- The alias literal of a field is read as the property exactly if the name is quotable. -/
theorem aliasOf_substitute {required : List String} {p : String × Schema} :
    (generateField printable required p).substitute.aliasOf rt = some p.1 ↔ Quotable p.1 := by
  unfold Quotable
  by_cases hname : fieldName p.1 = p.1
  · simp [Field.aliasOf, Field.substitute, generateField, hname]
  · have hvalue : (generateField printable required p).substitute.aliasOf rt =
        (readBody rt.named '"' (adopt p.1.toList)).map String.ofList := by
      simp [Field.aliasOf, Field.substitute, generateField, hname]
    rw [hvalue, or_iff_right hname, ← readBody_adopt, Option.map_eq_some_iff]
    constructor
    · intro ⟨text, hread, htext⟩
      rw [hread, ← htext, String.toList_ofList]
    · intro hread
      exact ⟨p.1.toList, hread, String.ofList_toList⟩

theorem sortedItems_perm {α : Type} (d : List (String × α)) : (sortedItems d).Perm d :=
  List.perm_insertionSort _ d

/-- The class of an object schema represents it exactly if its properties are distinct. -/
theorem represents_objectModel {name : String} {s : Schema} (htype : s.type = some "object") :
    (generateObjectModel printable name s).substitute.represents rt ↔ Distinct rt s := by
  unfold Distinct
  by_cases hnil : s.properties = []
  · simp [ClassDef.represents, ClassDef.substitute, generateObjectModel, hnil]
  · have hfields : ((generateObjectModel printable name s).substitute).represents rt ↔
        (((sortedItems s.properties).map fun p => fieldName p.1).Nodup ∧
          rt.builds ((sortedItems s.properties).map fun p =>
            (fieldName p.1, fieldHint (pythonType p.2) (p.1 ∈ s.required))) = true ∧
          ((sortedItems s.properties).map fun p =>
            ((generateField printable s.required p).substitute.aliasOf rt,
              decide (p.1 ∈ s.required))) =
            (sortedItems s.properties).map fun p => (some p.1, decide (p.1 ∈ s.required))) := by
      simp [ClassDef.represents, ClassDef.substitute, generateObjectModel, hnil, List.map_map,
        Function.comp_def, Field.substitute, generateField]
    have hperm := sortedItems_perm s.properties
    rw [hfields, or_iff_right hnil, and_iff_right htype, (hperm.map _).nodup_iff,
      List.map_inj_left]
    refine and_congr_right fun _ => and_congr_right fun _ => ?_
    constructor
    · intro h p hp
      exact aliasOf_substitute.mp (Prod.mk.inj (h p (hperm.mem_iff.mpr hp))).1
    · intro h p hp
      rw [aliasOf_substitute.mpr (h p (hperm.mem_iff.mp hp))]

theorem represents_root {name type : String} {description : Option (List Char)} {s : Schema}
    (htype : s.type ≠ some "object") :
    (ClassDef.substitute ⟨name, .root type description, s⟩).represents rt ↔ Distinct rt s := by
  unfold Distinct
  simp [ClassDef.represents, ClassDef.substitute, htype]

theorem objectItems_eq_some {s items : Schema} (h : objectItems s = some items) :
    s.type = some "array" ∧ items.type = some "object" := by
  unfold objectItems at h
  split at h
  next _ htype _ =>
    split at h
    next hitems =>
      cases h
      exact ⟨htype, hitems.1⟩
    next => cases h
  next => cases h

/-- The classes of a schema represent their schemas exactly if all these are distinct. -/
theorem represents_blocks {name : String} {schema : Schema} :
    (∀ c ∈ generateModelFromSchema printable name schema, c.substitute.represents rt) ↔
      ∀ s ∈ classSchemas schema, Distinct rt s := by
  unfold generateModelFromSchema classSchemas
  dsimp only
  cases hitems : objectItems (resolvedSchema schema) with
  | some items =>
    obtain ⟨harray, hobject⟩ := objectItems_eq_some hitems
    have hroot : (resolvedSchema schema).type ≠ some "object" := by
      rw [harray]
      decide
    simp [represents_objectModel hobject, represents_root hroot]
  | none =>
    dsimp only
    split
    next htype => simp only [List.forall_mem_singleton, represents_objectModel htype]
    next htype =>
      simp only [List.forall_mem_singleton]
      exact represents_root htype

end Fields

section Names

variable {printable : Char → Bool}

/-- The end of a class name: the kind of the schema, and whether the class is of items. -/
def nameEnd (kind : Kind) (item : Bool) : List Char :=
  kind.suffix.toList ++ if item then "Item".toList else []

/-- A class name tells the operation's name, the kind and whether it is of items. -/
theorem nameEnd_inj {a b : List Char} {k l : Kind} {i j : Bool}
    (h : a ++ nameEnd k i = b ++ nameEnd l j) : a = b ∧ k = l ∧ i = j := by
  have hends : ∀ k l : Kind, ∀ i j : Bool, nameEnd k i <:+ nameEnd l j → k = l ∧ i = j := by
    have hall : ∀ k ∈ [Kind.request, .response], ∀ l ∈ [Kind.request, .response],
        ∀ i ∈ [true, false], ∀ j ∈ [true, false], nameEnd k i <:+ nameEnd l j → k = l ∧ i = j := by
      decide
    intro k l i j
    exact hall k (by cases k <;> simp) l (by cases l <;> simp) i (by cases i <;> simp) j
      (by cases j <;> simp)
  have hsame : k = l ∧ i = j := by
    have hk : nameEnd k i <:+ b ++ nameEnd l j := h ▸ List.suffix_append a _
    rcases List.suffix_or_suffix_of_suffix hk (List.suffix_append b _) with hs | hs
    · exact hends k l i j hs
    · obtain ⟨hl, hj⟩ := hends l k j i hs
      exact ⟨hl.symm, hj.symm⟩
  obtain ⟨rfl, rfl⟩ := hsame
  exact ⟨List.append_cancel_right h, rfl, rfl⟩

theorem toList_name (m : Model) : m.name.toList = m.base.toList ++ nameEnd m.kind false := by
  simp [Model.name, nameEnd]

theorem toList_itemName (m : Model) :
    (m.name ++ "Item").toList = m.base.toList ++ nameEnd m.kind true := by
  simp [Model.name, nameEnd]

theorem name_eq_iff {m m' : Model} : m.name = m'.name ↔ (m.kind, m.base) = (m'.kind, m'.base) := by
  constructor
  · intro h
    have hlist := congrArg String.toList h
    rw [toList_name, toList_name] at hlist
    obtain ⟨hbase, hkind, -⟩ := nameEnd_inj hlist
    rw [String.toList_injective hbase, hkind]
  · intro h
    obtain ⟨hkind, hbase⟩ := Prod.mk.inj h
    rw [Model.name, Model.name, hkind, hbase]

theorem name_ne_itemName (m m' : Model) : m.name ≠ m'.name ++ "Item" := by
  intro h
  have hlist := congrArg String.toList h
  rw [toList_name, toList_itemName] at hlist
  cases (nameEnd_inj hlist).2.2

theorem itemName_eq {m m' : Model} (h : m.name ++ "Item" = m'.name ++ "Item") : m.name = m'.name := by
  have hlist := congrArg String.toList h
  rw [toList_itemName, toList_itemName] at hlist
  obtain ⟨hbase, hkind, -⟩ := nameEnd_inj hlist
  exact name_eq_iff.mpr (by rw [hkind, String.toList_injective hbase])

/-- The names of the classes of a schema: the model's and, before it, that of its items. -/
theorem names_blocks (printable : Char → Bool) (m : Model) :
    (generateModelFromSchema printable m.name m.schema).map ClassDef.name = [m.name] ∨
      (generateModelFromSchema printable m.name m.schema).map ClassDef.name =
        [m.name ++ "Item", m.name] := by
  unfold generateModelFromSchema
  dsimp only
  split
  next => exact .inr rfl
  next =>
    split
    next => exact .inl rfl
    next => exact .inl rfl

theorem mem_names_blocks {m : Model} {name : String}
    (h : name ∈ (generateModelFromSchema printable m.name m.schema).map ClassDef.name) :
    name = m.name ∨ name = m.name ++ "Item" := by
  rcases names_blocks printable m with hb | hb <;> rw [hb] at h <;> simp at h
  · exact .inl h
  · exact h.symm

/-- Where no name has been seen before, every model gets its classes. -/
theorem generate_eq {models : List Model} {seen : List String}
    (hseen : ∀ m ∈ models, m.name ∉ seen) (hnames : (models.map Model.name).Nodup) :
    generate printable seen models =
      models.flatMap fun m => generateModelFromSchema printable m.name m.schema := by
  induction models generalizing seen with
  | nil => rfl
  | cons m models ih =>
    obtain ⟨hm, hmodels⟩ := List.forall_mem_cons.mp hseen
    rw [List.map_cons, List.nodup_cons] at hnames
    rw [generate, if_neg hm, List.flatMap_cons]
    refine congrArg (_ ++ ·) (ih ?_ hnames.2)
    intro m' hm' hmem
    have hne : m'.name ≠ m.name := by
      intro h
      exact hnames.1 (h ▸ List.mem_map_of_mem hm')
    rcases List.mem_cons.mp hmem with h | h
    · exact hne h
    · split at h
      · rcases List.mem_cons.mp h with h | h
        · exact name_ne_itemName m' m h
        · exact hmodels m' hm' h
      · exact hmodels m' hm' h

theorem nodup_names_iff {models : List Model} :
    ((models.flatMap fun m => generateModelFromSchema printable m.name m.schema).map
      ClassDef.name).Nodup ↔ (models.map fun m => (m.kind, m.base)).Nodup := by
  have hnames : (models.map fun m => (m.kind, m.base)).Nodup ↔
      models.Pairwise fun m m' => m.name ≠ m'.name := by
    unfold List.Nodup
    rw [List.pairwise_map]
    simp only [ne_eq, name_eq_iff]
  rw [List.map_flatMap, List.nodup_flatMap, hnames]
  constructor
  · intro ⟨_, h⟩
    apply h.imp
    intro m m' hdisjoint heq
    have hself : ∀ m : Model, m.name ∈
        (generateModelFromSchema printable m.name m.schema).map ClassDef.name := by
      intro m
      rcases names_blocks printable m with h | h <;> rw [h] <;> simp
    exact hdisjoint (hself m) (heq ▸ hself m')
  · intro h
    refine ⟨?_, h.imp ?_⟩
    · intro m _
      rcases names_blocks printable m with h | h <;> rw [h]
      · simp
      · simp
    · intro m m' hne name hm hm'
      rcases mem_names_blocks hm with rfl | rfl <;> rcases mem_names_blocks hm' with h | h
      · exact hne h
      · exact name_ne_itemName m m' h
      · exact name_ne_itemName m' m h.symm
      · exact hne (itemName_eq h)

end Names

section Module

variable {printable : Char → Bool}

/-- The module keeps the operations and the properties of a document apart exactly if the document
is separable. -/
theorem apart_iff_separable (rt : Runtime) (doc : Document) :
    Apart rt printable doc ↔ Separable rt doc := by
  constructor
  · intro h
    have hclasses : classes printable doc = ((models doc).flatMap fun m =>
        generateModelFromSchema printable m.name m.schema).map ClassDef.substitute := by
      rw [h.own, List.map_flatMap]
    constructor
    · have hnames := h.names
      rw [hclasses, List.map_map] at hnames
      exact nodup_names_iff.mp hnames
    · intro m hm
      apply represents_blocks.mp
      intro c hc
      apply h.fields
      rw [hclasses]
      exact List.mem_map_of_mem (List.mem_flatMap.mpr ⟨m, hm, hc⟩)
  · intro h
    have hnames : ((models doc).map Model.name).Nodup := by
      have hpairs := h.names
      unfold List.Nodup at hpairs ⊢
      rw [List.pairwise_map] at hpairs ⊢
      exact hpairs.imp fun hne heq => hne (name_eq_iff.mp heq)
    have hclasses : classes printable doc = ((models doc).flatMap fun m =>
        generateModelFromSchema printable m.name m.schema).map ClassDef.substitute := by
      unfold classes
      rw [generate_eq (by simp) hnames]
    constructor
    · rw [hclasses, List.map_flatMap]
    · rw [hclasses, List.map_map]
      exact nodup_names_iff.mpr h.names
    · rw [hclasses]
      intro c hc
      obtain ⟨d, hd, rfl⟩ := List.mem_map.mp hc
      obtain ⟨m, hm, hd⟩ := List.mem_flatMap.mp hd
      exact represents_blocks.mpr (h.schemas m hm) d hd

/-- The text of the module is that of its classes, and these are apart exactly if no two operations
share a class name and every schema has distinct, quotable properties. -/
theorem generated_apart_iff (rt : Runtime) (printable : Char → Bool) (doc : Document) :
    generatePydanticModelsFromOpenapi printable doc =
        moduleText ((classes printable doc).map ClassDef.text) ∧
      (Apart rt printable doc ↔ Separable rt doc) :=
  ⟨module_text printable doc, apart_iff_separable rt doc⟩

/-- Two operations with different ids, of which the second gets no class of its own. -/
theorem second_operation_lost :
    let answer : Schema := .mk (some "string") none none [] [] none
    let flags : Schema := .mk (some "object") none none [("on", answer)] ["on"] none
    let doc : Document := [("/a", [("get", ⟨some "get_a", none, some answer⟩)]),
      ("/b", [("get", ⟨some "get-a", none, some flags⟩)])]
    ((operations doc).map Entry.operationId).Nodup ∧
      ¬ Apart ⟨fun _ => none, fun _ => true⟩ (fun _ => true) doc := by
  intro answer flags doc
  constructor
  · decide +kernel
  · intro h
    have hlength := congrArg List.length h.own
    exact absurd hlength (by decide +kernel)

end Module

end ProxboxApi.PydanticModels
