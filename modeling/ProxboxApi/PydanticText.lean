import Mathlib
import ProxboxApi.PydanticModels

/-! The text of the generated module: its names are identifiers, its descriptions are literals, and
the replacement of the base class reaches the base classes and the insides of literals alone. -/

namespace ProxboxApi.PydanticModels

open StringLiteral

/-- The characters of the identifiers that the generator makes. -/
def wordChar (c : Char) : Bool := c.isAlphanum || c == '_'

theorem wordChar_of_isAlphanum {c : Char} (h : c.isAlphanum = true) : wordChar c = true := by
  simp [wordChar, h]

theorem wordChar_collapse {text : List Char} : ∀ c ∈ collapse text, wordChar c = true := by
  induction text using collapse.induct with
  | case1 => simp [collapse]
  | case2 c h => simp [collapse, h, wordChar]
  | case3 c h => simp [collapse, h, wordChar]
  | case4 c d text h ih =>
    rw [collapse, if_pos h]
    exact List.forall_mem_cons.mpr ⟨wordChar_of_isAlphanum h, ih⟩
  | case5 c d text h hd ih =>
    rw [collapse, if_neg h, if_pos hd]
    exact List.forall_mem_cons.mpr ⟨by decide, ih⟩
  | case6 c d text h hd ih =>
    rw [collapse, if_neg h, if_neg hd]
    exact ih

theorem wordChar_splitCamel {text : List Char} (h : ∀ c ∈ text, wordChar c = true) :
    ∀ c ∈ splitCamel text, wordChar c = true := by
  induction text using splitCamel.induct with
  | case1 c d text hcamel ih =>
    rw [splitCamel, if_pos hcamel]
    obtain ⟨hc, htext⟩ := List.forall_mem_cons.mp h
    exact List.forall_mem_cons.mpr ⟨hc, List.forall_mem_cons.mpr ⟨by decide, ih htext⟩⟩
  | case2 c d text hcamel ih =>
    rw [splitCamel, if_neg hcamel]
    obtain ⟨hc, htext⟩ := List.forall_mem_cons.mp h
    exact List.forall_mem_cons.mpr ⟨hc, ih htext⟩
  | case3 text hshort =>
    rw [splitCamel]
    · exact h
    · exact hshort

theorem wordChar_toLower {c : Char} (h : wordChar c = true) : wordChar c.toLower = true := by
  rcases Text.toLower_cases c with ⟨hsame, -⟩ | ⟨-, hlow, hhigh⟩
  · rw [hsame]
    exact h
  · have hlower : c.toLower.isLower = true := by
      simp only [Char.isLower, Bool.and_eq_true, decide_eq_true_eq]
      exact ⟨hlow, hhigh⟩
    simp [wordChar, Char.isAlphanum, Char.isAlpha, hlower]

/-- A Python identifier of these characters. -/
def isIdentifier (name : String) : Prop :=
  name.toList ≠ [] ∧ (∀ c ∈ name.toList, wordChar c = true) ∧
    (∀ c ∈ name.toList.head?, c.isDigit = false) ∧ name ∉ keywords

theorem isIdentifier_append {name : String} (h : name.toList ≠ [])
    (hword : ∀ c ∈ name.toList, wordChar c = true)
    (hdigit : ∀ c ∈ name.toList.head?, c.isDigit = false) :
    isIdentifier (if name ∈ keywords then name ++ "_" else name) := by
  by_cases hkey : name ∈ keywords
  · rw [if_pos hkey]
    have hall : ∀ k ∈ keywords, k.toList ≠ [] ∧ (k ++ "_").toList.head? = k.toList.head? ∧
        k ++ "_" ∉ keywords := by decide +kernel
    obtain ⟨-, hhead, hnot⟩ := hall name hkey
    refine ⟨by simp, ?_, ?_, hnot⟩
    · rw [String.toList_append, List.forall_mem_append]
      exact ⟨hword, forall_mem_of_all (by decide)⟩
    · rw [hhead]
      exact hdigit
  · rw [if_neg hkey]
    exact ⟨h, hword, hdigit, hkey⟩

theorem isIdentifier_slugifyIdentifier (value : String) :
    isIdentifier (slugifyIdentifier value) := by
  have hword : ∀ c ∈ (Text.stripChars (· == '_') (splitCamel
      (collapse (Text.stripChars Text.isSpace value.toList)))).map Char.toLower,
      wordChar c = true := by
    intro c hc
    obtain ⟨d, hd, rfl⟩ := List.mem_map.mp hc
    exact wordChar_toLower (wordChar_splitCamel wordChar_collapse d (Text.mem_of_mem_stripChars hd))
  unfold slugifyIdentifier
  dsimp only
  split
  next =>
    refine ⟨by decide, forall_mem_of_all (by decide), ?_, by decide +kernel⟩
    rintro _ ⟨⟩
    decide
  next c out hout =>
    rw [hout] at hword
    apply isIdentifier_append
    · split <;> simp [hout]
    · rw [String.toList_ofList]
      split
      · rw [hout]
        exact List.forall_mem_append.mpr ⟨forall_mem_of_all (by decide), hword⟩
      · rw [hout]
        exact hword
    · rw [String.toList_ofList]
      split
      next => simp
      next hdigit =>
        rw [hout]
        simpa using hdigit

theorem isIdentifier_fieldName (propName : String) : isIdentifier (fieldName propName) := by
  unfold fieldName
  dsimp only
  split
  next h =>
    have hall : ∀ name ∈ reservedFieldNames, (name ++ "_").toList ≠ [] ∧
        (name ++ "_").toList.all wordChar = true ∧
        (name ++ "_").toList.head?.all (fun c => !c.isDigit) = true ∧ name ++ "_" ∉ keywords := by
      decide +kernel
    obtain ⟨hne, hword, hdigit, hkey⟩ := hall _ h
    refine ⟨hne, List.all_eq_true.mp hword, ?_, hkey⟩
    intro c hc
    rw [Option.mem_def.mp hc] at hdigit
    simpa using hdigit
  next => exact isIdentifier_slugifyIdentifier propName

theorem alphanum_toUpper {c : Char} (h : c.isAlphanum = true) : c.toUpper.isAlphanum = true := by
  have hlt : c.toNat < 128 := by
    simp only [Char.isAlphanum, Char.isAlpha, Char.isUpper, Char.isLower, Char.isDigit,
      Bool.or_eq_true, Bool.and_eq_true, decide_eq_true_eq] at h
    rcases h with (h | h) | h
    · exact Nat.lt_of_le_of_lt (show c.toNat ≤ 90 from h.2) (by decide)
    · exact Nat.lt_of_le_of_lt (show c.toNat ≤ 122 from h.2) (by decide)
    · exact Nat.lt_of_le_of_lt (show c.toNat ≤ 57 from h.2) (by decide)
  have hall : ∀ n < 128, (Char.ofNat n).isAlphanum = true →
      (Char.ofNat n).toUpper.isAlphanum = true := by decide +kernel
  rw [← Char.ofNat_toNat c] at h ⊢
  exact hall c.toNat hlt h

theorem alphanum_pascalCase (value : String) :
    (pascalCase value).toList ≠ [] ∧ (∀ c ∈ (pascalCase value).toList, c.isAlphanum = true) ∧
      ∀ c ∈ (pascalCase value).toList.head?, c.isDigit = false := by
  have hword : ∀ c ∈ ((value.toList.splitOnP fun c => !c.isAlphanum).filter (· ≠ [])).flatMap
      capitalized, c.isAlphanum = true := by
    intro c hc
    obtain ⟨word, hword, hc⟩ := List.mem_flatMap.mp hc
    have hall := Text.of_mem_splitOnP (List.mem_of_mem_filter hword)
    cases word with
    | nil => cases hc
    | cons d word =>
      rcases List.mem_cons.mp hc with rfl | hc
      · exact alphanum_toUpper (by simpa using (hall d List.mem_cons_self).2)
      · simpa using (hall c (List.mem_cons_of_mem d hc)).2
  unfold pascalCase
  dsimp only
  split
  next =>
    refine ⟨by decide, forall_mem_of_all (by decide), ?_⟩
    rintro _ ⟨⟩
    decide
  next c label hlabel =>
    rw [hlabel] at hword
    rw [String.toList_ofList]
    split
    next => exact ⟨by simp, List.forall_mem_append.mpr ⟨forall_mem_of_all (by decide), hword⟩,
      by simp⟩
    next hdigit => exact ⟨by simp, hword, by simpa using hdigit⟩

/-- A text between two quotes of one kind. -/
def Delimited (text : List Char) : Prop :=
  ∃ q body, (q = '"' ∨ q = '\'') ∧ text = q :: (body ++ [q])

theorem quote_cases (text : List Char) :
    StringLiteral.reprQuote text = '"' ∨ StringLiteral.reprQuote text = '\'' := by
  unfold StringLiteral.reprQuote
  split
  next => exact .inl rfl
  next => exact .inr rfl

theorem delimited_reprText (printable : Char → Bool) (text : List Char) :
    Delimited (StringLiteral.reprText printable text) := by
  exact ⟨_, _, quote_cases text, rfl⟩

theorem adopt_append_of_not_mem {u : List Char} (hu : '(' ∉ u) (text : List Char) :
    adopt (u ++ text) = u ++ adopt text :=
  Substitution.replaceAll_append_of_not_mem hu

theorem adopt_append_cons {c : Char} (hc : c ∉ "(BaseModel)".toList) (u text : List Char) :
    adopt (u ++ c :: text) = adopt u ++ c :: adopt text :=
  Substitution.replaceAll_append_cons (by decide) hc

/-- The replacement stops at the quotes of a literal. -/
theorem adopt_delimited {lit : List Char} (h : Delimited lit) (u text : List Char) :
    adopt (u ++ (lit ++ text)) = adopt u ++ (adopt lit ++ adopt text) := by
  obtain ⟨q, body, hq, rfl⟩ := h
  have hmem : q ∉ "(BaseModel)".toList := by
    rcases hq with rfl | rfl <;> decide
  have hlit : adopt (q :: (body ++ [q])) = q :: (adopt body ++ [q]) := by
    have h := adopt_append_cons hmem [] (body ++ [q])
    have h' := adopt_append_cons hmem body []
    rw [List.nil_append] at h
    rw [h, h']
    rfl
  rw [hlit, List.cons_append, List.append_assoc, List.singleton_append, adopt_append_cons hmem,
    adopt_append_cons hmem]
  simp

/-- A field of the class as it is written: the replacement has reached its literals. -/
def Field.substitute (f : Field) : Field :=
  { f with aliasText := f.aliasText.map adopt, description := f.description.map adopt }

def ClassDef.substitute (c : ClassDef) : ClassDef :=
  { c with body := match c.body with
    | .object _ fields => .object "ProxmoxBaseModel" (fields.map Field.substitute)
    | .root type description => .root type (description.map adopt) }

/-- The parts of a class that the generator writes. -/
structure Field.Written (f : Field) : Prop where
  name : '(' ∉ f.name.toList
  type : '(' ∉ f.type.toList
  description : ∀ text ∈ f.description, Delimited text

def ClassDef.Written (c : ClassDef) : Prop :=
  '(' ∉ c.name.toList ∧ match c.body with
    | .object base fields => base = "BaseModel" ∧ ∀ f ∈ fields, f.Written
    | .root type description => '(' ∉ type.toList ∧ ∀ text ∈ description, Delimited text

theorem delimited_alias (text : List Char) : Delimited ('"' :: (text ++ ['"'])) :=
  ⟨'"', text, .inl rfl, rfl⟩

theorem adopt_alias (text : List Char) :
    adopt ('"' :: (text ++ ['"'])) = '"' :: (adopt text ++ ['"']) := by
  have h := adopt_append_cons (show '"' ∉ _ by decide) [] (text ++ ['"'])
  have h' := adopt_append_cons (show '"' ∉ _ by decide) text []
  rw [List.nil_append] at h
  rw [h, h']
  rfl

theorem adopt_fieldCall {default : String} {aliasText description : Option (List Char)}
    (hdefault : default ∈ ["...", "None"]) (hdescription : ∀ text ∈ description, Delimited text) :
    adopt (fieldCall default aliasText description) =
      fieldCall default (aliasText.map adopt) (description.map adopt) := by
  have hnone : ∀ d ∈ ["...", "None"], adopt ("Field(".toList ++ d.toList ++ [')']) =
      "Field(".toList ++ d.toList ++ [')'] := by decide
  have hlead : ∀ d ∈ ["...", "None"], adopt ("Field(".toList ++ d.toList ++ ", alias=".toList) =
      "Field(".toList ++ d.toList ++ ", alias=".toList := by decide
  have hlead' : ∀ d ∈ ["...", "None"],
      adopt ("Field(".toList ++ d.toList ++ ", description=".toList) =
        "Field(".toList ++ d.toList ++ ", description=".toList := by decide
  have hend : adopt [')'] = [')'] := by decide
  have hmid : adopt ", description=".toList = ", description=".toList := by decide
  unfold fieldCall
  cases aliasText with
  | none =>
    cases description with
    | none => simpa using hnone default hdefault
    | some d =>
      have h := adopt_delimited (hdescription d rfl)
        ("Field(".toList ++ default.toList ++ ", description=".toList) [')']
      rw [hlead' default hdefault, hend] at h
      simpa using h
  | some a =>
    cases description with
    | none =>
      have h := adopt_delimited (delimited_alias a)
        ("Field(".toList ++ default.toList ++ ", alias=".toList) [')']
      rw [hlead default hdefault, hend, adopt_alias] at h
      simpa using h
    | some d =>
      have h := adopt_delimited (delimited_alias a)
        ("Field(".toList ++ default.toList ++ ", alias=".toList)
        (", description=".toList ++ (d ++ [')']))
      rw [hlead default hdefault, adopt_delimited (hdescription d rfl), hmid, hend,
        adopt_alias] at h
      simpa using h

theorem adopt_field {f : Field} (h : f.Written) : adopt f.text = f.substitute.text := by
  have hpre : '(' ∉ "    ".toList ++ f.name.toList ++ ": ".toList ++
      (fieldHint f.type f.required).toList ++ " = ".toList := by
    simp only [fieldHint, String.toList_append, List.mem_append, not_or]
    refine ⟨⟨⟨⟨by decide, h.name⟩, by decide⟩, h.type, ?_⟩, by decide⟩
    split <;> decide
  unfold Field.text
  rw [adopt_append_of_not_mem hpre, adopt_fieldCall _ h.description]
  · rfl
  · split <;> decide

theorem adopt_fields {fields : List Field} (h : ∀ f ∈ fields, f.Written) (u : List Char) :
    adopt (u ++ fields.flatMap fun f => '\n' :: f.text) =
      adopt u ++ (fields.map Field.substitute).flatMap fun f => '\n' :: f.text := by
  induction fields generalizing u with
  | nil => simp
  | cons f fields ih =>
    obtain ⟨hf, hfields⟩ := List.forall_mem_cons.mp h
    rw [List.flatMap_cons, List.cons_append, adopt_append_cons (by decide), ih hfields,
      adopt_field hf]
    simp

/-- The replacement names the new base class and reaches the insides of literals: the rest of a
class is written as it was. -/
theorem adopt_text {c : ClassDef} (h : c.Written) : adopt c.text = c.substitute.text := by
  obtain ⟨hname, hbody⟩ := h
  have hclass : '(' ∉ "class ".toList ++ c.name.toList := by
    simp only [List.mem_append, not_or]
    exact ⟨by decide, hname⟩
  unfold ClassDef.text ClassDef.substitute
  cases hc : c.body with
  | object base fields =>
    rw [hc] at hbody
    obtain ⟨rfl, hfields⟩ := hbody
    dsimp only
    rw [adopt_append_of_not_mem hclass]
    have hhead : adopt "(BaseModel):".toList = "(ProxmoxBaseModel):".toList := by decide
    have h := adopt_fields hfields "(BaseModel):".toList
    rw [hhead] at h
    exact congrArg _ h
  | root type description =>
    rw [hc] at hbody
    obtain ⟨htype, hdescription⟩ := hbody
    have hroot : adopt "(RootModel".toList = "(RootModel".toList := by decide
    have hrest : '(' ∉ type.toList ++ "]):\n    root: ".toList ++ type.toList ++ " = ".toList := by
      simp only [List.mem_append, not_or]
      exact ⟨⟨⟨htype, by decide⟩, htype⟩, by decide⟩
    dsimp only
    rw [adopt_append_cons (by decide), adopt_append_of_not_mem hclass, hroot,
      adopt_append_of_not_mem hrest, adopt_fieldCall (by decide) hdescription]
    rfl

theorem paren_typeName {type : Option String} {item : String} (h : '(' ∉ item.toList) :
    '(' ∉ (typeName type item).toList := by
  unfold typeName
  split
  all_goals first | decide | simp [h]

theorem paren_pythonType (s : Schema) : '(' ∉ (pythonType s).toList := by
  induction s using pythonType.induct with
  | case1 type items ps required description ih =>
    rw [pythonType]
    exact paren_typeName ih
  | case2 =>
    rw [pythonType]
    exact paren_typeName (by decide)
  | case3 =>
    rename_i ih
    rw [pythonType]
    exact paren_typeName ih
  | case4 =>
    rw [pythonType]
    exact paren_typeName (by decide)

theorem delimited_describe (printable : Char → Bool) (description : Option String) :
    ∀ text ∈ describe printable description, Delimited text := by
  intro text h
  unfold describe at h
  split at h
  next =>
    split at h
    next => cases h
    next =>
      cases h
      exact delimited_reprText printable _
  next => cases h

theorem paren_of_isIdentifier {name : String} (h : isIdentifier name) : '(' ∉ name.toList := by
  intro hmem
  exact absurd (h.2.1 _ hmem) (by decide)

theorem written_generateField (printable : Char → Bool) (required : List String)
    (p : String × Schema) : (generateField printable required p).Written := by
  have hname := paren_of_isIdentifier (isIdentifier_fieldName p.1)
  unfold generateField
  constructor
  · dsimp only
    exact hname
  · exact paren_pythonType p.2
  · exact delimited_describe printable p.2.description

theorem written_generateObjectModel (printable : Char → Bool) {name : String} (s : Schema)
    (hname : '(' ∉ name.toList) : (generateObjectModel printable name s).Written := by
  refine ⟨hname, ?_⟩
  unfold generateObjectModel
  dsimp only
  by_cases hnil : s.properties = []
  · rw [if_pos hnil]
    exact ⟨by decide, nofun⟩
  · rw [if_neg hnil]
    refine ⟨rfl, ?_⟩
    intro f hf
    obtain ⟨p, -, rfl⟩ := List.mem_map.mp hf
    exact written_generateField printable s.required p

theorem written_generateModelFromSchema (printable : Char → Bool) {name : String} (schema : Schema)
    (hname : '(' ∉ name.toList) :
    ∀ c ∈ generateModelFromSchema printable name schema, c.Written := by
  have hitem : '(' ∉ (name ++ "Item").toList := by
    rw [String.toList_append, List.mem_append, not_or]
    exact ⟨hname, by decide⟩
  unfold generateModelFromSchema
  dsimp only
  split
  next items _ =>
    rw [List.forall_mem_cons, List.forall_mem_singleton]
    refine ⟨written_generateObjectModel printable items hitem, hname, ?_, ?_⟩
    · simpa [String.toList_append] using hname
    · exact delimited_describe printable _
  next =>
    split
    next =>
      rw [List.forall_mem_singleton]
      exact written_generateObjectModel printable _ hname
    next =>
      rw [List.forall_mem_singleton]
      exact ⟨hname, paren_pythonType _, delimited_describe printable _⟩

theorem mem_generate {printable : Char → Bool} {models : List Model} {seen : List String}
    {c : ClassDef} (h : c ∈ generate printable seen models) :
    ∃ m ∈ models, c ∈ generateModelFromSchema printable m.name m.schema := by
  induction models generalizing seen with
  | nil => cases h
  | cons m models ih =>
    rw [generate] at h
    split at h
    next =>
      obtain ⟨m', hm', hc⟩ := ih h
      exact ⟨m', List.mem_cons_of_mem m hm', hc⟩
    next =>
      rcases List.mem_append.mp h with h | h
      · exact ⟨m, List.mem_cons_self, h⟩
      · obtain ⟨m', hm', hc⟩ := ih h
        exact ⟨m', List.mem_cons_of_mem m hm', hc⟩

theorem paren_name {doc : Document} {m : Model} (h : m ∈ models doc) : '(' ∉ m.name.toList := by
  obtain ⟨e, -, hm⟩ := List.mem_flatMap.mp h
  have hbase : m.base = pascalCase e.operationId := by
    unfold Entry.models at hm
    rcases List.mem_append.mp hm with hm | hm
    · obtain ⟨s, -, rfl⟩ := Option.map_eq_some_iff.mp (Option.mem_toList.mp hm)
      rfl
    · obtain ⟨s, -, rfl⟩ := Option.map_eq_some_iff.mp (Option.mem_toList.mp hm)
      rfl
  rw [Model.name, String.toList_append, List.mem_append, not_or, hbase]
  constructor
  · intro hmem
    exact absurd ((alphanum_pascalCase e.operationId).2.1 _ hmem) (by decide)
  · cases m.kind <;> decide

/-- The classes of a module as they are written. -/
def classes (printable : Char → Bool) (doc : Document) : List ClassDef :=
  (generate printable [] (models doc)).map ClassDef.substitute

/-- The text of the module is that of its classes after the replacement. -/
theorem module_text (printable : Char → Bool) (doc : Document) :
    generatePydanticModelsFromOpenapi printable doc =
      moduleText ((classes printable doc).map ClassDef.text) := by
  unfold generatePydanticModelsFromOpenapi classes
  rw [List.map_map]
  refine congrArg moduleText (List.map_congr_left ?_)
  intro c hc
  obtain ⟨m, hm, hc⟩ := mem_generate hc
  exact adopt_text (written_generateModelFromSchema printable m.schema (paren_name hm) c hc)

section Descriptions

variable {printable : Char → Bool} {quote : Char}

/-- A character is represented by itself or by an escape, which has no parenthesis. -/
theorem reprChar_cases (printable : Char → Bool) (hquote : quote = '"' ∨ quote = '\'') (c : Char) :
    reprChar printable quote c = [c] ∨
      ∃ e, reprChar printable quote c = '\\' :: e ∧ '(' ∉ e := by
  have hhex : ∀ d width n, d ≠ '(' → '(' ∉ d :: hexText width n := by
    intro d width n hd hmem
    rcases List.mem_cons.mp hmem with h | h
    · exact hd h.symm
    · exact absurd (hexDigit_of_mem_hexText h) (by decide)
  unfold reprChar
  split
  next hc =>
    refine .inr ⟨[c], rfl, ?_⟩
    rcases hc with rfl | rfl
    · rcases hquote with rfl | rfl <;> decide
    · decide
  next =>
    split
    next => exact .inr ⟨_, rfl, by decide⟩
    next =>
      split
      next => exact .inr ⟨_, rfl, by decide⟩
      next =>
        split
        next => exact .inr ⟨_, rfl, by decide⟩
        next =>
          split
          next => exact .inl rfl
          next =>
            right
            split
            next => exact ⟨_, rfl, hhex _ 2 _ (by decide)⟩
            next =>
              split
              next => exact ⟨_, rfl, hhex _ 4 _ (by decide)⟩
              next => exact ⟨_, rfl, hhex _ 8 _ (by decide)⟩

/-- A word without a backslash at the start of a representation starts the text. -/
theorem prefix_of_repr (hquote : quote = '"' ∨ quote = '\'') {u text : List Char} (hu : '\\' ∉ u)
    (h : u <+: text.flatMap (reprChar printable quote)) : u <+: text := by
  induction u generalizing text with
  | nil => exact List.nil_prefix
  | cons k u ih =>
    rw [List.mem_cons, not_or] at hu
    cases text with
    | nil => simp at h
    | cons c text =>
      rw [List.flatMap_cons] at h
      rcases reprChar_cases printable hquote c with hc | ⟨e, hc, -⟩
      · rw [hc, List.singleton_append, List.cons_prefix_cons] at h
        exact List.cons_prefix_cons.mpr ⟨h.1, ih hu.2 h.2⟩
      · rw [hc, List.cons_append, List.cons_prefix_cons] at h
        exact absurd h.1.symm hu.1

theorem reprChar_printable {c : Char} (hc : c ≠ quote ∧ c ≠ '\\')
    (hrange : 0x20 ≤ c.toNat ∧ c.toNat < 0x7f) : reprChar printable quote c = [c] := by
  have hn : c ≠ '\n' := by
    rintro rfl
    exact absurd hrange.1 (by decide)
  have hr : c ≠ '\r' := by
    rintro rfl
    exact absurd hrange.1 (by decide)
  have ht : c ≠ '\t' := by
    rintro rfl
    exact absurd hrange.1 (by decide)
  unfold reprChar
  rw [if_neg (not_or.mpr hc), if_neg hn, if_neg hr, if_neg ht, if_pos (.inl hrange)]

/-- The words of the replacement are represented by themselves. -/
theorem flatMap_repr_word (printable : Char → Bool) (hquote : quote = '"' ∨ quote = '\'') {u : List Char}
    (hu : ∀ c ∈ u, c ∈ "(ProxmoxBaseModel)".toList) :
    u.flatMap (reprChar printable quote) = u := by
  have hall : ∀ c ∈ "(ProxmoxBaseModel)".toList, c ≠ '"' ∧ c ≠ '\'' ∧ c ≠ '\\' ∧
      0x20 ≤ c.toNat ∧ c.toNat < 0x7f := forall_mem_of_all (by decide)
  have hself : ∀ c ∈ u, reprChar printable quote c = [c] := by
    intro c hc
    obtain ⟨hd, hs, hslash, hrange⟩ := hall c (hu c hc)
    refine reprChar_printable ⟨?_, hslash⟩ hrange
    rcases hquote with rfl | rfl
    · exact hd
    · exact hs
  rw [List.flatMap_congr hself]
  exact List.flatMap_singleton' u

/-- The replacement in the representation of a text is the representation of the text after it. -/
theorem adopt_repr (hquote : quote = '"' ∨ quote = '\'') (text : List Char) :
    adopt (text.flatMap (reprChar printable quote)) =
      (adopt text).flatMap (reprChar printable quote) := by
  induction text using Substitution.replaceAll_induction "(BaseModel)".toList (by decide) with
  | nil => rfl
  | found text ih =>
    have hfound : ∀ rest, adopt ("(BaseModel)".toList ++ rest) =
        "(ProxmoxBaseModel)".toList ++ adopt rest :=
      fun rest => Substitution.replaceAll_found (by decide)
    rw [List.flatMap_append, flatMap_repr_word printable hquote (forall_mem_of_all (by decide)),
      hfound, hfound, ih,
      List.flatMap_append, flatMap_repr_word printable hquote (fun _ h => h)]
  | plain c text h ih =>
    have hplain : adopt (c :: text) = c :: adopt text := Substitution.replaceAll_plain h
    rw [hplain, List.flatMap_cons, List.flatMap_cons, ← ih]
    by_cases hc : c = '('
    · -- the rest of the word would start the text
      subst hc
      have hself := flatMap_repr_word printable hquote (u := ['(']) (forall_mem_of_all (by decide))
      rw [List.flatMap_singleton] at hself
      rw [hself, List.singleton_append]
      apply Substitution.replaceAll_plain
      intro hp
      apply h
      have htail : "BaseModel)".toList <+: text.flatMap (reprChar printable quote) :=
        (List.cons_prefix_cons.mp hp).2
      exact List.cons_prefix_cons.mpr ⟨rfl, prefix_of_repr hquote (by decide) htail⟩
    · apply adopt_append_of_not_mem
      rcases reprChar_cases printable hquote c with hself | ⟨e, he, hparen⟩
      · rw [hself]
        simpa using Ne.symm hc
      · rw [he, List.mem_cons, not_or]
        exact ⟨by decide, hparen⟩

/-- The literal of a description stands for the description, with the base class replaced. -/
theorem readBody_description {named : List Char → Option Char}
    (hquote : quote = '"' ∨ quote = '\'') (text : List Char) :
    readBody named quote (adopt (text.flatMap (reprChar printable quote))) = some (adopt text) := by
  rw [adopt_repr hquote, readBody_repr hquote]

end Descriptions

end ProxboxApi.PydanticModels
