import Mathlib.Data.List.Sort
import ProxboxApi.StringLiteral
import ProxboxApi.Text

/-! `generate_pydantic_models_from_openapi`: the classes that it generates for the operations of a
document, and the text of their module. -/

namespace ProxboxApi.PydanticModels

/-- What the generator reads of a schema.  `oneOf` is the first alternative, a property that is not
a dictionary is the schema without entries. -/
inductive Schema where
  | mk (type : Option String) (oneOf items : Option Schema) (properties : List (String × Schema))
      (required : List String) (description : Option String)
  deriving Repr

namespace Schema

def type : Schema → Option String | mk t _ _ _ _ _ => t

def oneOf : Schema → Option Schema | mk _ s _ _ _ _ => s

def items : Schema → Option Schema | mk _ _ s _ _ _ => s

def properties : Schema → List (String × Schema) | mk _ _ _ ps _ _ => ps

def required : Schema → List String | mk _ _ _ _ names _ => names

def description : Schema → Option String | mk _ _ _ _ _ text => text

end Schema

structure Operation where
  operationId : Option String
  requestBody : Option Schema
  response : Option Schema
  deriving Repr

/-- `paths`: for each path its methods. -/
abbrev Document := List (String × List (String × Operation))

/-- `sorted(d.items())`. -/
def sortedItems {α : Type} (d : List (String × α)) : List (String × α) :=
  d.insertionSort fun a b => a.1 ≤ b.1

/-- `re.sub(r"[^a-zA-Z0-9]+", "_", text)`. -/
def collapse : List Char → List Char
  | [] => []
  | [c] => if c.isAlphanum then [c] else ['_']
  | c :: d :: text =>
    if c.isAlphanum then c :: collapse (d :: text)
    else if d.isAlphanum then '_' :: collapse (d :: text)
    else collapse (d :: text)

/-- `re.sub(r"([a-z0-9])([A-Z])", r"\1_\2", text)`. -/
def splitCamel : List Char → List Char
  | c :: d :: text =>
    if (c.isLower || c.isDigit) && d.isUpper then c :: '_' :: splitCamel (d :: text)
    else c :: splitCamel (d :: text)
  | text => text

/-- `keyword.kwlist`. -/
def keywords : List String :=
  ["False", "None", "True", "and", "as", "assert", "async", "await", "break", "class", "continue",
    "def", "del", "elif", "else", "except", "finally", "for", "from", "global", "if", "import", "in",
    "is", "lambda", "nonlocal", "not", "or", "pass", "raise", "return", "try", "while", "with",
    "yield"]

def slugifyIdentifier (value : String) : String :=
  let text := collapse (Text.stripChars Text.isSpace value.toList)
  let out := (Text.stripChars (· == '_') (splitCamel text)).map Char.toLower
  match out with
  | [] => "field"
  | c :: _ =>
    let name := String.ofList (if c.isDigit then "n_".toList ++ out else out)
    if name ∈ keywords then name ++ "_" else name

def capitalized : List Char → List Char
  | [] => []
  | c :: word => c.toUpper :: word

def pascalCase (value : String) : String :=
  let words := (value.toList.splitOnP fun c => !c.isAlphanum).filter (· ≠ [])
  match words.flatMap capitalized with
  | [] => "GeneratedModel"
  | c :: label => String.ofList (if c.isDigit then "Model".toList ++ c :: label else c :: label)

/-- `re.findall(r"\{([^{}]+)\}", path)`; the accumulator is of what follows the last brace. -/
def pathParams : Option (List Char) → List Char → List String
  | _, [] => []
  | name, c :: path =>
    if c = '\x7b' then pathParams (some []) path
    else if c = '\x7d' then
      match name with
      | some (d :: name) => String.ofList (d :: name) :: pathParams none path
      | _ => pathParams none path
    else pathParams (name.map (· ++ [c])) path

def extractPathParams (path : String) : List String := pathParams none path.toList

/-- `_resolved_schema`. -/
def resolvedSchema (s : Schema) : Schema := s.oneOf.getD s

def typeName (type : Option String) (item : String) : String :=
  match type with
  | some "null" => "None"
  | some "string" => "str"
  | some "integer" => "int"
  | some "number" => "float"
  | some "boolean" => "bool"
  | some "array" => "list[" ++ item ++ "]"
  | some "object" => "dict[str, object]"
  | _ => "object"

/-- `_python_type`. -/
def pythonType : Schema → String
  | .mk type none (some items) _ _ _ => typeName type (pythonType items)
  | .mk type none none _ _ _ => typeName type "object"
  | .mk _ (some (.mk type _ (some items) _ _ _)) _ _ _ _ => typeName type (pythonType items)
  | .mk _ (some (.mk type _ none _ _ _)) _ _ _ _ => typeName type "object"

/-- A field of a class, with the text between the quotes of its alias and the literal of its
description. -/
structure Field where
  name : String
  type : String
  required : Bool
  aliasText : Option (List Char)
  description : Option (List Char)
  deriving DecidableEq, Repr

inductive Body where
  | object (base : String) (fields : List Field)
  | root (type : String) (description : Option (List Char))
  deriving DecidableEq, Repr

/-- A generated class, with the schema that it is generated from. -/
structure ClassDef where
  name : String
  body : Body
  source : Schema

/-- `_PYDANTIC_RESERVED_FIELD_NAMES`. -/
def reservedFieldNames : List String := ["schema"]

def fieldName (propName : String) : String :=
  let name := slugifyIdentifier propName
  if name ∈ reservedFieldNames then name ++ "_" else name

section Generator

variable (printable : Char → Bool)

/-- The literal of a description that is a text and not empty. -/
def describe : Option String → Option (List Char)
  | some text => if text = "" then none else some (StringLiteral.reprText printable text.toList)
  | none => none

def generateField (required : List String) (p : String × Schema) : Field where
  name := fieldName p.1
  type := pythonType p.2
  required := p.1 ∈ required
  aliasText := if fieldName p.1 ≠ p.1 then some p.1.toList else none
  description := describe printable p.2.description

def generateObjectModel (name : String) (s : Schema) : ClassDef where
  name := name
  body := if s.properties = [] then .root (typeName (some "object") "object") none
    else .object "BaseModel" ((sortedItems s.properties).map (generateField printable s.required))
  source := s

def generateRootModel (name : String) (s : Schema) : ClassDef where
  name := name
  body := .root (pythonType s) (describe printable s.description)
  source := s

/-- The items of an array schema, if they are objects with properties. -/
def objectItems (s : Schema) : Option Schema :=
  match s.type, s.items with
  | some "array", some items =>
    if items.type = some "object" ∧ items.properties ≠ [] then some items else none
  | _, _ => none

/-- `_generate_model_from_schema`. -/
def generateModelFromSchema (name : String) (schema : Schema) : List ClassDef :=
  let s := resolvedSchema schema
  match objectItems s with
  | some items =>
    [generateObjectModel printable (name ++ "Item") items,
      { name := name
        body := .root ("list[" ++ name ++ "Item]") (describe printable s.description)
        source := s }]
  | none =>
    if s.type = some "object" then [generateObjectModel printable name s]
    else [generateRootModel printable name s]

end Generator

/-- `_request_schema_for_operation`: the body without the parameters of the path. -/
def requestSchemaForOperation (path : String) (operation : Operation) : Option Schema :=
  let params := extractPathParams path
  operation.requestBody.map fun s =>
    if params = [] then s
    else .mk s.type s.oneOf s.items (s.properties.filter fun p => p.1 ∉ params)
      (s.required.filter fun name => name ∉ params) s.description

inductive Kind where
  | request
  | response
  deriving DecidableEq, Repr

def Kind.suffix : Kind → String
  | .request => "Request"
  | .response => "Response"

/-- A class that an operation asks for. -/
structure Model where
  kind : Kind
  base : String
  schema : Schema

def Model.name (m : Model) : String := m.base ++ m.kind.suffix

structure Entry where
  path : String
  method : String
  operation : Operation

/-- `str.upper` of a character. Beside the ASCII letters only the long s and the two ligatures
with t have upper cases made of ASCII letters that stand in a method. -/
def upperCase : Char → List Char
  | 'ſ' => ['S']
  | 'ﬅ' => ['S', 'T']
  | 'ﬆ' => ['S', 'T']
  | c => [c.toUpper]

/-- `method.upper() in {"GET", "POST", "PUT", "DELETE"}`. -/
def isMethod (method : String) : Bool :=
  ["GET", "POST", "PUT", "DELETE"].contains (String.ofList (method.toList.flatMap upperCase))

/-- The operations in the order of generation. -/
def operations (doc : Document) : List Entry :=
  (sortedItems doc).flatMap fun item =>
    ((sortedItems item.2).filter fun o => isMethod o.1).map fun o => ⟨item.1, o.1, o.2⟩

/-- `operation.get("operationId") or f"{method}_{path}"`. -/
def Entry.operationId (e : Entry) : String :=
  match e.operation.operationId with
  | some id => if id = "" then e.method ++ "_" ++ e.path else id
  | none => e.method ++ "_" ++ e.path

def Entry.models (e : Entry) : List Model :=
  let base := pascalCase e.operationId
  ((requestSchemaForOperation e.path e.operation).map (Model.mk .request base)).toList ++
    (e.operation.response.map (Model.mk .response base)).toList

def models (doc : Document) : List Model := (operations doc).flatMap Entry.models

/-- The classes of the models, in order; a name that has been seen is not generated again. -/
def generate (printable : Char → Bool) : List String → List Model → List ClassDef
  | _, [] => []
  | seen, m :: rest =>
    if m.name ∈ seen then generate printable seen rest
    else
      let blocks := generateModelFromSchema printable m.name m.schema
      blocks ++ generate printable
        (m.name :: if blocks.length > 1 then (m.name ++ "Item") :: seen else seen) rest

/-- `Field(...)` with its arguments. -/
def fieldCall (default : String) (aliasText description : Option (List Char)) : List Char :=
  "Field(".toList ++ default.toList ++
    (match aliasText with
      | some text => ", alias=".toList ++ '"' :: (text ++ ['"'])
      | none => []) ++
    (match description with
      | some text => ", description=".toList ++ text
      | none => []) ++ [')']

def fieldHint (type : String) (required : Bool) : String :=
  type ++ if required then "" else " | None"

def Field.text (f : Field) : List Char :=
  "    ".toList ++ f.name.toList ++ ": ".toList ++ (fieldHint f.type f.required).toList ++
    " = ".toList ++ fieldCall (if f.required then "..." else "None") f.aliasText f.description

def ClassDef.text (c : ClassDef) : List Char :=
  match c.body with
  | .object base fields =>
    "class ".toList ++ c.name.toList ++ '(' :: (base.toList ++ "):".toList ++
      fields.flatMap fun f => '\n' :: f.text)
  | .root type description =>
    "class ".toList ++ c.name.toList ++ "(RootModel".toList ++ '[' :: (type.toList ++
      "]):\n    root: ".toList ++ type.toList ++ " = ".toList ++ fieldCall "..." none description)

/-- `block.replace("(BaseModel)", "(ProxmoxBaseModel)")`. -/
def adopt (block : List Char) : List Char :=
  Substitution.replaceAll "(BaseModel)".toList "(ProxmoxBaseModel)".toList block

def headerLines : List String :=
  ["\"\"\"Generated Pydantic v2 schemas from Proxmox OpenAPI output.\"\"\"",
    "",
    "from __future__ import annotations",
    "",
    "import warnings",
    "",
    "from pydantic import BaseModel, ConfigDict, Field, RootModel",
    "",
    "warnings.filterwarnings('ignore', message='Field name \"schema\".*shadows an attribute.*')",
    "",
    "class ProxmoxBaseModel(BaseModel):",
    "    model_config = ConfigDict(populate_by_name=True, extra='allow', protected_namespaces=())",
    ""]

def placeholderLines : List String :=
  ["class GeneratedPlaceholder(ProxmoxBaseModel):", "    value: str = 'no-models-generated'", ""]

/-- The module of these blocks. -/
def moduleText (blocks : List (List Char)) : List Char :=
  let lines := headerLines.map String.toList ++ blocks.flatMap (fun block => [block, []]) ++
    (if blocks = [] then placeholderLines.map String.toList else [])
  (List.intercalate ['\n'] lines).rdropWhile Text.isSpace ++ ['\n']

def generatePydanticModelsFromOpenapi (printable : Char → Bool) (doc : Document) : List Char :=
  moduleText ((generate printable [] (models doc)).map fun c => adopt c.text)

end ProxboxApi.PydanticModels
