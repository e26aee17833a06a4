import ProxboxApi.VmPayload

/-! The `netbox-metadata` blocks of a Proxmox description and what they override in the body of a
NetBox VM. -/

namespace ProxboxApi.DescriptionMetadata

open ProxboxApi.VmQueue

abbrev Line := List Char

/-- A block between two fence lines. -/
structure Fence where
  opening : Line
  body : List Line
  closing : Line
  deriving DecidableEq, Repr

/-- `[ \t]`. -/
def isBlank (c : Char) : Bool := c = ' ' || c = '\t'

/-- Three backticks, blanks and the info string in any case. -/
def isFenceName (s : List Char) : Bool :=
  s.take 3 = ['`', '`', '`'] &&
    ((s.drop 3).dropWhile isBlank).map Char.toLower = "netbox-metadata".toList

/-- The line after the `\r?` that may end it. -/
def dropCr (line : Line) : Line :=
  if line.getLast? = some '\r' then line.dropLast else line

/-- The first line that `_FENCE_RE` matches. -/
def isOpening (line : Line) : Bool := isFenceName (Text.stripChars isBlank (dropCr line))

/-- The last line that it matches: no `\r` fits between the backticks and `$`. -/
def isClosing (line : Line) : Bool := Text.stripChars isBlank line = ['`', '`', '`']

/-- The leftmost matches of a pattern of lines, and the lines with each match replaced by the
empty string. Inside of a match `pending` holds its lines; where none of the remaining lines
closes it, no later line can open a match either. -/
def scan (opens : Line → Bool) (closes : ℕ → Line → Bool) :
    Option (Line × List Line) → List Line → List Line × List Fence
  | none, [] => ([], [])
  | some (opening, body), [] => (opening :: body, [])
  | none, line :: lines =>
    if opens line then scan opens closes (some (line, [])) lines
    else
      let rest := scan opens closes none lines
      (line :: rest.1, rest.2)
  | some (opening, body), line :: lines =>
    if closes body.length line then
      let rest := scan opens closes none lines
      ([] :: rest.1, ⟨opening, body, line⟩ :: rest.2)
    else scan opens closes (some (opening, body ++ [line])) lines

def lines (text : String) : List Line := text.toList.splitOn '\n'

def joined (ls : List Line) : String := String.ofList (['\n'].intercalate ls)

/-- `_FENCE_RE.sub` and `_FENCE_RE.finditer`: the line break before the closing line is not the one
after the opening line, so that there is a line between them. -/
def fenceScan (text : String) : List Line × List Fence :=
  scan isOpening (fun n line => 1 ≤ n && isClosing line) none (lines text)

/-- What `json.loads` ends in. -/
inductive Loaded where
  | value (j : Json)
  | valueError
  | recursionError

/-- The positive integers of an object. -/
def positiveInts (fields : Json.Fields) : List (String × ℤ) :=
  Dict.update [] (fields.filterMap fun kv => match kv.2 with
    | .int n => if 0 < n then some (kv.1, n) else none
    | _ => none)

variable (loads : String → Loaded)

/-- The overrides of the last of these blocks; `none` is an exception. -/
def metadataOf (fences : List Fence) : Option (List (String × ℤ)) :=
  match fences.getLast? with
  | none => some []
  | some fence =>
    let body := Text.strip (joined fence.body)
    if body = "" then some []
    else match loads body with
      | .value (.obj fields) => some (positiveInts fields)
      | .recursionError => none
      | _ => some []

/-- `parse_netbox_metadata`. -/
def parseNetboxMetadata (text : String) : Option (List (String × ℤ)) :=
  if text = "" then some [] else metadataOf loads (fenceScan text).2

/-- `strip_netbox_metadata`. -/
def stripNetboxMetadata (text : String) : Option String :=
  if text = "" then some text
  else
    let cleaned := Text.strip (joined (fenceScan text).1)
    if cleaned = "" then none else some cleaned

/-- The overwrite flags by name. -/
abbrev OverwriteFlags := List (String × Json)

/-- The flag of a key is there and `False`. -/
def gated (flags : Option OverwriteFlags) (key : String) : Bool :=
  match flags with
  | none => false
  | some flags => match Dict.get ("overwrite_vm_" ++ key) flags with
    | some (.bool false) => true
    | _ => false

/-- `filter_metadata_by_overwrite_flags`, without the keys that it drops. -/
def filterByOverwriteFlags (metadata : List (String × ℤ)) (flags : Option OverwriteFlags) :
    List (String × ℤ) :=
  metadata.filter fun kv => !gated flags kv.1

/-- What `as_netbox_create_body` reads of a `ProxmoxToNetBoxVirtualMachine`; a description that is
no string is `none`. -/
structure VmInput where
  name : String
  status : String
  node : String
  description : Option String
  clusterId : ℤ
  deviceId : Option ℤ
  siteId : Option ℤ
  virtualMachineTypeId : Option ℤ
  roleId : Option ℤ
  maxcpu : Option ℤ
  memoryMb : ℤ
  diskMb : ℤ
  tagIds : List ℤ
  customFields : Json.Fields

variable (py : Python) (input : VmInput)

def optionalInt (n : Option ℤ) : Json := (n.map Json.int).getD .null

/-- The keyword arguments of the body before any override. -/
def bodyKwargs (description : String) : Json.Fields :=
  [("name", .str input.name), ("status", .str input.status), ("cluster", .int input.clusterId),
    ("device", optionalInt input.deviceId), ("site", optionalInt input.siteId),
    ("virtual_machine_type", optionalInt input.virtualMachineTypeId),
    ("role", optionalInt input.roleId), ("vcpus", .int (input.maxcpu.getD 0)),
    ("memory", .int input.memoryMb), ("disk", .int (min input.diskMb 2147483647)),
    ("tags", .arr ((input.tagIds.filter (0 < ·)).map .int)),
    ("custom_fields", .obj input.customFields), ("description", .str description)]

def defaultDescription : String := "Synced from Proxmox node " ++ input.node

/-- `_resolve_description_metadata`. -/
def resolveDescriptionMetadata (flags : Option OverwriteFlags) :
    Option (List (String × ℤ) × String) :=
  match input.description with
  | none => some ([], defaultDescription input)
  | some raw => (parseNetboxMetadata loads raw).map fun parsed =>
      ((filterByOverwriteFlags parsed flags).filter fun kv => kv.1 ∈ bodyFields,
        match stripNetboxMetadata raw with
        | some stripped => if stripped = "" then defaultDescription input else stripped
        | none => defaultDescription input)

/-- `as_netbox_create_body`; `none` is an exception. -/
def asNetboxCreateBody (parseDescriptionMetadata : Bool) (flags : Option OverwriteFlags) :
    Option VmBody :=
  if parseDescriptionMetadata then
    (resolveDescriptionMetadata loads input flags).bind fun resolved =>
      validate py (Dict.update (bodyKwargs input resolved.2)
        (resolved.1.map fun kv => (kv.1, .int kv.2)))
  else validate py (bodyKwargs input (defaultDescription input))

end ProxboxApi.DescriptionMetadata
