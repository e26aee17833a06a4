import Mathlib.Data.List.ReduceOption
import ProxboxApi.Binary64
import ProxboxApi.Outcomes
import ProxboxApi.VmidHelpers

/-! The disks of a VM config and their sizes in MiB. -/

namespace ProxboxApi.Disks

/-- `str.upper`, and the value of a character that `\d` matches. -/
structure SizeTables where
  upper : String → String
  upper_ascii : ∀ s : String, (∀ c ∈ s.toList, c.toNat < 128) →
    upper s = String.ofList (s.toList.map Char.toUpper)
  digit : Char → Option ℕ
  digit_ascii : ∀ c : Char, c.toNat < 128 →
    digit c = if c.isDigit then some (c.toNat - 48) else none

namespace SizeTables

variable (tables : SizeTables)

def isDecimal (c : Char) : Bool := (tables.digit c).isSome

def digitsValue (digits : List Char) : ℕ :=
  digits.foldl (fun n c => 10 * n + (tables.digit c).getD 0) 0

/-- `float` of the digits before and after the point. -/
def float (whole fraction : List Char) : Option ℚ :=
  Binary64.nearest (tables.digitsValue (whole ++ fraction) / 10 ^ fraction.length)

/-- The tables on ASCII. -/
def ascii : SizeTables where
  upper s := String.ofList (s.toList.map Char.toUpper)
  upper_ascii _ _ := rfl
  digit c := if c.isDigit then some (c.toNat - 48) else none
  digit_ascii _ _ := rfl

end SizeTables

structure ProxmoxDiskEntry where
  name : String
  rawValue : String
  size : Option ℤ
  storage : Option String
  storageName : Option String
  format : Option String
  description : Option String
  deriving DecidableEq, Repr

/-- The multipliers of `size_str_to_mb`. -/
def multiplier (unit : Char) : ℚ :=
  match unit with
  | 'G' => 1024
  | 'T' => 1024 * 1024
  | 'K' => 1024 / 1024
  | _ => 1

/-- `\.\d+`, if it is there. -/
def fractionPart (tables : SizeTables) (rest : List Char) : List Char × List Char :=
  match rest with
  | '.' :: more =>
    if more.takeWhile tables.isDecimal = [] then ([], rest)
    else (more.takeWhile tables.isDecimal, more.dropWhile tables.isDecimal)
  | _ => ([], rest)

/-- `(B|K|M|G|T)?`, with the default `B`. -/
def unitPart (rest : List Char) : Char × List Char :=
  match rest with
  | c :: more => if c ∈ ['B', 'K', 'M', 'G', 'T'] then (c, more) else ('B', rest)
  | [] => ('B', [])

variable (py : Python) (tables : SizeTables)

/-- `size_str_to_mb`, `none` where a float overflows. -/
def sizeStrToMb (sizeStr : String) : Option ℤ :=
  let s := (tables.upper (Text.strip sizeStr)).toList
  let whole := s.takeWhile tables.isDecimal
  let (fraction, rest) := fractionPart tables (s.dropWhile tables.isDecimal)
  let (unit, rest) := unitPart (rest.dropWhile Text.isSpace)
  if sizeStr = "" || whole = [] || (rest ≠ [] && rest ≠ ['\n']) then some 0
  else (tables.float whole fraction).bind fun value =>
    (Binary64.nearest (value * multiplier unit)).map Int.floor

/-- `DISK_KEY_PATTERN`; `$` also matches before a final newline. -/
def isDiskKey (key : String) : Bool :=
  let chars := key.toList
  let chars := if chars.getLast? = some '\n' then chars.dropLast else chars
  let numbered := fun kind : String => kind.toList.isPrefixOf chars &&
    chars.drop kind.length ≠ [] && (chars.drop kind.length).all tables.isDecimal
  ["scsi", "ide", "sata", "virtio", "mp", "efidisk", "tpmstate"].any numbered ||
    chars = "rootfs".toList

/-- An option `k=v` of a config string. -/
def option (part : List Char) : Option (String × String) :=
  if '=' ∈ part then
    some (String.ofList (Text.stripChars Text.isSpace (part.takeWhile (· ≠ '='))),
      String.ofList (Text.stripChars Text.isSpace (part.dropWhile (· ≠ '=')).tail))
  else none

def setOption (info : List (String × String)) (part : List Char) : List (String × String) :=
  match option part with
  | some (k, v) => Dict.set k v info
  | none => info

def storageInfo (rawValue : String) : String :=
  String.ofList ((rawValue.toList.splitOn ',').headD [])

def diskInfo (key rawValue : String) : List (String × String) :=
  (rawValue.toList.splitOn ',').tail.foldl setOption
    [("name", key), ("storage", storageInfo rawValue)]

def isCdrom (info : List (String × String)) : Bool :=
  py.lower ((Dict.get "media" info).getD "") = "cdrom"

def cdromDescription (storage : String) : String :=
  if storage ≠ "" && py.lower storage ≠ "none" then "CD-ROM drive | ISO: " ++ storage
  else "CD-ROM drive"

/-- The description of a disk that is no CD-ROM, and the name of its storage. -/
def storageName (info : List (String × String)) : String :=
  String.ofList (((Dict.get "storage" info).getD "").toList.takeWhile (· ≠ ':'))

def diskDescription (info : List (String × String)) : Option String :=
  let format := (Dict.get "format" info).getD ""
  let parts := (if storageName info = "" then [] else ["Storage: " ++ storageName info]) ++
    (if format = "" then [] else ["Format: " ++ format])
  if parts = [] then none else some (" | ".intercalate parts)

/-- `parse_disk_entry`; the outer `none` is an exception. -/
def parseDiskEntry (key : String) (rawValue : Json) : Option (Option ProxmoxDiskEntry) :=
  match rawValue with
  | .str rawValue =>
    if !isDiskKey tables key then some none
    else
      let info := diskInfo key rawValue
      if isCdrom py info then
        some (some ⟨key, rawValue, none, some (storageInfo rawValue), none, none,
          some (cdromDescription py (storageInfo rawValue))⟩)
      else (sizeStrToMb tables ((Dict.get "size" info).getD "0")).map fun sizeMb =>
        if sizeMb ≤ 0 then none
        else some ⟨key, rawValue, some sizeMb, some (storageInfo rawValue),
          if storageName info = "" then none else some (storageName info),
          Dict.get "format" info, diskDescription info⟩
  | _ => some none

/-- `parse_vm_config_disks`. -/
def parseVmConfigDisks (config : Json.Fields) : Option (List ProxmoxDiskEntry) :=
  (config.mapM fun kv => parseDiskEntry py tables kv.1 kv.2).map fun entries =>
    entries.reduceOption.mergeSort fun a b => decide (a.name ≤ b.name)

/-- `disk_mb`. -/
def diskMb (config : Json.Fields) : Option ℤ :=
  (parseVmConfigDisks py tables config).map fun disks =>
    (disks.map fun disk => max (disk.size.getD 0) 0).sum

end ProxboxApi.Disks
