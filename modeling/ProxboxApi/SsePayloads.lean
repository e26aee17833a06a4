import Mathlib.Data.Int.Notation
import ProxboxApi.Dict

/-! The payloads of sync events: what `_to_serializable` makes of them, the text `json.dumps`
gives, and the frames of a stream. -/

namespace ProxboxApi.SseStream

/-- A dictionary key: what `json.dumps` takes for one, or any other hashable value. -/
inductive Key where
  | str (s : String)
  | scalar (text : String)
  | other (typeName : String)
  deriving DecidableEq, Repr

/-- A Python value as the serialiser sees it.  A `list` carries the `warnings` attribute that a
subclass may have, a `record` what its `serialize` or `dict` method returns, a `broken` one the
exception that this method raises. -/
inductive Payload where
  | none
  | bool (b : Bool)
  | int (n : ℤ)
  | float (repr : String)
  | str (s : String)
  | list (items warnings : List Payload)
  | tuple (items : List Payload)
  | dict (fields : List (Key × Payload))
  | record (typeName : String) (view : Payload)
  | broken (typeName error : String)
  | other (typeName : String)
  deriving Repr

mutual

/-- `_to_serializable`: a tuple is passed on as it is. -/
def toSerializable : Payload → Except String Payload
  | .dict fields => (serializableFields fields).map .dict
  | .list items _ => (serializableItems items).map (.list · [])
  | .record _ view => toSerializable view
  | .broken _ error => .error error
  | p => .ok p

def serializableItems : List Payload → Except String (List Payload)
  | [] => .ok []
  | p :: ps => do return (← toSerializable p) :: (← serializableItems ps)

def serializableFields : List (Key × Payload) → Except String (List (Key × Payload))
  | [] => .ok []
  | (k, p) :: fields => do return (k, ← toSerializable p) :: (← serializableFields fields)

end

def hex4 (n : ℕ) : String :=
  let digits := Nat.toDigits 16 n
  String.ofList (List.replicate (4 - digits.length) '0' ++ digits)

/-- A character within a JSON string, with `ensure_ascii`. -/
def escape (c : Char) : String :=
  if c = '"' then "\\\""
  else if c = '\\' then "\\\\"
  else if c = '\n' then "\\n"
  else if c = '\r' then "\\r"
  else if c = '\t' then "\\t"
  else if c.toNat = 0x08 then "\\b"
  else if c.toNat = 0x0c then "\\f"
  else if 0x20 ≤ c.toNat ∧ c.toNat ≤ 0x7e then c.toString
  else if c.toNat < 0x10000 then "\\u" ++ hex4 c.toNat
  else
    let n := c.toNat - 0x10000
    "\\u" ++ hex4 (0xd800 + n / 0x400) ++ "\\u" ++ hex4 (0xdc00 + n % 0x400)

def quote (s : String) : String := "\"" ++ String.join (s.toList.map escape) ++ "\""

def notSerializable (typeName : String) : String :=
  "Object of type " ++ typeName ++ " is not JSON serializable"

def keyText : Key → Except String String
  | .str s => .ok (quote s)
  | .scalar text => .ok (quote text)
  | .other typeName =>
    .error ("keys must be str, int, float, bool or None, not " ++ typeName)

mutual

/-- `json.dumps`. -/
def dumps : Payload → Except String String
  | .none => .ok "null"
  | .bool b => .ok (if b then "true" else "false")
  | .int n => .ok (toString n)
  | .float repr => .ok repr
  | .str s => .ok (quote s)
  | .list items _ => (dumpsItems items).map fun texts => "[" ++ ", ".intercalate texts ++ "]"
  | .tuple items => (dumpsItems items).map fun texts => "[" ++ ", ".intercalate texts ++ "]"
  | .dict fields => (dumpsFields fields).map fun texts =>
      "\x7b" ++ ", ".intercalate texts ++ "\x7d"
  | .record typeName _ => .error (notSerializable typeName)
  | .broken typeName _ => .error (notSerializable typeName)
  | .other typeName => .error (notSerializable typeName)

def dumpsItems : List Payload → Except String (List String)
  | [] => .ok []
  | p :: ps => do return (← dumps p) :: (← dumpsItems ps)

def dumpsFields : List (Key × Payload) → Except String (List String)
  | [] => .ok []
  | (k, p) :: fields => do return ((← keyText k) ++ ": " ++ (← dumps p)) :: (← dumpsFields fields)

end

/-- What the stream sends: a keepalive comment, or an event with its data and their text. -/
inductive Frame where
  | keepalive
  | event (name : String) (data : Payload) (text : String)
  deriving Repr

def Frame.text : Frame → String
  | .keepalive => ": keepalive\n\n"
  | .event name _ text => "event: " ++ name ++ "\ndata: " ++ text ++ "\n\n"

def Frame.isEvent : Frame → Bool
  | .keepalive => false
  | .event _ _ _ => true

def Frame.isComplete : Frame → Bool
  | .keepalive => false
  | .event name _ _ => name == "complete"

/-- The frame says `"ok": true`. -/
def Frame.saysOk : Frame → Bool
  | .event _ (.dict fields) _ => match Dict.get (Key.str "ok") fields with
    | some (.bool b) => b
    | _ => false
  | _ => false

/-- `sse_event`. -/
def sseEvent (event : String) (data : Payload) : Except String Frame := do
  let plain ← toSerializable data
  let text ← dumps plain
  return .event event plain text

end ProxboxApi.SseStream
