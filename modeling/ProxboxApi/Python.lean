import ProxboxApi.Json
import ProxboxApi.Text

/-! What the services use of Python's strings and numbers: the operations that go by Unicode
tables or format floats and containers are parameters. -/

/-- `str.lower`, the case folding of a character, `str.isdigit`, the digits of a regular
expression, `int` of a string (`none` is a `ValueError`), `str` of floats, lists and
dictionaries, and what a Pydantic `int` field makes of strings and floats (`none` is an error). -/
structure Python where
  lower : String → String
  lower_ascii : ∀ s : String, (∀ c ∈ s.toList, c.toNat < 128) →
    lower s = String.ofList (s.toList.map Char.toLower)
  fold : Char → List Char
  fold_ascii : ∀ c : Char, c.toNat < 128 → fold c = [c.toLower]
  isDigit : String → Bool
  isDecimal : Char → Bool
  parseInt : String → Option ℤ
  repr : Json → String
  laxInt : String → Option ℤ
  laxFloat : ℚ → Option ℤ

namespace Python

variable (py : Python)

/-- `str.casefold`. -/
def casefold (s : String) : String := String.ofList (s.toList.flatMap py.fold)

/-- `str` of a JSON value. -/
def str : Json → String
  | .str s => s
  | .int n => toString n
  | .bool true => "True"
  | .bool false => "False"
  | .null => "None"
  | j => py.repr j

/-- `bool` of a JSON value. -/
def truthy : Json → Bool
  | .null => false
  | .bool b => b
  | .int n => n ≠ 0
  | .float q => q ≠ 0
  | .str s => s ≠ ""
  | .arr items => !items.isEmpty
  | .obj fields => !fields.isEmpty

/-- `int` of a JSON value, `none` where it raises. -/
def int : Json → Option ℤ
  | .int n => some n
  | .bool b => some (if b then 1 else 0)
  | .float q => some (q.num.tdiv q.den)
  | .str s => py.parseInt s
  | _ => none

/-- The value of a string of ASCII digits. -/
def digitsValue (digits : List Char) : ℕ :=
  digits.foldl (fun n d => 10 * n + (d.toNat - 48)) 0

def lowerAscii (s : String) : String := String.ofList (s.toList.map Char.toLower)

def parseAscii (s : String) : Option ℤ :=
  match Text.stripChars Text.isSpace s.toList with
  | '-' :: digits => if Text.isDigits digits then some (-digitsValue digits) else none
  | '+' :: digits | digits => if Text.isDigits digits then some (digitsValue digits) else none

/-- The operations on ASCII text without underscores, as Python has them there. -/
def ascii : Python where
  lower := lowerAscii
  lower_ascii _ _ := rfl
  fold c := [c.toLower]
  fold_ascii _ _ := rfl
  isDigit s := Text.isDigits s.toList
  isDecimal c := Text.isDigits [c]
  parseInt := parseAscii
  repr _ := ""
  laxInt := parseAscii
  laxFloat q := if q.den = 1 then some q.num else none

theorem digits_toString (m : ℕ) : Text.isDigits (toString m).toList = true ∧
    digitsValue (toString m).toList = m := by
  have hdigits : (toString m).toList = Nat.toDigits 10 m := by simp
  constructor
  · have hne : Nat.toDigits 10 m ≠ [] := by simp
    simp only [Text.isDigits, Bool.and_eq_true, Bool.not_eq_true', List.isEmpty_eq_false_iff,
      List.all_eq_true]
    exact ⟨hdigits ▸ hne, fun c hc => Text.isDigit_of_mem_toString hc⟩
  · rw [hdigits]
    exact Nat.ofDigitChars_ten_toDigits

/-- The text of a natural number determines it. -/
theorem toString_injective {m n : ℕ} (h : toString m = toString n) : m = n := by
  rw [← (digits_toString m).2, h, (digits_toString n).2]

end Python
