import Mathlib
import ProxboxApi.Python

/-! Addresses and networks as Python's `ipaddress` has them. -/

namespace IpAddress

inductive Address where
  | v4 (bits : BitVec 32)
  | v6 (bits : BitVec 128)
  deriving DecidableEq, Repr

def netmask (w length : ℕ) : BitVec w := BitVec.allOnes w <<< (w - length)

/-- A network: no bit of its address is behind the prefix. -/
structure Block (w : ℕ) where
  base : BitVec w
  length : ℕ
  masked : base &&& netmask w length = base

namespace Block

/-- `ip_network` with `strict=False`. -/
def of {w : ℕ} (bits : BitVec w) (length : ℕ) : Block w where
  base := bits &&& netmask w length
  length := length
  masked := by rw [BitVec.and_assoc, BitVec.and_self]

def contains {w : ℕ} (b : Block w) (bits : BitVec w) : Bool :=
  bits &&& netmask w b.length == b.base

end Block

inductive Network where
  | v4 (block : Block 32)
  | v6 (block : Block 128)

/-- `addr in network`: no address is in a network of the other version. -/
def Network.contains : Network → Address → Bool
  | .v4 block, .v4 bits => block.contains bits
  | .v6 block, .v6 bits => block.contains bits
  | .v4 _, .v6 _ | .v6 _, .v4 _ => false

/-- `IPv6Address.ipv4_mapped`. -/
def mapped : Address → Option (BitVec 32)
  | .v4 _ => none
  | .v6 bits => if bits >>> 32 = 0xffff#128 then some (bits.setWidth 32) else none

/-- An address with a mapped one read as the IPv4 address in it. -/
def embedded (a : Address) : Address :=
  match mapped a with
  | some bits => .v4 bits
  | none => a

theorem embedded_of_not_mapped {a : Address} (h : mapped a = none) : embedded a = a := by
  unfold embedded
  rw [h]

def quad (a b c d : BitVec 8) : BitVec 32 := a ++ b ++ c ++ d

/-- `_parse_octet`. -/
def parseOctet (s : List Char) : Option (BitVec 8) :=
  let value := Python.digitsValue s
  if !Text.isDigits s || 3 < s.length || (s ≠ ['0'] && s.head? = some '0') || 255 < value then none
  else some (BitVec.ofNat 8 value)

/-- `IPv4Address`. -/
def parseV4 (s : List Char) : Option (BitVec 32) :=
  match s.splitOn '.' with
  | [a, b, c, d] => do return quad (← parseOctet a) (← parseOctet b) (← parseOctet c) (← parseOctet d)
  | _ => none

def hexValue (c : Char) : Option ℕ :=
  if c.isDigit then some (c.toNat - 48)
  else if 'a' ≤ c ∧ c ≤ 'f' then some (c.toNat - 87)
  else if 'A' ≤ c ∧ c ≤ 'F' then some (c.toNat - 55)
  else none

/-- `_parse_hextet`. -/
def parseHextet (s : List Char) : Option ℕ :=
  if s.isEmpty || 4 < s.length then none
  else (s.mapM hexValue).map (List.foldl (fun n d => 16 * n + d) 0)

/-- An IPv4 address as the last part becomes two parts in hexadecimal. -/
def replaceV4 (parts : List (List Char)) : Option (List (List Char)) :=
  match parts.getLast? with
  | none => none
  | some last =>
    if '.' ∈ last then
      (parseV4 last).map fun (bits : BitVec 32) => parts.dropLast ++
        [Nat.toDigits 16 (bits >>> 16).toNat, Nat.toDigits 16 (bits.setWidth 16).toNat]
    else some parts

/-- The parts before and after the one run of skipped zeros. -/
def halves (parts : List (List Char)) (skip : ℕ) : Option (List (List Char) × List (List Char)) :=
  let hi := parts.take skip
  let lo := parts.drop (skip + 1)
  if hi.head? = some [] ∧ hi ≠ [[]] ∨ lo.getLast? = some [] ∧ lo ≠ [[]] then none
  else
    let filled (half : List (List Char)) := if half = [[]] then [] else half
    if 8 ≤ (filled hi).length + (filled lo).length then none else some (filled hi, filled lo)

def join (hextets : List ℕ) : BitVec 128 :=
  BitVec.ofNat 128 (hextets.foldl (fun n h => 65536 * n + h) 0)

/-- `IPv6Address`, without its scope. -/
def parseV6 (s : List Char) : Option (BitVec 128) := do
  let parts := s.splitOn ':'
  if parts.length < 3 then none
  let parts ← replaceV4 parts
  if 9 < parts.length then none
  let isSkip (i : ℕ) := 0 < i && i + 1 < parts.length && parts[i]? == some []
  match (List.range parts.length).filter isSkip with
  | [] => if parts.length = 8 then (parts.mapM parseHextet).map join else none
  | [skip] =>
    let (hi, lo) ← halves parts skip
    let hi ← hi.mapM parseHextet
    let lo ← lo.mapM parseHextet
    return join (hi ++ List.replicate (8 - (hi.length + lo.length)) 0 ++ lo)
  | _ => none

/-- `_split_scope_id`. -/
def dropScope (s : List Char) : Option (List Char) :=
  match s.splitOn '%' with
  | [addr] => some addr
  | [addr, scope] => if scope.isEmpty then none else some addr
  | _ => none

/-- `ip_address` of a string; `none` is a `ValueError`. -/
def ipAddress (s : String) : Option Address :=
  let text := s.toList
  if '/' ∈ text then none
  else match parseV4 text with
    | some bits => some (.v4 bits)
    | none => ((dropScope text).bind parseV6).map .v6

example : ipAddress "::ffff:127.0.0.1" = some (.v6 0xffff7f000001#128) := by decide +kernel

end IpAddress
