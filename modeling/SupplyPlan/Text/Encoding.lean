import SupplyPlan.Text.Surrogate

namespace SupplyPlan.Text

/-- Units of eight bits, or larger ones whose first byte is the most or the least significant. -/
inductive Encoding where
  | bytes
  | units16 (bigEndian : Bool)
  | units32 (bigEndian : Bool)
  deriving DecidableEq, Repr

/-- JSON starts with an ASCII character, so the zeros among the first bytes give the encoding away. -/
def Encoding.detect : List Nat → Encoding
  | 0 :: b :: _ :: _ :: _ => if b = 0 then .units32 true else .units16 true
  | _ :: 0 :: c :: d :: _ => if c = 0 && d = 0 then .units32 false else .units16 false
  | [0, _] => .units16 true
  | [_, 0] => .units16 false
  | _ => .bytes

/-- The number that bytes stand for. -/
def unitOf (bigEndian : Bool) (bytes : List Nat) : Nat :=
  (if bigEndian then bytes else bytes.reverse).foldl (fun n b => 256 * n + b) 0

/-- The 16-bit units of bytes, if their number is even. -/
def units16? (bigEndian : Bool) : List Nat → Option (List Nat)
  | [] => some []
  | a :: b :: rest => (units16? bigEndian rest).map (unitOf bigEndian [a, b] :: ·)
  | _ => none

/-- The 32-bit units of bytes, if there are whole ones only. -/
def units32? (bigEndian : Bool) : List Nat → Option (List Nat)
  | [] => some []
  | a :: b :: c :: d :: rest => (units32? bigEndian rest).map (unitOf bigEndian [a, b, c, d] :: ·)
  | _ => none

/-- A high surrogate and a low one after it are one character. -/
def ofUnits : List Nat → List CodePoint
  | [] => []
  | [unit] => [.ofNat unit]
  | high :: low :: rest =>
    if isHighSurrogate high && isLowSurrogate low then ofPair high low :: ofUnits rest
    else .ofNat high :: ofUnits (low :: rest)

/-- The code points of numbers, if all of them are in range. -/
def ofNumbers? (numbers : List Nat) : Option (List CodePoint) :=
  if numbers.all (· < 0x110000) then some (numbers.map .ofNat) else none

/-- A byte order mark in front is not part of the text. -/
def withoutMark : List CodePoint → List CodePoint
  | .char '\uFEFF' :: rest => rest
  | s => s

/-- The text that a text stands for in the encoding of its bytes, if it can be decoded: where zeros show that they were
meant in units of 16 or 32 bits, they are read again. -/
def decoded? (s : String) : Option (List CodePoint) :=
  let bytes := s.toUTF8.toList.map UInt8.toNat
  match Encoding.detect bytes with
  | .bytes => some (withoutMark (ofString s).points)
  | .units16 bigEndian => (units16? bigEndian bytes).map ofUnits
  | .units32 bigEndian => (units32? bigEndian bytes).bind ofNumbers?

end SupplyPlan.Text
