import SupplyPlan.Number.Quantity
import SupplyPlan.Text.Part

namespace SupplyPlan.Web.Numeral

/-- The text without its underscores, which may group digits: if it has any, each of them stands alone inside it. -/
def ungrouped? (s : List Char) : Option (List Char) :=
  if s.contains '_' && s.head? ≠ some '_' && s.getLast? ≠ some '_' && !Text.occursIn ['_', '_'] s then
    some (s.filter (· ≠ '_'))
  else none

/-- A double without underscores. -/
def plainDouble? (s : List Char) : Option Binary64 :=
  if s.contains '_' then none else Binary64.read? s

/-- A double between blanks, or one with underscores and no blanks. -/
def double? (s : List Char) : Option Binary64 :=
  match plainDouble? (Text.trim s) with
  | some x => some x
  | none => (ungrouped? s).bind plainDouble?

/-- The digits of an integer that are looked at. -/
def lengthLimit : Nat := 4300

def isNonZeroDigit (c : Char) : Bool := '1' ≤ c && c ≤ '9'

/-- Whether a text starts with an integer of more digits than are looked at. -/
def isOverlong (s : List Char) : Bool :=
  let digits := (Decimal.takeMinus s).2.takeWhile Char.isDigit
  digits.head?.any isNonZeroDigit && lengthLimit < digits.length

/-- An integer as it is written plainly: digits behind an optional minus, none of them a leading zero. -/
def plainInteger? (s : List Char) : Option Int :=
  let (negative, digits) := Decimal.takeMinus s
  if digits = [] || !digits.all Char.isDigit || lengthLimit < digits.length
      || (1 < digits.length && digits.head? = some '0') then none
  else
    let n : Int := Decimal.natOfDigits digits
    some (if negative then -n else n)

/-- What follows zeros and underscores. The character before is kept if nothing or a point follows. -/
def afterZeros? (before : Char) : List Char → Option (List Char)
  | [] => some [before]
  | c :: rest =>
    if c = '0' || c = '_' then afterZeros? c rest
    else if c = '.' then some (before :: c :: rest)
    else if c.isDigit || c = '-' then some (c :: rest)
    else none

/-- The text without the zeros that lead it; it has to start with a digit. -/
def withoutLeadingZeros? : List Char → Option (List Char)
  | [] => none
  | c :: rest =>
    if c = '0' then afterZeros? c rest
    else if isNonZeroDigit c then some (c :: rest)
    else none

/-- The text without a plus in front. -/
def withoutPlus? : List Char → Option (List Char)
  | '+' :: '-' :: _ => none
  | '+' :: rest => some rest
  | s => some s

/-- The text without its fraction, if that consists of zeros. -/
def withoutZeroFraction (s : List Char) : List Char :=
  let whole := s.takeWhile (· ≠ '.')
  let zeros := s.drop (whole.length + 1)
  if zeros ≠ [] && zeros.all (· = '0') then whole else s

/-- An integer between blanks: with a sign, leading zeros, a fraction of zeros and underscores. A minus may also stand
behind the zeros, if it is the only one. -/
def integer? (s : List Char) : Option Int := do
  let (negative, body) := Decimal.takeMinus (← withoutPlus? (Text.trim s))
  let whole := withoutZeroFraction (← withoutLeadingZeros? body)
  let digits := (ungrouped? whole).getD whole
  plainInteger? (if negative then '-' :: digits else digits)

/-- A count of seconds: an integer, or a double with a point. -/
def seconds? (s : List Char) : Option Quantity :=
  let (negative, body) := Decimal.takeSign s
  let digits := body.takeWhile Char.isDigit
  match body.drop digits.length with
  | [] =>
    if digits = [] then none
    else
      let n : Int := Decimal.natOfDigits digits
      some (.int (if negative then -n else n))
  | '.' :: _ => (plainDouble? s).map .float
  | _ => none

end SupplyPlan.Web.Numeral
