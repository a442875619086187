import SupplyPlan.Number.Binary64
import SupplyPlan.Text.Blank

namespace SupplyPlan

/-- The number `coefficient * 10 ^ exponent`. -/
structure Decimal where
  coefficient : Nat
  exponent : Int
  deriving DecidableEq, Repr

namespace Decimal

def digits (d : Decimal) : List Char := Nat.toDigits 10 d.coefficient

/-- The power of ten of the first digit. -/
def order (d : Decimal) : Int := d.digits.length - 1 + d.exponent

/-- `10 ^ e ≤ num / den`. -/
def reaches (num den : Nat) (e : Int) : Bool :=
  den * Nat.pow 10 e.toNat ≤ num * Nat.pow 10 (-e).toNat

/-- The power of ten of the first digit of `num / den`: an estimate from the binary length, which is at most one off,
and its correction. -/
def orderOfRatio (num den : Nat) : Int :=
  let guess := ((Nat.log2 num : Int) - Nat.log2 den) * 30103 / 100000
  if !reaches num den guess then guess - 1
  else if reaches num den (guess + 1) then guess + 1
  else guess

/-- `num / den` with a count of significant digits, a half going to the even neighbour. -/
def ofRatio (count num den : Nat) : Decimal :=
  let exponent := orderOfRatio num den - count + 1
  { coefficient :=
      (roundHalfEven (num * Nat.pow 10 (-exponent).toNat : Nat) (den * Nat.pow 10 exponent.toNat)).toNat,
    exponent }

/-- The reals that round to a double: bounds and value in quarters of its last place, and whether the bounds belong to
it. -/
structure RoundingInterval where
  low : Nat
  value : Nat
  high : Nat
  unit : Int
  closed : Bool

/-- Below a power of two the grid is finer, so the lower bound is nearer. -/
def RoundingInterval.of (m : Nat) (q : Int) : RoundingInterval where
  low := if m = Nat.pow 2 52 ∧ q ≠ -1074 then 4 * m - 1 else 4 * m - 2
  value := 4 * m
  high := 4 * m + 2
  unit := q - 2
  closed := m % 2 = 0

/-- The point of the decimal grid next to the value that reads back, if the grid has one: of two the nearer, and the
even one of two equally near. -/
def RoundingInterval.onGrid? (r : RoundingInterval) (exponent : Int) : Option Decimal :=
  let ours (n : Nat) := n * Nat.pow 10 exponent.toNat * Nat.pow 2 (-r.unit).toNat
  let theirs (n : Nat) := n * Nat.pow 2 r.unit.toNat * Nat.pow 10 (-exponent).toNat
  let inside (n : Nat) : Bool :=
    if r.closed then theirs r.low ≤ ours n && ours n ≤ theirs r.high
    else theirs r.low < ours n && ours n < theirs r.high
  let below := theirs r.value / ours 1
  let above := below + 1
  let preferAbove : Bool :=
    let down := theirs r.value - ours below
    let up := ours above - theirs r.value
    up < down || (up = down && below % 2 = 1)
  match inside below, inside above with
  | true, true => some ⟨if preferAbove then above else below, exponent⟩
  | true, false => some ⟨below, exponent⟩
  | false, true => some ⟨above, exponent⟩
  | false, false => none

/-- Seventeen significant digits always suffice, so the first grid with a hit has at most that many. -/
def shortest (m : Nat) (q : Int) : Decimal :=
  let (num, den) := scaleByTwo m q
  let order := orderOfRatio num den
  let interval := RoundingInterval.of m q
  ((List.range 17).findSome? fun (n : Nat) => interval.onGrid? (order - n)).getD (ofRatio 17 num den)

end Decimal

/-- How a double is written: the powers of ten of the first digit between which the form is positional, and whether
whole numbers keep a fraction. -/
structure FloatStyle where
  positionalFrom : Int
  positionalBelow : Int
  keepsFraction : Bool

namespace FloatStyle

/-- Positional from 0.0001 to below 1e+16, and whole numbers end in `.0`. -/
def full : FloatStyle := ⟨-4, 16, true⟩

/-- Six significant digits, positional from 0.0001 to below 1e+06, no trailing zeros. -/
def general : FloatStyle := ⟨-4, 6, false⟩

/-- A sign and at least two digits. -/
def exponentText (e : Int) : List Char :=
  let digits := Nat.toDigits 10 e.natAbs
  'e' :: (if e < 0 then '-' else '+') :: (List.replicate (2 - digits.length) '0' ++ digits)

/-- Moves trailing zeros of the digits into the exponent. -/
def dropZeros (digits : List Char) (exponent : Int) : List Char × Int :=
  let kept := (digits.reverse.dropWhile (· = '0')).reverse
  (kept, exponent + (digits.length - kept.length : Nat))

def decimalText (style : FloatStyle) (d : Decimal) : List Char :=
  let (digits, exponent) := dropZeros d.digits d.exponent
  let order : Int := digits.length - 1 + exponent
  if order < style.positionalFrom || style.positionalBelow ≤ order then
    let fraction := digits.drop 1
    digits.take 1 ++ (if fraction = [] then [] else '.' :: fraction) ++ exponentText order
  else if 0 ≤ exponent then
    digits ++ List.replicate exponent.toNat '0' ++ (if style.keepsFraction then ['.', '0'] else [])
  else if 0 ≤ order then
    digits.take (order.toNat + 1) ++ '.' :: digits.drop (order.toNat + 1)
  else
    '0' :: '.' :: List.replicate (-order - 1).toNat '0' ++ digits

end FloatStyle

namespace Binary64

/-- Text in a style, the digits of a finite non-zero value being chosen by a function of it. -/
def textWith (style : FloatStyle) (choose : Nat → Int → Decimal) : Binary64 → String
  | .nan => "nan"
  | .infinite negative => if negative then "-inf" else "inf"
  | .finite negative m q _ =>
    let body :=
      if m = 0 then (if style.keepsFraction then ['0', '.', '0'] else ['0'])
      else style.decimalText (choose m q)
    String.ofList (if negative then '-' :: body else body)

/-- The fewest digits that read back. -/
def text (x : Binary64) : String := x.textWith .full .shortest

/-- Six significant digits. -/
def generalText (x : Binary64) : String :=
  x.textWith .general fun m q => let (num, den) := scaleByTwo m q; .ofRatio 6 num den

/-- The double nearest to a decimal. Beyond 400 powers of ten nothing but infinity or zero is near, so no large power is
computed. -/
def ofDecimal (negative : Bool) (d : Decimal) : Binary64 :=
  if d.coefficient = 0 then ofRatio negative 0 1
  else if 400 < d.order then .infinite negative
  else if d.order < -400 then ofRatio negative 0 1
  else ofRatio negative (d.coefficient * Nat.pow 10 d.exponent.toNat) (Nat.pow 10 (-d.exponent).toNat)

end Binary64

namespace Decimal

/-- Digits at the start of a text and the rest, with one underscore allowed between two digits. -/
def digitsAfter (afterDigit : Bool) : List Char → List Char × List Char
  | [] => ([], [])
  | c :: rest =>
    if c = '_' && afterDigit && rest.head?.any Char.isDigit then digitsAfter false rest
    else if c.isDigit then
      let (digits, left) := digitsAfter true rest
      (c :: digits, left)
    else ([], c :: rest)

def takeDigits (s : List Char) : List Char × List Char := digitsAfter false s

def natOfDigits (digits : List Char) : Nat :=
  digits.foldl (fun n c => 10 * n + (c.toNat - '0'.toNat)) 0

/-- Splits off a minus; true if there is one. -/
def takeMinus : List Char → Bool × List Char
  | '-' :: rest => (true, rest)
  | rest => (false, rest)

/-- Splits off a sign; true is minus. -/
def takeSign : List Char → Bool × List Char
  | '-' :: rest => (true, rest)
  | '+' :: rest => (false, rest)
  | rest => (false, rest)

/-- The exponent at the start of a text, zero when there is none. -/
def takeExponent? : List Char → Option (Int × List Char)
  | 'e' :: rest | 'E' :: rest =>
    let (negative, rest) := takeSign rest
    match takeDigits rest with
    | ([], _) => none
    | (digits, rest) =>
      let n : Int := natOfDigits digits
      some (if negative then -n else n, rest)
  | rest => some (0, rest)

/-- Reads digits with at most one point and an optional exponent up to the end of the text. -/
def read? (s : List Char) : Option Decimal :=
  let (whole, rest) := takeDigits s
  let (fraction, rest) :=
    match rest with
    | '.' :: rest => takeDigits rest
    | _ => ([], rest)
  if whole = [] && fraction = [] then none
  else
    match takeExponent? rest with
    | some (e, []) => some ⟨natOfDigits (whole ++ fraction), e - fraction.length⟩
    | _ => none

end Decimal

/-- Replaces the digits of all scripts by ASCII ones. -/
def asciiDigits (s : List Char) : List Char :=
  s.map fun c => ((Text.digitValue? c).map Nat.digitChar).getD c

/-- Reads a signed decimal or one of the words for infinity and NaN. -/
def Binary64.read? (s : List Char) : Option Binary64 :=
  let (negative, body) := Decimal.takeSign s
  let word := String.ofList (body.map Char.toLower)
  if word = "inf" || word = "infinity" then some (.infinite negative)
  else if word = "nan" then some .nan
  else (Decimal.read? body).map (Binary64.ofDecimal negative)

end SupplyPlan
