import SupplyPlan.Number.Decimal

namespace SupplyPlan

/-- A number that keeps its kind. -/
inductive Quantity where
  | int (n : Int)
  | float (x : Binary64)
  deriving DecidableEq, Repr

namespace Quantity

def value? : Quantity → Option Exact
  | .int n => some (.dyadic n 0)
  | .float x => x.value?

/-- Less than in value; nothing is less than a NaN or greater than one. -/
def lt (a b : Quantity) : Bool :=
  match a.value?, b.value? with
  | some x, some y => x.lt y
  | _, _ => false

/-- Equal in value, whatever the kinds; a NaN equals nothing. -/
def same (a b : Quantity) : Bool :=
  match a.value?, b.value? with
  | some x, some y => x.eq y
  | _, _ => false

/-- The first number unless the second is greater. -/
def larger (a b : Quantity) : Quantity := if a.lt b then b else a

/-- The first number unless the second is less. -/
def smaller (a b : Quantity) : Quantity := if b.lt a then b else a

def isNegative (a : Quantity) : Bool := a.lt (.int 0)

/-- The nearest double, if the number is not an integer beyond the largest one. -/
def toBinary64? : Quantity → Option Binary64
  | .int n =>
    match Binary64.ofInt n with
    | .infinite _ => none
    | x => some x
  | .float x => some x

/-- Digits of an integer; the fewest digits that read back of a double. -/
def text : Quantity → String
  | .int n => toString n
  | .float x => x.text

/-- At most six significant digits. -/
def generalText : Quantity → String
  | .int n => (Binary64.ofInt n).generalText
  | .float x => x.generalText

/-- Products of integers are exact; any other is taken in doubles, if both factors have one. -/
def mul? : Quantity → Quantity → Option Quantity
  | .int a, .int b => some (.int (a * b))
  | a, b => do return .float ((← a.toBinary64?).mul (← b.toBinary64?))

/-- Sums of integers are exact; any other is taken in doubles, if both numbers have one. -/
def add? : Quantity → Quantity → Option Quantity
  | .int a, .int b => some (.int (a + b))
  | a, b => do return .float ((← a.toBinary64?).add (← b.toBinary64?))

def sub? : Quantity → Quantity → Option Quantity
  | .int a, .int b => some (.int (a - b))
  | a, b => do return .float ((← a.toBinary64?).add (← b.toBinary64?).neg)

end Quantity

end SupplyPlan
