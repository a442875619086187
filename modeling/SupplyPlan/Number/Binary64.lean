import SupplyPlan.Number.Rounding

namespace SupplyPlan

/-- The normal form of a finite double: 53 bits at most, and fewer only at the smallest exponent. -/
def OnGrid (m : Nat) (q : Int) : Prop :=
  m < Nat.pow 2 53 ∧ -1074 ≤ q ∧ q ≤ 971 ∧ (Nat.pow 2 52 ≤ m ∨ q = -1074)

instance (m : Nat) (q : Int) : Decidable (OnGrid m q) :=
  inferInstanceAs (Decidable (_ ∧ _ ∧ _ ∧ _))

/-- A number in double precision by its exact value: a finite one is a sign and `m * 2 ^ q`, and arithmetic rounds the
exact result once. -/
inductive Binary64 where
  | nan
  | infinite (negative : Bool)
  | finite (negative : Bool) (m : Nat) (q : Int) (onGrid : OnGrid m q)
  deriving DecidableEq, Repr

/-- An exact value on the extended line: below everything, `n * 2 ^ q`, or above everything. -/
inductive Exact where
  | below
  | dyadic (n : Int) (q : Int)
  | above
  deriving DecidableEq, Repr

namespace Exact

/-- Both values are scaled to the smaller exponent before they are compared. -/
def lt : Exact → Exact → Bool
  | .below, .below => false
  | .below, _ => true
  | _, .below => false
  | .above, _ => false
  | _, .above => true
  | .dyadic n q, .dyadic n' q' => n * Int.pow 2 (q - q').toNat < n' * Int.pow 2 (q' - q).toNat

def eq : Exact → Exact → Bool
  | .below, .below => true
  | .above, .above => true
  | .dyadic n q, .dyadic n' q' => n * Int.pow 2 (q - q').toNat = n' * Int.pow 2 (q' - q).toNat
  | _, _ => false

end Exact

/-- Numerator and denominator of `m * 2 ^ q`. -/
def scaleByTwo (m : Nat) (q : Int) : Nat × Nat :=
  (m * Nat.pow 2 q.toNat, Nat.pow 2 (-q).toNat)

namespace Binary64

/-- The value `m * 2 ^ q` if it is on the grid, else infinity: the one way to leave the grid after rounding is
upwards. -/
def ofGrid (negative : Bool) (m : Nat) (q : Int) : Binary64 :=
  if h : OnGrid m q then .finite negative m q h else .infinite negative

/-- The exponent at which `num / den` has 53 bits, but no smaller than the grid allows. -/
def gridExponent (num den : Nat) : Int :=
  let guess := max ((Nat.log2 num : Int) - Nat.log2 den - 53) (-1074)
  if num * Nat.pow 2 (-guess).toNat < den * Nat.pow 2 guess.toNat * Nat.pow 2 53 then guess else guess + 1

/-- The double nearest to `± num / den`, ties to the even significand. -/
def ofRatio (negative : Bool) (num den : Nat) : Binary64 :=
  if num = 0 then .finite negative 0 (-1074) (by decide)
  else
    let q := gridExponent num den
    let m := (roundHalfEven (num * Nat.pow 2 (-q).toNat : Nat) (den * Nat.pow 2 q.toNat)).toNat
    if m = Nat.pow 2 53 then ofGrid negative (Nat.pow 2 52) (q + 1) else ofGrid negative m q

/-- The double nearest to `± m * 2 ^ q`. -/
def ofScaled (negative : Bool) (m : Nat) (q : Int) : Binary64 :=
  let (num, den) := scaleByTwo m q
  ofRatio negative num den

/-- The nearest double; infinite when the integer is beyond the largest one. -/
def ofInt (n : Int) : Binary64 := ofRatio (n < 0) n.natAbs 1

def isFinite : Binary64 → Bool
  | .finite .. => true
  | _ => false

/-- The exact value; a NaN has none. -/
def value? : Binary64 → Option Exact
  | .nan => none
  | .infinite true => some .below
  | .infinite false => some .above
  | .finite negative m q _ => some (.dyadic (if negative then -m else m) q)

def mul : Binary64 → Binary64 → Binary64
  | .nan, _ => .nan
  | _, .nan => .nan
  | .finite s m q _, .finite s' m' q' _ => ofScaled (s != s') (m * m') (q + q')
  | .infinite s, .infinite s' => .infinite (s != s')
  | .infinite s, .finite s' m _ _ => if m = 0 then .nan else .infinite (s != s')
  | .finite s' m _ _, .infinite s => if m = 0 then .nan else .infinite (s != s')

def neg : Binary64 → Binary64
  | .nan => .nan
  | .infinite s => .infinite !s
  | .finite s m q h => .finite (!s) m q h

/-- The sum of two doubles; a zero is negative only if both of them are. -/
def add : Binary64 → Binary64 → Binary64
  | .nan, _ => .nan
  | _, .nan => .nan
  | .finite s m q _, .finite s' m' q' _ =>
    let unit := min q q'
    let scaled (negative : Bool) (m : Nat) (q : Int) : Int :=
      (if negative then -(m : Int) else m) * Int.pow 2 (q - unit).toNat
    let n := scaled s m q + scaled s' m' q'
    if n = 0 then ofRatio (s && s') 0 1 else ofScaled (n < 0) n.natAbs unit
  | .infinite s, .infinite s' => if s = s' then .infinite s else .nan
  | .infinite s, .finite .. => .infinite s
  | .finite .., .infinite s => .infinite s

/-- The integral part, cut toward zero, and the remaining fraction as numerator over a power of two; both carry the
sign. -/
def parts (negative : Bool) (m : Nat) (q : Int) : Int × Int × Nat :=
  let (num, den) := scaleByTwo m q
  let sign : Int := if negative then -1 else 1
  (sign * (num / den : Nat), sign * (num % den : Nat), den)

/-- The value as an integer, if it is one. -/
def toInt? : Binary64 → Option Int
  | .finite negative m q _ =>
    let (whole, rest, _) := parts negative m q
    if rest = 0 then some whole else none
  | _ => none

/-- The integer nearest to `k` times the value, ties to even. -/
def scaleRound (k : Int) (negative : Bool) (m : Nat) (q : Int) : Int :=
  let (num, den) := scaleByTwo m q
  roundHalfEven (k * (if negative then -(num : Int) else num)) den

end Binary64

end SupplyPlan
