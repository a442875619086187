import SupplyPlan.Number.Quantity
import SupplyPlan.Time.Instant

namespace SupplyPlan.Web

/-- Why a number names no instant. -/
inductive TimestampFault where
  /-- The number lies in the year before the first one. -/
  | yearZero
  | outOfRange
  deriving DecidableEq, Repr

namespace Timestamp

/-- Microseconds from 0001-01-01 to 1970-01-01. -/
def epochMicros : Int := 719162 * dayMicros

/-- The instant a number of microseconds after 1970 began. -/
def ofMicros (micros : Int) : Except TimestampFault Instant :=
  match Instant.ofMicros? (epochMicros + micros) (some 0) with
  | some t => .ok t
  | none =>
    if -366 * dayMicros ≤ epochMicros + micros && epochMicros + micros < 0 then .error .yearZero
    else .error .outOfRange

/-- Numbers beyond this one count milliseconds. -/
def secondsLimit : Nat := 20000000000

/-- Microseconds of a finite double in units of which a second has `perSecond`. The whole units are rounded down and
exact; the fraction above them is taken and multiplied as a double. -/
def fractionMicros (perSecond : Nat) (negative : Bool) (m : Nat) (q : Int) : Int :=
  let (whole, rest, den) := Binary64.parts negative m q
  let microsPerUnit := 1000000 / perSecond
  let below := if rest < 0 then whole - 1 else whole
  let above := if rest < 0 then rest + den else rest
  let micros :=
    match (Binary64.ofRatio false above.toNat den).mul (.ofInt microsPerUnit) with
    | .finite _ m q _ =>
      let (num, den) := scaleByTwo m q
      roundHalfUp num den
    | _ => 0
  below * microsPerUnit + micros

/-- The instant that a number names: seconds since 1970 in universal time, or milliseconds where it is too large for
seconds. -/
def ofQuantity : Quantity → Except TimestampFault Instant
  | .int n => ofMicros (if secondsLimit < n.natAbs then n * 1000 else n * 1000000)
  | .float (.finite negative m q _) =>
    let (num, den) := scaleByTwo m q
    ofMicros (fractionMicros (if secondsLimit * den < num then 1000 else 1) negative m q)
  | .float _ => .error .outOfRange

end Timestamp

end SupplyPlan.Web
