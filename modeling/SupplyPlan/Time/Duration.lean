import SupplyPlan.Text.Padded

namespace SupplyPlan

/-- Microseconds in a day. -/
def dayMicros : Int := 86400000000

/-- A span of time. -/
structure Duration where
  micros : Int
  inRange : -999999999 * dayMicros ≤ micros ∧ micros < 1000000000 * dayMicros
  deriving DecidableEq, Repr

namespace Duration

def ofMicros? (n : Int) : Option Duration :=
  if h : -999999999 * dayMicros ≤ n ∧ n < 1000000000 * dayMicros then some ⟨n, h⟩ else none

theorem ofMicros?_eq_some_iff {n : Int} {d : Duration} : ofMicros? n = some d ↔ d.micros = n := by
  constructor
  · intro h
    unfold ofMicros? at h
    split at h
    · exact (Option.some.inj h) ▸ rfl
    · exact absurd h (by simp)
  · rintro rfl
    exact dif_pos d.inRange

theorem ext_micros {d e : Duration} (h : d.micros = e.micros) : d = e := by
  cases d; cases e; simp_all

def zero : Duration := ⟨0, by decide⟩

def minutes (n : Nat) (h : n < 1000000) : Duration :=
  ⟨n * 60000000, by unfold dayMicros; omega⟩

def isNegative (d : Duration) : Bool := d.micros < 0

/-- Whole days, rounded down, so that the remaining parts are not negative. -/
def days (d : Duration) : Int := d.micros / dayMicros

def seconds (d : Duration) : Int := d.micros % dayMicros / 1000000

def microseconds (d : Duration) : Int := d.micros % 1000000

/-- Days if there are any, then hours, minutes and seconds. -/
def text (d : Duration) : String :=
  let s := d.seconds.toNat
  let days :=
    if d.days = 0 then ""
    else toString d.days ++ (if d.days.natAbs = 1 then " day, " else " days, ")
  days ++ toString (s / 3600) ++ ":" ++ Text.padded 2 (s / 60 % 60) ++ ":" ++ Text.padded 2 (s % 60)
    ++ Text.fraction d.microseconds.toNat

end Duration

end SupplyPlan
