import SupplyPlan.Time.Date

namespace SupplyPlan

/-- A time of day. -/
structure TimeOfDay where
  micros : Int
  inRange : 0 ≤ micros ∧ micros < dayMicros
  deriving DecidableEq, Repr

namespace TimeOfDay

def ofMicros? (n : Int) : Option TimeOfDay :=
  if h : 0 ≤ n ∧ n < dayMicros then some ⟨n, h⟩ else none

def hour (h : Nat) (inDay : h < 24) : TimeOfDay :=
  ⟨h * 3600000000, by unfold dayMicros; omega⟩

def text (t : TimeOfDay) : String :=
  let s := (t.micros / 1000000).toNat
  Text.padded 2 (s / 3600) ++ ":" ++ Text.padded 2 (s / 60 % 60) ++ ":" ++ Text.padded 2 (s % 60)
    ++ Text.fraction (t.micros % 1000000).toNat

end TimeOfDay

/-- Microseconds of the local clock since 0001-01-01T00:00:00 and, for an aware instant, minutes of the local clock
ahead of universal time. These are whole minutes and the same at all times: zones with rules for the summer are not
modelled. -/
structure Instant where
  micros : Int
  offset : Option Int
  inRange : 0 ≤ micros ∧ micros < dateCount * dayMicros
  deriving DecidableEq, Repr

namespace Instant

def ofMicros? (n : Int) (offset : Option Int) : Option Instant :=
  if h : 0 ≤ n ∧ n < dateCount * dayMicros then some ⟨n, offset, h⟩ else none

theorem ofMicros?_eq_some_iff {n : Int} {offset : Option Int} {t : Instant} :
    ofMicros? n offset = some t ↔ t.micros = n ∧ t.offset = offset := by
  constructor
  · intro h
    unfold ofMicros? at h
    split at h
    · exact (Option.some.inj h) ▸ ⟨rfl, rfl⟩
    · exact absurd h (by simp)
  · rintro ⟨rfl, rfl⟩
    exact dif_pos t.inRange

/-- The naive instant at a time of a date. -/
def combine (d : Date) (t : TimeOfDay) : Instant where
  micros := d.day * dayMicros + t.micros
  offset := none
  inRange := by
    have hday := d.inRange
    have htime := t.inRange
    unfold dateCount dayMicros at *
    omega

def isAware (t : Instant) : Bool := t.offset.isSome

/-- The local date. -/
def date (t : Instant) : Date where
  day := t.micros / dayMicros
  inRange := by
    have h := t.inRange
    unfold dateCount dayMicros at *
    omega

/-- The local time of day. -/
def timeOfDay (t : Instant) : TimeOfDay where
  micros := t.micros % dayMicros
  inRange := by
    unfold dayMicros
    omega

/-- Microseconds on the clock that two comparable instants share: universal time for aware ones. -/
def onCommonClock (t : Instant) : Int :=
  t.micros - (t.offset.getD 0) * 60000000

/-- Equality as points in time; a naive and an aware instant are never equal. -/
def same (t u : Instant) : Bool :=
  t.isAware = u.isAware && t.onCommonClock = u.onCommonClock

/-- Sign, hours and minutes. -/
def offsetText (minutes : Int) : String :=
  (if minutes < 0 then "-" else "+") ++ Text.padded 2 (minutes.natAbs / 60) ++ ":"
    ++ Text.padded 2 (minutes.natAbs % 60)

/-- Date, separator, time and, for an aware instant, its offset as the given function writes it. -/
def textWith (separator : String) (writeOffset : Int → String) (t : Instant) : String :=
  t.date.text ++ separator ++ t.timeOfDay.text ++ (t.offset.map writeOffset).getD ""

def isoText (t : Instant) : String := t.textWith "T" offsetText

def text (t : Instant) : String := t.textWith " " offsetText

/-- As `isoText`, but universal time is marked by `Z`. -/
def zuluText (t : Instant) : String :=
  t.textWith "T" fun minutes => if minutes = 0 then "Z" else offsetText minutes

/-- Hours and minutes of the local clock. -/
def clockText (t : Instant) : String :=
  let minutes := (t.timeOfDay.micros / 60000000).toNat
  Text.padded 2 (minutes / 60) ++ ":" ++ Text.padded 2 (minutes % 60)

/-- To the minute; the year is not padded. -/
def minuteText (t : Instant) : String :=
  let (year, month, day) := t.date.civil
  toString year ++ "-" ++ Text.padded 2 month ++ "-" ++ Text.padded 2 day ++ " " ++ t.clockText

end Instant

end SupplyPlan
