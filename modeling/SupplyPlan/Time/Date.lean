import SupplyPlan.Time.Duration

namespace SupplyPlan

/-- The number of dates. -/
def dateCount : Int := 3652059

/-- A date of the proleptic Gregorian calendar, up to 9999-12-31, as the number of days since 0001-01-01, which is a
Monday. -/
structure Date where
  day : Int
  inRange : 0 ≤ day ∧ day < dateCount
  deriving DecidableEq, Repr

/-- Days since a Monday fall on the weekday that is the remainder by seven. -/
def weekdayOf (day : Int) : Int := day % 7

namespace Date

def ofDay? (n : Int) : Option Date :=
  if h : 0 ≤ n ∧ n < dateCount then some ⟨n, h⟩ else none

def isLeap (year : Nat) : Bool :=
  year % 4 = 0 && (year % 100 != 0 || year % 400 = 0)

def monthLengths (year : Nat) : List Nat :=
  [31, if isLeap year then 29 else 28, 31, 30, 31, 30, 31, 31, 30, 31, 30, 31]

def daysBeforeYear (year : Nat) : Nat :=
  let y := year - 1
  y * 365 + y / 4 - y / 100 + y / 400

/-- The date of a year, month and day of the month, if there is one. -/
def ofCivil? (year month day : Nat) : Option Date :=
  let lengths := monthLengths year
  if 1 ≤ year && 1 ≤ month && 1 ≤ day && day ≤ (lengths[month - 1]?).getD 0 then
    ofDay? (daysBeforeYear year + (lengths.take (month - 1)).foldl (· + ·) 0 + (day - 1) : Nat)
  else none

/-- Month and day of the month of a day of the year, both counted from zero. -/
def splitMonths : List Nat → Nat → Nat × Nat
  | [], n => (0, n)
  | length :: rest, n =>
    if n < length then (0, n)
    else
      let (month, day) := splitMonths rest (n - length)
      (month + 1, day)

/-- The year of a day and the day of that year counted from zero: cycles of 400, 100, 4 and 1 years, where the last day
of a cycle of 400 or 4 years belongs to its last year. -/
def splitYear (day : Nat) : Nat × Nat :=
  let inCycle := day % 146097
  let centuries := min (inCycle / 36524) 3
  let inCentury := inCycle - centuries * 36524
  let inFour := inCentury % 1461
  let years := min (inFour / 365) 3
  (400 * (day / 146097) + 100 * centuries + 4 * (inCentury / 1461) + years + 1, inFour - years * 365)

/-- Year, month and day of the month. -/
def civil (d : Date) : Nat × Nat × Nat :=
  let (year, ofYear) := splitYear d.day.toNat
  let (month, day) := splitMonths (monthLengths year) ofYear
  (year, month + 1, day + 1)

/-- Four, two and two digits. -/
def text (d : Date) : String :=
  let (year, month, day) := d.civil
  Text.padded 4 year ++ "-" ++ Text.padded 2 month ++ "-" ++ Text.padded 2 day

/-- Adds a date to an ascending list without duplicates. -/
def insertInto (d : Date) : List Date → List Date
  | [] => [d]
  | e :: rest =>
    if d.day < e.day then d :: e :: rest
    else if d.day = e.day then e :: rest
    else e :: insertInto d rest

theorem mem_insertInto {d e : Date} {days : List Date} :
    e ∈ insertInto d days ↔ e = d ∨ e ∈ days := by
  induction days with
  | nil => simp [insertInto]
  | cons head rest ih =>
    unfold insertInto
    split
    · simp
    · split
      · next hsame =>
        have : d = head := by cases d; cases head; simp_all
        subst this
        simp
      · simp only [List.mem_cons, ih]
        constructor <;> rintro (h | h | h) <;> simp [h]

/-- The dates of a list, ascending and without duplicates. -/
def sorted (days : List Date) : List Date := days.foldr insertInto []

theorem mem_sorted {d : Date} {days : List Date} : d ∈ sorted days ↔ d ∈ days := by
  induction days with
  | nil => simp [sorted]
  | cons head rest ih => simpa [sorted, mem_insertInto] using or_congr_right ih

end Date

end SupplyPlan
