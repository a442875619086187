import SupplyPlan.Error

namespace SupplyPlan

/-- A shift that starts on some weekdays (Monday is 0); one that ends at or before its start ends on the next day. -/
structure Shift where
  name : Option Text
  startTime : TimeOfDay
  endTime : TimeOfDay
  weekdays : List Int
  hasWeekday : weekdays ≠ []
  inWeek : ∀ d ∈ weekdays, 0 ≤ d ∧ d ≤ 6
  notEmpty : endTime ≠ startTime
  deriving Repr

/-- Checks the weekdays before the times. -/
def Shift.make (name : Option Text) (startTime endTime : TimeOfDay) (weekdays : List Int) :
    Except PlanError Shift :=
  if hasWeekday : weekdays ≠ [] then
    if inWeek : ∀ d ∈ weekdays, 0 ≤ d ∧ d ≤ 6 then
      if notEmpty : endTime ≠ startTime then
        .ok { name, startTime, endTime, weekdays, hasWeekday, inWeek, notEmpty }
      else .error (.invalidValue .emptyShift)
    else .error (.invalidValue .weekdayOutOfWeek)
  else .error (.invalidValue .noWeekday)

/-- Shifts and the dates on which none of them starts. -/
structure ShiftCalendar where
  /-- Nothing for a calendar that cannot be referred to. -/
  id : Option Text
  name : Option Text
  shifts : List Shift
  nonWorkingDays : List Date
  deriving Repr

/-- A span of working time in microseconds of the local clock; the end does not belong to it. -/
structure Window where
  start : Int
  stop : Int
  start_lt_stop : start < stop
  deriving DecidableEq, Repr

namespace Window

def length (w : Window) : Int := w.stop - w.start

/-- The part of a window before a limit. -/
def before? (limit : Int) (w : Window) : Option Window :=
  if h : w.start < limit then
    some ⟨w.start, min w.stop limit, by have := w.start_lt_stop; omega⟩
  else none

end Window

/-- The window of a shift that starts on a date. -/
def Shift.window (s : Shift) (day : Int) : Window :=
  if h : s.endTime.micros ≤ s.startTime.micros then
    { start := day * dayMicros + s.startTime.micros
      stop := (day + 1) * dayMicros + s.endTime.micros
      start_lt_stop := by
        have hstart := s.startTime.inRange
        have hend := s.endTime.inRange
        unfold dayMicros at *
        omega }
  else
    { start := day * dayMicros + s.startTime.micros
      stop := day * dayMicros + s.endTime.micros
      start_lt_stop := by omega }

namespace ShiftCalendar

def isWorkingDay (c : ShiftCalendar) (day : Int) : Bool :=
  !c.nonWorkingDays.any (·.day = day)

/-- The windows that start on a date, in the order of the shifts. -/
def windowsOn (c : ShiftCalendar) (day : Int) : List Window :=
  if c.isWorkingDay day then
    (c.shifts.filter (·.weekdays.contains (weekdayOf day))).map (·.window day)
  else []

def addNonWorkingDay (c : ShiftCalendar) (d : Date) : ShiftCalendar :=
  { c with nonWorkingDays := d.insertInto c.nonWorkingDays }

theorem mem_windowsOn {c : ShiftCalendar} {day : Int} {w : Window} :
    w ∈ c.windowsOn day ↔
      c.isWorkingDay day ∧ ∃ s ∈ c.shifts, weekdayOf day ∈ s.weekdays ∧ s.window day = w := by
  unfold windowsOn
  split <;> simp_all [and_assoc]

end ShiftCalendar

end SupplyPlan
