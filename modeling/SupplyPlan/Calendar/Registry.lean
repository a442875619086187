import SupplyPlan.Calendar.Clock
import SupplyPlan.Store.Basic

namespace SupplyPlan

def defaultLookback : Int := 366

structure CalendarRegistry where
  stored : Store ShiftCalendar
  bound : List (Text × WorkingCalendar)
  /-- How many dates a shift calendar is searched for working time. -/
  lookback : Amount

namespace CalendarRegistry

/-- A later binding of a reference replaces an earlier one; what is bound to no reference is never looked up. -/
def bind (r : CalendarRegistry) (ref : Option Text) (calendar : WorkingCalendar) : CalendarRegistry :=
  match ref with
  | some ref => { r with bound := (ref, calendar) :: r.bound }
  | none => r

def bound? (r : CalendarRegistry) (ref : Text) : Option WorkingCalendar :=
  (r.bound.find? (·.1 = ref)).map (·.2)

def resolve (r : CalendarRegistry) : Option Text → Except PlanError WorkingCalendar
  | none => .error (.calendarUnavailable none .unassigned)
  | some ref =>
    match r.bound? ref with
    | some calendar => .ok calendar
    | none =>
      match r.stored.get (.text ref) with
      | .ok calendar => WorkingCalendar.ofShifts calendar r.lookback
      | .error (.recordNotFound _) => .error (.calendarUnavailable (some ref) .unresolved)
      | .error e => .error e

def subtract (r : CalendarRegistry) (ref : Option Text) (finish : Instant) (d : Duration) :
    Except PlanError Instant := do
  (← r.resolve ref).subtract finish d

/-- The calendar is looked up before the arguments are looked at. -/
def subtractGiven (r : CalendarRegistry) (ref : Option Text) (finish : Moment)
    (d : Span) : Except PlanError Moment := do
  (← r.resolve ref).subtractGiven finish d

end CalendarRegistry

end SupplyPlan
