import SupplyPlan.Calendar.Search
import SupplyPlan.Time.Arithmetic

namespace SupplyPlan

/-- A shift calendar with at least one shift and the number of dates it is searched for working time, which messages
show as it was given. -/
structure ShiftClock where
  calendar : ShiftCalendar
  lookback : Int
  given : Amount
  hasShifts : calendar.shifts ≠ []
  lookback_pos : 1 ≤ lookback

namespace ShiftClock

/-- Uses up working time from the cursor towards the past, window by window. -/
def walk (clock : ShiftClock) (offset : Option Int) (cursor remaining : Int) :
    Except PlanError Instant :=
  if 0 < remaining then
    match clock.calendar.latestWindow offset.isSome cursor clock.lookback.toNat with
    | .error e => .error e
    | .ok none => do
      let reached ← Instant.ofMicros cursor offset
      .error (.calendarUnavailable clock.calendar.id (.noWindow clock.given reached))
    | .ok (some w) =>
      let taken := min w.length remaining
      walk clock offset (w.stop - taken) (remaining - taken)
  else Instant.ofMicros cursor offset
termination_by remaining.toNat
decreasing_by
  have := w.start_lt_stop
  simp only [Window.length] at *
  omega

end ShiftClock

/-- A calendar of the caller's own: any way to take working time away from an instant, and an answer of some kind to
other arguments. It may fail as it likes, but not as if planning data were missing, of which it has none. -/
structure CalendarRule where
  subtract : Instant → Duration → Except PlanError Instant
  subtractOther : Moment → Span → Except PlanError Moment
  missesNoData : ∀ finish d subject fault, subtract finish d ≠ .error (.lookupFailed subject fault)

/-- A calendar that turns working time into instants: one without breaks, one made of shifts, one on which work takes a
fixed multiple of its time, one that is closed for a stated reason, or one of the caller's own. -/
inductive WorkingCalendar where
  | continuous (id : Option Text)
  | shifts (clock : ShiftClock)
  /-- Shifts that cannot be searched, because the number of dates to search is no whole one. -/
  | unsearchable (calendar : ShiftCalendar)
  | stretched (factor : Amount)
  | closed (ref reason : Text)
  | rule (r : CalendarRule)

/-- The name of the calendar that never pauses. -/
def continuousId : Text := "24H"

namespace WorkingCalendar

/-- The shifts of a calendar, searched the given number of dates back, but at least one. -/
def ofShifts (calendar : ShiftCalendar) (lookback : Amount) : Except PlanError WorkingCalendar :=
  if hasShifts : calendar.shifts ≠ [] then do
    let given ← lookback.larger (.proper (.int 1))
    match given with
    | .proper (.int n) =>
      return .shifts { calendar, lookback := max n 1, given, hasShifts, lookback_pos := by omega }
    | .other (.json (.bool _)) =>
      return .shifts { calendar, lookback := 1, given, hasShifts, lookback_pos := by omega }
    | _ => return .unsearchable calendar
  else .error (.calendarUnavailable calendar.id .noShifts)

def id? : WorkingCalendar → Option Text
  | continuous id => id
  | shifts clock => clock.calendar.id
  | unsearchable calendar => calendar.id
  | stretched _ | closed .. | rule _ => none

def refuseNegative (d : Duration) : Except PlanError Unit :=
  if d.isNegative then .error (.invalidRequest (.negativeWorkingTime d)) else .ok ()

/-- The latest instant at which work of the given length has to start to end at `finish`. -/
def subtract (calendar : WorkingCalendar) (finish : Instant) (d : Duration) :
    Except PlanError Instant :=
  match calendar with
  | continuous _ => do
    refuseNegative d
    finish.minus d
  | shifts clock => do
    refuseNegative d
    clock.walk finish.offset finish.micros d.micros
  | unsearchable _ => do
    refuseNegative d
    if 0 < d.micros then .error .typeMismatch else return finish
  | stretched factor => do finish.minus (← d.scale (← factor.toQuantity))
  | closed ref reason => .error (.calendarUnavailable (some ref) (.other reason))
  | rule r => r.subtract finish d

/-- As `subtract`, for arguments of any kind. Dates can be counted back without breaks only: a walk through shifts asks
for the time of day as soon as there is work to place. -/
def subtractGiven (calendar : WorkingCalendar) (finish : Moment) (d : Span) : Except PlanError Moment :=
  match calendar, finish, d with
  | closed ref reason, _, _ => .error (.calendarUnavailable (some ref) (.other reason))
  | calendar, .proper finish, .proper d => .proper <$> calendar.subtract finish d
  | stretched factor, finish, d => do finish.minusSpan (← d.times factor)
  | rule r, finish, d => r.subtractOther finish d
  | _, _, .other _ => .error .typeMismatch
  | continuous _, finish, .proper d => do
    refuseNegative d
    finish.minus d
  | shifts _, finish, .proper d => do
    refuseNegative d
    if 0 < d.micros then .error .missingPart else return finish
  | unsearchable _, finish, .proper d => do
    refuseNegative d
    if 0 < d.micros then .error .typeMismatch else return finish

theorem subtractGiven_proper (calendar : WorkingCalendar) (finish : Instant) (d : Duration) :
    calendar.subtractGiven (.proper finish) (.proper d) = .proper <$> calendar.subtract finish d := by
  cases calendar <;> rfl

end WorkingCalendar

end SupplyPlan
