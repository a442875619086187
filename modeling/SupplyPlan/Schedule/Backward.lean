import SupplyPlan.Schedule.Basic
import SupplyPlan.Schedule.Request

namespace SupplyPlan

/-- Takes working time away from an instant. -/
abbrev WorkingTime := Instant → Duration → Except PlanError Instant

/-- Takes working time on the calendar of a reference away from an instant. -/
abbrev CalendarLookup := Option Text → WorkingTime

/-- What a chain is scheduled on. -/
structure Scheduler where
  calendars : CalendarLookup
  fallback : WorkingTime

/-- The time that continues without breaks, the last resort of a scheduler. -/
def continuousTime : WorkingCalendar := .continuous (some continuousId)

/-- The working time of a step: its estimate, which must not be negative, and an addition. -/
def Step.workingTime (step : Step) (quantity : Amount) (addition : Option Duration) :
    Except PlanError Duration := do
  let d ← (← step.estimate quantity).toExcept
  if d.isNegative then .error (.invalidRequest (.negativeEstimate step.id d))
  else
    match addition with
    | some extra => d.add extra
    | none => .ok d

namespace Scheduler

open Logged (log)

/-- Works on the fallback calendar, and on continuous time if that one is unavailable too. Nothing of an abandoned walk
is kept: both start from the full span. -/
def placeOnFallback (s : Scheduler) (step : Step) (finish : Instant) (d : Duration) :
    Logged Placement :=
  match s.fallback finish d with
  | .ok start => return { step := step.id, start, onFallback := true }
  | .error (.calendarUnavailable ref fault) => do
    log (.fallbackUnavailable step.id (.calendarUnavailable ref fault))
    let start ← continuousTime.subtract finish d
    return { step := step.id, start, onFallback := true }
  | .error e => throw e

/-- Places a step of the given length so that it ends at `finish`. -/
def place (s : Scheduler) (step : Step) (finish : Instant) (d : Duration) : Logged Placement :=
  match s.calendars step.calendar finish d with
  | .ok start => return { step := step.id, start, onFallback := false }
  | .error (.calendarUnavailable ref fault) => do
    log (.calendarUnavailable step.id (.calendarUnavailable ref fault))
    s.placeOnFallback step finish d
  | .error e => throw e

/-- Places steps, given from last to first, before the cursor; the addition goes to the first of them or is dropped.
Returns the placements and where the cursor stops. -/
def placeAll (s : Scheduler) (quantity : Amount) :
    Option Duration → List Step → Instant → Logged (List Placement × Instant)
  | _, [], cursor => return ([], cursor)
  | addition, step :: earlier, cursor => do
    if ← step.isActive cursor then
      let d ← step.workingTime quantity addition
      let p ← s.place step cursor d
      log (.stepScheduled step.id p.start cursor)
      let (ps, stop) ← s.placeAll quantity none earlier p.start
      return (p :: ps, stop)
    else
      log (.stepInactive step.id cursor)
      s.placeAll quantity none earlier cursor

/-- One step of the walk, without its events. -/
theorem result_placeAll_cons (s : Scheduler) (quantity : Amount) (addition : Option Duration)
    (step : Step) (earlier : List Step) (cursor : Instant) :
    (s.placeAll quantity addition (step :: earlier) cursor).result = (do
      if ← step.isActive cursor then
        let d ← step.workingTime quantity addition
        let p ← (s.place step cursor d).result
        let (ps, stop) ← (s.placeAll quantity none earlier p.start).result
        return (p :: ps, stop)
      else (s.placeAll quantity none earlier cursor).result) := by
  simp only [placeAll, Logged.result_bind, Logged.result_lift]
  refine bind_congr fun active => ?_
  cases active
  · simp only [Bool.false_eq_true, if_false, Logged.result_bind, Logged.result_log]
    rfl
  · simp only [if_true, Logged.result_bind, Logged.result_lift, Logged.result_log]
    rfl

/-- Schedules a checked chain. -/
def scheduleChain (s : Scheduler) (c : Chain) : Logged Schedule := do
  let (placements, start) ←
    s.placeAll (.proper c.quantity) (some c.trailingOffset) c.steps.reverse c.completion
  return { completion := c.completion, start, placements }

def schedule (s : Scheduler) (r : ScheduleRequest) : Logged Schedule := do
  s.scheduleChain (← r.check)

end Scheduler

end SupplyPlan
