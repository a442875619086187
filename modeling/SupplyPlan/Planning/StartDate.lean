import SupplyPlan.Planning.Planner

namespace SupplyPlan

/-- The outcome of a calculation. A failure names the product or task whose data is missing; then there are no task
starts, and the start is the required date. -/
structure StartDateCalculation where
  start : Moment
  taskStarts : List (Option Text × Instant)
  routing : Option Text
  fallbacks : List (Option Text)
  failure : Option (Option Text × LookupFault)
  deriving Repr

namespace StartDateCalculation

def isOk (c : StartDateCalculation) : Bool := c.failure.isNone

def failed (start : Moment) (routing subject : Option Text) (fault : LookupFault) :
    StartDateCalculation :=
  { start, taskStarts := [], routing, fallbacks := [], failure := some (subject, fault) }

end StartDateCalculation

/-- The step of a task: its own calendar and validity, and its estimated time. -/
def RoutingTask.step (estimators : Estimators) (task : RoutingTask) : Step where
  id := task.id
  estimate := task.time estimators
  calendar := task.calendar
  isActive moment := task.validity.isActive (some (.proper moment))

namespace Planner

/-- The fallback calendar of the options, or continuous time if there is none. -/
def fallbackCalendar (p : Planner) : Logged WorkingCalendar :=
  match p.options.fallbackCalendar with
  | none => return continuousTime
  | some ref =>
    match p.registry.resolve (some ref) with
    | .ok calendar => return calendar
    | .error (.calendarUnavailable _ _) => do
      Logged.log (.fallbackMissing ref)
      return continuousTime
    | .error e => throw e

def scheduler (p : Planner) : Logged Scheduler := do
  return { calendars := p.registry.subtract, fallback := (← p.fallbackCalendar).subtract }

/-- The working time in a number of working days. -/
def leadTimeOffset (p : Planner) (days : Amount) : Except PlanError Duration := do
  match ← days.times p.options.workingHoursPerDay with
  | .number hours => Duration.ofHours hours
  | _ => .error .typeMismatch

def scheduleRouting (p : Planner) (routing : Routing) (completion : Moment)
    (quantity : Amount) (trailingOffset : Span) : Logged Schedule := do
  (← p.scheduler).schedule
    { steps := routing.tasks.map fun task => .proper (task.step p.estimators)
      completion
      quantity
      trailingOffset }

/-- The one step of a bought product, which takes no time beyond shipping. -/
def supplierStep (p : Planner) (product : Option Text) : Step where
  id := some (Text.shown product ++ ":supplier-lead-time")
  estimate _ := .ok (.proper .zero)
  calendar := p.options.supplierCalendar
  isActive _ := .ok true

def boughtStart (p : Planner) (order : ProposedOrder) (due : Moment) (offset : Duration) :
    Logged StartDateCalculation := do
  let s ← (← p.scheduler).schedule
    { steps := [.proper (p.supplierStep order.product.id)]
      completion := due
      quantity := order.quantity
      trailingOffset := .proper offset }
  return {
    start := .proper s.start, taskStarts := [], routing := none, fallbacks := s.fallbacks, failure := none }

/-- A routing whose tasks cannot be estimated is a failure of the calculation, not an error. -/
def builtStart (p : Planner) (order : ProposedOrder) (due : Moment) (offset : Duration)
    (routing : Routing) : Logged StartDateCalculation := do
  let calculate : Logged StartDateCalculation := do
    let s ← p.scheduleRouting routing due order.quantity (.proper offset)
    return {
      start := .proper s.start
      taskStarts := s.starts
      routing := some routing.id
      fallbacks := s.fallbacks
      failure := none }
  try calculate
  catch
    | .lookupFailed subject fault => do
      Logged.log (.estimationFailed routing.id (.lookupFailed subject fault))
      return .failed due (some routing.id) subject fault
    | e => throw e

/-- When supply for an order has to start. The shipping time is added to the last task of a built product; without a
given routing that of the product is taken. -/
def calculateStartDate (p : Planner) (order : ProposedOrder) (daysToShip : Amount)
    (routing : Option Routing) : Logged StartDateCalculation := do
  match order.requiredBy with
  | none => throw (.invalidRequest .noRequiredDate)
  | some due =>
    let offset ← p.leadTimeOffset daysToShip
    if !order.isMade then p.boughtStart order due offset
    else
      match routing with
      | some routing => p.builtStart order due offset routing
      | none =>
        let resolved : Routing ⊕ Option Text × LookupFault ←
          try .inl <$> p.resolveRouting order.product (some due)
          catch
            | .lookupFailed subject fault => pure (.inr (subject, fault))
            | e => throw e
        match resolved with
        | .inl routing => p.builtStart order due offset routing
        | .inr (subject, fault) =>
          Logged.log (.noRouting order.product.id)
          return .failed due none subject fault

end Planner

end SupplyPlan
