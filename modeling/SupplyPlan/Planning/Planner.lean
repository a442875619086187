import SupplyPlan.Calendar.Registry
import SupplyPlan.Schedule.Backward
import SupplyPlan.Planning.Order

namespace SupplyPlan

structure PlanningOptions where
  workingHoursPerDay : Amount
  supplierCalendar : Option Text
  fallbackCalendar : Option Text
  lookback : Amount
  defaultFacility : Option Text
  deriving Repr

/-- The facility that is meant where none is named. -/
def standardFacility : Text := "MAIN"

def PlanningOptions.standard : PlanningOptions where
  workingHoursPerDay := .proper (.float (.ofInt 8))
  supplierCalendar := some continuousId
  fallbackCalendar := none
  lookback := .proper (.int defaultLookback)
  defaultFacility := some standardFacility

structure Planner where
  products : Store Product
  facilities : Store ProductFacility
  calendars : Store ShiftCalendar
  routings : Store Routing
  bom : Store BomComponent
  requirements : Store Requirement
  options : PlanningOptions
  /-- Calendars that are not stored, by reference. -/
  bound : List (Text × WorkingCalendar)
  /-- How many dates calendars are searched for working time. -/
  lookback : Amount
  estimators : Estimators

/-- Calendars bound in every planner. -/
def standardBindings : List (Text × WorkingCalendar) := [(continuousId, continuousTime)]

namespace Planner

/-- An empty planner whose records stay in memory. -/
def inMemory (options : PlanningOptions) : Planner where
  products := .memory .empty
  facilities := .memory .empty
  calendars := .memory .empty
  routings := .memory .empty
  bom := .memory .empty
  requirements := .memory .empty
  options
  bound := standardBindings
  lookback := options.lookback
  estimators := []

/-- An empty planner whose records are table rows. -/
def onTables (options : PlanningOptions) : Planner where
  products := .table .empty
  facilities := .table .empty
  calendars := .table .empty
  routings := .table .empty
  bom := .table .empty
  requirements := .table .empty
  options
  bound := standardBindings
  lookback := options.lookback
  estimators := []

/-- The planner after its tables have been closed. -/
def close (p : Planner) : Planner :=
  { p with
    products := .closed
    facilities := .closed
    calendars := .closed
    routings := .closed
    bom := .closed
    requirements := .closed }

def registry (p : Planner) : CalendarRegistry :=
  { stored := p.calendars, bound := p.bound, lookback := p.lookback }

/-- The settings of a product at a facility, if there are any. -/
def facility? (p : Planner) (product facility : Option Text) :
    Except PlanError (Option ProductFacility) :=
  match p.facilities.get (.text (ProductFacility.keyOf product facility)) with
  | .ok found => .ok (some found)
  | .error (.recordNotFound _) => .ok none
  | .error e => .error e

/-- The shipping days of a product at a facility, zero without settings. -/
def shippingDays (p : Planner) (product facility : Option Text) : Except PlanError Amount := do
  return ((← p.facility? product facility).map (·.daysToShip)).getD (.proper (.int 0))

/-- The records of a list that are valid at a moment, in order. -/
def activeOnes {α : Type} (validity : α → Validity) (moment : Option Moment) :
    List α → Except PlanError (List α)
  | [] => .ok []
  | a :: rest => do
    if ← (validity a).isActive moment then
      return a :: (← activeOnes validity moment rest)
    else activeOnes validity moment rest

/-- The bill of material records of a product: all of them, or those valid at a date. -/
def componentsOf (p : Planner) (product : Option Text) (asOf : Option Moment) :
    Except PlanError (List BomComponent) := do
  let records ← p.bom.find fun component => product = some component.product
  match asOf with
  | none => return records
  | some _ => activeOnes (·.validity) asOf records

/-- The first record of a list that is valid at a moment. -/
def firstActive {α : Type} (validity : α → Validity) (moment : Option Moment) :
    List α → Except PlanError (Option α)
  | [] => .ok none
  | a :: rest => do
    if ← (validity a).isActive moment then return some a
    else firstActive validity moment rest

/-- The first routing of a product that is valid at a date. -/
def findRouting (p : Planner) (product : Option Text) (asOf : Option Moment) :
    Except PlanError (Option Routing) := do
  firstActive (·.validity) asOf (← p.routings.find fun routing => product = some routing.product)

/-- The routing of a product, or of its virtual product when it has none. -/
def resolveRouting (p : Planner) (product : Product) (asOf : Option Moment) : Logged Routing := do
  match ← p.findRouting product.id asOf with
  | some routing => return routing
  | none =>
    match Text.nonEmpty product.virtualProduct with
    | none => throw (.lookupFailed product.id .noRouting)
    | some virtualProduct =>
      match ← p.findRouting (some virtualProduct) asOf with
      | none => throw (.lookupFailed product.id .noRouting)
      | some routing =>
        Logged.log (.virtualRouting routing.id virtualProduct product.id)
        return routing

/-- A product is built if it has a routing, or else components. -/
def isBuilt (p : Planner) (product : Product) (asOf : Option Moment) : Logged Bool := do
  let found : Option Routing ←
    try some <$> p.resolveRouting product asOf
    catch
      | .lookupFailed _ _ => pure none
      | e => throw e
  match found with
  | some _ => return true
  | none => return !(← p.componentsOf product.id asOf).isEmpty

end Planner

end SupplyPlan
