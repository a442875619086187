import SupplyPlan.Planning.Ids
import SupplyPlan.Planning.StartDate
import SupplyPlan.Planning.Explosion

namespace SupplyPlan

/-- A planner at work: its state, the ids it draws and how many of them it has drawn so far, and the events so far. -/
structure Session where
  planner : Planner
  ids : IdStream := .numbered
  drawn : Nat
  log : List Event

/-- Operations that change a planner. What an operation stored, which ids it drew and what it reported stay when it
fails. -/
abbrev Planning := ExceptT PlanError (StateM Session)

namespace Planning

variable {α : Type}

/-- The result of an operation and the session after it, whether it failed or not. -/
def perform (x : Planning α) (s : Session) : Except PlanError α × Session := (ExceptT.run x).run s

def fail (e : PlanError) : Planning α := throw e

def planner : Planning Planner := return (← get).planner

def setPlanner (p : Planner) : Planning Unit := modify ({ · with planner := p })

/-- The next id of the session. -/
def freshId : Planning Text := do
  let s ← get
  set { s with drawn := s.drawn + 1 }
  return s.ids.draw (s.drawn + 1)

def ofExcept : Except PlanError α → Planning α
  | .ok a => pure a
  | .error e => throw e

/-- Takes over a result, keeping the events on the way to it. -/
def takeOver (x : Logged α) : Planning α := do
  modify fun s => { s with log := s.log ++ x.events }
  Planning.ofExcept x.result

/-- A result of the planner's current state. -/
def ask (f : Planner → Except PlanError α) : Planning α := do
  takeOver ⟨[], f (← planner)⟩

def askLogged (f : Planner → Logged α) : Planning α := do
  takeOver (f (← planner))

def log (e : Event) : Planning Unit := takeOver ⟨[e], .ok ()⟩

end Planning

open Planning

/-- The id given by the caller, unless there is none or it is empty. -/
def idOrFresh : Option Text → Planning Text
  | some id => if id = "" then freshId else return id
  | none => freshId

structure ProductData where
  id : Option Text
  name : Option Text
  productType : ProductType
  isVirtual : Option Bool
  virtualProduct : Option Text

/-- A product that stands in for another one has to be there already. -/
def requireVirtual (virtualProduct : Option Text) : Planning Unit := do
  if let some other := virtualProduct then
    unless ← ask (·.products.contains (.text other)) do
      fail (.recordNotFound (.virtualProduct other))

def registerProduct (d : ProductData) : Planning Product := do
  requireVirtual d.virtualProduct
  let id ← idOrFresh d.id
  let product : Product :=
    { id := some id
      name := d.name
      productType := d.productType
      isVirtual := d.isVirtual
      virtualProduct := d.virtualProduct }
  let products ← ask (·.products.add (.text id) product)
  setPlanner { ← planner with products }
  return product

/-- Sets the replenishment of a registered product at a facility; shipping days are not negative. -/
def setProductFacility (settings : ProductFacility) : Planning ProductFacility := do
  let _ ← ask (·.products.get (.named settings.product))
  let daysToShip ← ask fun _ => settings.daysToShip.larger (.proper (.int 0))
  let settings := { settings with daysToShip }
  let facilities ← ask (·.facilities.upsert (.text settings.key) settings)
  setPlanner { ← planner with facilities }
  return settings

def createShiftCalendar (name : Option Text) (shifts : List Shift) (id : Option Text)
    (nonWorkingDays : List Date) : Planning ShiftCalendar := do
  if shifts.isEmpty then fail (.invalidValue .calendarWithoutShifts)
  let id ← idOrFresh id
  let calendar : ShiftCalendar :=
    { id := some id
      name
      shifts
      nonWorkingDays := Date.sorted nonWorkingDays }
  let calendars ← ask (·.calendars.add (.text id) calendar)
  setPlanner { ← planner with calendars }
  return calendar

/-- Edits the calendar that the store hands out, and stores it again. -/
def addNonWorkingDay (id : Option Text) (day : Date) : Planning ShiftCalendar := do
  let calendar ← ask (·.calendars.get (.named id))
  let edited ← ask (·.calendars.editFetched (.named id) (·.addNonWorkingDay day))
  setPlanner { ← planner with calendars := edited }
  let calendar := calendar.addNonWorkingDay day
  let calendars ← ask (·.calendars.upsert (.named calendar.id) calendar)
  setPlanner { ← planner with calendars }
  return calendar

/-- Gives a task its id. -/
def buildRoutingTask (task : RoutingTask) : Planning RoutingTask := do
  return { task with id := some (← freshId) }

/-- The id of a product that has to be registered; no product is registered without one. -/
def registeredProduct : Option Text → Planning Text
  | some id => do
    unless ← ask (·.products.contains (.text id)) do
      fail (.recordNotFound (.product id))
    return id
  | none => fail (.recordNotFound (.product none))

def createRouting (product name : Option Text) (tasks : List RoutingTask) (validity : Validity) :
    Planning Routing := do
  let product ← registeredProduct product
  let routing : Routing := { id := ← freshId, product, name, tasks, validity }
  let routings ← ask (·.routings.add (.text routing.id) routing)
  setPlanner { ← planner with routings }
  return routing

def addBomComponent (product component : Option Text) (quantity : Amount) (validity : Validity) :
    Planning BomComponent := do
  let product ← registeredProduct product
  let component ← registeredProduct component
  if product = component then fail (.invalidValue .ownComponent)
  let record : BomComponent := { id := ← freshId, product, component, quantity, validity }
  let bom ← ask (·.bom.add (.text record.id) record)
  setPlanner { ← planner with bom }
  return record

/-- Options as they are asked for. -/
structure OptionsRequest where
  workingHoursPerDay : Amount
  supplierCalendar : Option Text
  fallbackCalendar : Option Text
  lookback : Amount
  defaultFacility : Option Text

namespace OptionsRequest

/-- Hours between zero and a day, at least one date of search, and no empty references. -/
def options (r : OptionsRequest) : Except PlanError PlanningOptions := do
  let atLeastNone ← r.workingHoursPerDay.larger (.proper (.float (.ofInt 0)))
  let workingHoursPerDay ← atLeastNone.smaller (.proper (.float (.ofInt 24)))
  let lookback ← r.lookback.larger (.proper (.int 1))
  return {
    workingHoursPerDay
    supplierCalendar := Text.nonEmpty r.supplierCalendar
    fallbackCalendar := Text.nonEmpty r.fallbackCalendar
    lookback
    defaultFacility := (Text.nonEmpty r.defaultFacility).or (some standardFacility) }

/-- A fallback calendar has to resolve. -/
def checkFallback (r : OptionsRequest) (p : Planner) : Except PlanError Unit :=
  match Text.nonEmpty r.fallbackCalendar with
  | none => .ok ()
  | some ref =>
    match p.registry.resolve (some ref) with
    | .ok _ => .ok ()
    | .error (.calendarUnavailable _ _) => .error (.invalidRequest (.noFallbackCalendar ref))
    | .error e => .error e

end OptionsRequest

/-- Replaces the options. The calendars are set up again, so bindings made since are dropped. -/
def updateOptions (r : OptionsRequest) : Planning PlanningOptions := do
  ask r.checkFallback
  let options ← ask fun _ => r.options
  setPlanner { ← planner with options, bound := standardBindings, lookback := options.lookback }
  return options

/-- Binds a reference until the calendars are set up again. -/
def bindCalendar (ref : Option Text) (calendar : WorkingCalendar) : Planning Unit := do
  let p ← planner
  setPlanner { p with bound := (p.registry.bind ref calendar).bound }

/-- An estimator without a name is never looked up. -/
def registerEstimator (name : Option Text) (estimator : Estimator) : Planning Unit := do
  if let some name := name then
    let p ← planner
    setPlanner { p with estimators := (name, estimator) :: p.estimators }

end SupplyPlan
