import SupplyPlan.Planning.Proposal

namespace SupplyPlan

open Planning

/-- What a planner can be asked to do. -/
inductive Operation where
  | registerProduct (data : ProductData)
  | setProductFacility (settings : ProductFacility)
  | getProductFacility (product facility : Option Text)
  | createShiftCalendar (name : Option Text) (shifts : List Shift) (id : Option Text)
      (nonWorkingDays : List Date)
  | addNonWorkingDay (id : Option Text) (day : Date)
  | buildRoutingTask (task : RoutingTask)
  | createRouting (product name : Option Text) (tasks : List RoutingTask) (validity : Validity)
  | addBomComponent (product component : Option Text) (quantity : Amount) (validity : Validity)
  | componentsOf (product : Option Text) (asOf : Option Moment)
  | findRouting (product : Option Text) (asOf : Option Moment)
  | resolveRouting (product : Product) (asOf : Option Moment)
  | isBuilt (product : Product) (asOf : Option Moment)
  | updateOptions (request : OptionsRequest)
  | calculateStartDate (order : ProposedOrder) (daysToShip : Amount) (routing : Option Routing)
  | settleQuantity (order : ProposedOrder) (reorder : Option Amount)
  | explosionStart (product facility : Option Text) (required : Option Moment)
  | createRequirement (order : ProposedOrder)
  | proposeOrder (request : ProposalRequest)
  | listRequirements (product : Option Text)
  | registerEstimator (name : Option Text) (estimator : Estimator)
  | bindCalendar (ref : Option Text) (calendar : WorkingCalendar)

/-- What an operation returns. -/
inductive Answer where
  | nothing
  | product (p : Product)
  | facility (found : Option ProductFacility)
  | calendar (c : ShiftCalendar)
  | task (t : RoutingTask)
  | routing (found : Option Routing)
  | component (c : BomComponent)
  | components (cs : List BomComponent)
  | truth (b : Bool)
  | options (o : PlanningOptions)
  | calculation (c : StartDateCalculation)
  | settled (o : SettledOrder)
  | start (m : Moment)
  | requirement (id : Option Text)
  | outcome (o : ProposalOutcome)
  | requirements (rs : List Requirement)

/-- The names that options refer to. -/
def PlanningOptions.names (o : PlanningOptions) : List (Option Text) :=
  [o.supplierCalendar, o.fallbackCalendar, o.defaultFacility]

namespace Operation

def run : Operation → Planning Answer
  | registerProduct data => do return .product (← SupplyPlan.registerProduct data)
  | setProductFacility settings => do return .facility (some (← SupplyPlan.setProductFacility settings))
  | getProductFacility product facility => do return .facility (← ask (·.facility? product facility))
  | createShiftCalendar name shifts id nonWorkingDays => do
    return .calendar (← SupplyPlan.createShiftCalendar name shifts id nonWorkingDays)
  | addNonWorkingDay id day => do return .calendar (← SupplyPlan.addNonWorkingDay id day)
  | buildRoutingTask task => do return .task (← SupplyPlan.buildRoutingTask task)
  | createRouting product name tasks validity => do
    return .routing (some (← SupplyPlan.createRouting product name tasks validity))
  | addBomComponent product component quantity validity => do
    return .component (← SupplyPlan.addBomComponent product component quantity validity)
  | componentsOf product asOf => do return .components (← ask (·.componentsOf product asOf))
  | findRouting product asOf => do return .routing (← ask (·.findRouting product asOf))
  | resolveRouting product asOf => do return .routing (some (← askLogged (·.resolveRouting product asOf)))
  | isBuilt product asOf => do return .truth (← askLogged (·.isBuilt product asOf))
  | updateOptions request => do return .options (← SupplyPlan.updateOptions request)
  | calculateStartDate order daysToShip routing => do
    return .calculation (← askLogged (·.calculateStartDate order daysToShip routing))
  | settleQuantity order reorder => do return .settled (← ask (·.settleQuantity order reorder))
  | explosionStart product facility required => do
    return .start (← ask (·.explosionStart product facility required))
  | createRequirement order => do return .requirement (← SupplyPlan.createRequirement order)
  | proposeOrder request => do return .outcome (← SupplyPlan.proposeOrder request)
  | listRequirements product => do return .requirements (← ask (·.listRequirements product))
  | registerEstimator name estimator => do
    SupplyPlan.registerEstimator name estimator
    return .nothing
  | bindCalendar ref calendar => do
    SupplyPlan.bindCalendar ref calendar
    return .nothing

/-- The ids and references that an operation names. -/
def names : Operation → List (Option Text)
  | registerProduct data => [data.id, data.virtualProduct]
  | setProductFacility settings => [settings.product, settings.facility]
  | getProductFacility product facility | explosionStart product facility _ => [product, facility]
  | createShiftCalendar _ _ id _ | addNonWorkingDay id _ => [id]
  | buildRoutingTask task => [task.calendar]
  | createRouting product _ tasks _ => product :: tasks.map (·.calendar)
  | addBomComponent product component _ _ => [product, component]
  | componentsOf product _ | findRouting product _ | listRequirements product => [product]
  | resolveRouting product _ | isBuilt product _ => [product.id, product.virtualProduct]
  | updateOptions request => [request.supplierCalendar, request.fallbackCalendar, request.defaultFacility]
  | calculateStartDate order _ routing => orderNames order ++ (routing.elim [] (·.tasks)).map (·.calendar)
  | settleQuantity order _ | createRequirement order => orderNames order
  | proposeOrder request => [request.product, request.facility, request.manufacturingFacility]
  | registerEstimator _ _ => []
  | bindCalendar ref _ => [ref]
where
  orderNames (order : ProposedOrder) : List (Option Text) :=
    [order.product.id, order.product.virtualProduct, order.facility, order.manufacturingFacility]

end Operation

/-- All records of a planner in their order, store by store. -/
structure Listing where
  products : Except PlanError (List Product)
  facilities : Except PlanError (List ProductFacility)
  calendars : Except PlanError (List ShiftCalendar)
  routings : Except PlanError (List Routing)
  bom : Except PlanError (List BomComponent)
  requirements : Except PlanError (List Requirement)

def Planner.listing (p : Planner) : Listing where
  products := p.products.toList
  facilities := p.facilities.toList
  calendars := p.calendars.toList
  routings := p.routings.toList
  bom := p.bom.toList
  requirements := p.requirements.toList

namespace Session

/-- A planner before any work. -/
def fresh (ids : IdStream) (p : Planner) : Session := { planner := p, ids, drawn := 0, log := [] }

def answer (s : Session) (op : Operation) : Except PlanError Answer := (op.run.perform s).1

/-- The session goes on after an operation, whether that failed or not. -/
def after (s : Session) (op : Operation) : Session := (op.run.perform s).2

/-- The answer to each operation and the records after it. -/
def trace (s : Session) : List Operation → List (Except PlanError Answer × Listing)
  | [] => []
  | op :: rest => (s.answer op, (s.after op).planner.listing) :: (s.after op).trace rest

end Session

end SupplyPlan
