import SupplyPlan.Planning.Session
import SupplyPlan.Sorting

namespace SupplyPlan

/-- An order after its quantity has been settled, and whether that left it as it was. -/
structure SettledOrder where
  order : ProposedOrder
  isSame : Bool

namespace Planner

/-- The given reorder quantity, or else the one set for the product at the facility of the order. -/
def reorderQuantity (p : Planner) (order : ProposedOrder) :
    Option Amount → Except PlanError (Option Amount)
  | some q => .ok (some q)
  | none => do return (← p.facility? order.product.id order.facility).bind (·.reorderQuantity)

/-- Raises the quantity of an order to the reorder quantity. A quantity that equals itself is left as it was. -/
def settleQuantity (p : Planner) (order : ProposedOrder) (reorder : Option Amount) :
    Except PlanError SettledOrder := do
  match ← order.quantity.raised? (← p.reorderQuantity order reorder) with
  | some quantity => return { order := { order with quantity }, isSame := false }
  | none => return { order, isSame := !order.quantity.isNaN }

/-- The start that is recorded for an order. -/
def recordedStart (p : Planner) (order : ProposedOrder) : Except PlanError (Option Moment) :=
  if order.isMade then
    some <$> p.explosionStart order.product.id order.manufacturingFacility order.requiredBy
  else .ok order.start

/-- Whether a requirement is due before another one. -/
def isDueBefore (r s : Requirement) : Except PlanError Bool :=
  (r.requiredBy.getD (.other .null)).lt (s.requiredBy.getD (.other .null))

/-- The requirements of one product or of all, by required date; equal dates stay in stored order. -/
def listRequirements (p : Planner) (product : Option Text) :
    Except PlanError (List Requirement) := do
  Sorting.sorted isDueBefore (← p.requirements.find fun r => product.all (r.product = some ·))

end Planner

open Planning

/-- Stores the requirement of an order and returns its id; work in process has no requirements. -/
def createRequirement (order : ProposedOrder) : Planning (Option Text) := do
  if order.product.productType = .workInProcess then
    log (.requirementOmitted order.product.id)
    return none
  let start ← ask (·.recordedStart order)
  let requirement := order.requirement (← freshId) start
  let requirements ← ask (·.requirements.add (.text requirement.id) requirement)
  setPlanner { ← planner with requirements }
  log (.requirementCreated requirement.id requirement.quantity requirement.product
    requirement.requiredBy)
  return some requirement.id

/-- A shortage to propose an order for; what is left open is taken from the settings. -/
structure ProposalRequest where
  product : Option Text
  requiredBy : Option Moment
  quantity : Amount
  facility : Option Text
  manufacturingFacility : Option Text
  isBuilt : Option Bool
  daysToShip : Option Amount
  planName : Option Text

structure ProposalOutcome where
  order : ProposedOrder
  calculation : StartDateCalculation
  requirement : Option Text

namespace ProposalRequest

def refuseNegative (r : ProposalRequest) : Except PlanError Unit := do
  let quantity ← r.quantity.toQuantity
  if quantity.isNegative then .error (.invalidRequest (.negativeQuantity quantity)) else .ok ()

/-- The facility of a request, or else the default one. -/
def facilityIn (r : ProposalRequest) (p : Planner) : Option Text :=
  (Text.nonEmpty r.facility).or p.options.defaultFacility

def isBuiltIn (r : ProposalRequest) (p : Planner) (product : Product) : Logged Bool :=
  match r.isBuilt with
  | some b => return b
  | none => p.isBuilt product r.requiredBy

def daysToShipIn (r : ProposalRequest) (p : Planner) : Except PlanError Amount :=
  match r.daysToShip with
  | some days => .ok days
  | none => p.shippingDays r.product (r.facilityIn p)

/-- The order of a request as it is asked for. -/
def draft (r : ProposalRequest) (p : Planner) (product : Product) (isBuilt : Bool) : ProposedOrder where
  product
  facility := r.facilityIn p
  manufacturingFacility := (Text.nonEmpty r.manufacturingFacility).or (r.facilityIn p)
  isBuilt := some isBuilt
  requiredBy := r.requiredBy
  quantity := r.quantity
  start := none
  planName := r.planName

/-- The order of a request with its start, computed without changing anything. -/
def order (r : ProposalRequest) (p : Planner) : Logged (ProposedOrder × StartDateCalculation) := do
  r.refuseNegative
  let product ← p.products.get (.named r.product)
  let isBuilt ← r.isBuiltIn p product
  let daysToShip ← r.daysToShipIn p
  let settled ← p.settleQuantity (r.draft p product isBuilt) none
  let calculation ← p.calculateStartDate settled.order daysToShip none
  return ({ settled.order with start := some calculation.start }, calculation)

end ProposalRequest

/-- Proposes an order for a shortage and records it as a requirement. -/
def proposeOrder (r : ProposalRequest) : Planning ProposalOutcome := do
  let (order, calculation) ← askLogged r.order
  let requirement ← createRequirement order
  return { order, calculation, requirement }

end SupplyPlan
