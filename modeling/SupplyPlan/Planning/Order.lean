import SupplyPlan.Planning.Routing

namespace SupplyPlan

/-- A component that goes into a product. -/
structure BomComponent where
  id : Text
  product : Text
  component : Text
  quantity : Amount
  validity : Validity
  deriving Repr

/-- A purchase or production request that is not committed yet. -/
structure ProposedOrder where
  product : Product
  facility : Option Text
  manufacturingFacility : Option Text
  /-- Nothing where it has been left open; then the product counts as bought. -/
  isBuilt : Option Bool
  requiredBy : Option Moment
  quantity : Amount
  start : Option Moment
  planName : Option Text
  deriving Repr

inductive RequirementType where
  | internal
  | product
  deriving DecidableEq, Repr

def RequirementType.code : RequirementType → String
  | internal => "INTERNAL_REQUIREMENT"
  | product => "PRODUCT_REQUIREMENT"

inductive RequirementStatus where
  | proposed
  | approved
  | ordered
  | rejected
  deriving DecidableEq, Repr

def RequirementStatus.code : RequirementStatus → String
  | proposed => "REQ_PROPOSED"
  | approved => "REQ_APPROVED"
  | ordered => "REQ_ORDERED"
  | rejected => "REQ_REJECTED"

/-- The stored form of a proposed order. When it was stored is left out: nothing reads that. -/
structure Requirement where
  id : Text
  product : Option Text
  facility : Option Text
  requiredBy : Option Moment
  quantity : Amount
  requirementType : RequirementType
  status : RequirementStatus
  start : Option Moment
  description : Text
  deriving Repr

/-- Whether the product of an order is made and not bought. -/
def ProposedOrder.isMade (order : ProposedOrder) : Bool := order.isBuilt = some true

/-- The requirement of an order: built products are required where they are made. -/
def ProposedOrder.requirement (order : ProposedOrder) (id : Text) (start : Option Moment) :
    Requirement where
  id
  product := order.product.id
  facility := if order.isMade then order.manufacturingFacility else order.facility
  requiredBy := order.requiredBy
  quantity := order.quantity
  requirementType := if order.isMade then .internal else .product
  status := .proposed
  start
  description :=
    match order.planName with
    | some name => "MRP_" ++ name
    | none => "Automatically generated by MRP"

end SupplyPlan
