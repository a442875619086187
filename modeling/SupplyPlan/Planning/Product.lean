import SupplyPlan.Time.Arithmetic

namespace SupplyPlan

inductive ProductType where
  | finishedGood
  | subassembly
  | rawMaterial
  | workInProcess
  deriving DecidableEq, Repr

def ProductType.code : ProductType → String
  | finishedGood => "FINISHED_GOOD"
  | subassembly => "SUBASSEMBLY"
  | rawMaterial => "RAW_MATERIAL"
  | workInProcess => "WIP"

def ProductType.ofCode? : String → Option ProductType
  | "FINISHED_GOOD" => some .finishedGood
  | "SUBASSEMBLY" => some .subassembly
  | "RAW_MATERIAL" => some .rawMaterial
  | "WIP" => some .workInProcess
  | _ => none

structure Product where
  /-- Nothing where a product is only described; registered products have one. -/
  id : Option Text
  name : Option Text
  productType : ProductType
  /-- Nothing where it has been left open. -/
  isVirtual : Option Bool
  /-- The product whose routing stands in when this one has none. -/
  virtualProduct : Option Text
  deriving DecidableEq, Repr

/-- How a product is replenished at a facility. -/
structure ProductFacility where
  product : Option Text
  facility : Option Text
  daysToShip : Amount
  reorderQuantity : Option Amount
  minimumStock : Option Amount
  deriving Repr

namespace ProductFacility

/-- The id under which the settings of a product at a facility are stored; what is missing goes by the name `None`. -/
def keyOf (product facility : Option Text) : Text :=
  Text.shown product ++ "@" ++ Text.shown facility

def key (f : ProductFacility) : Text := keyOf f.product f.facility

end ProductFacility

namespace Amount

/-- The reorder quantity, if there is one and it is greater. -/
def raised? (a : Amount) : Option Amount → Except PlanError (Option Amount)
  | none => .ok none
  | some reorder => do
    if ← a.lt reorder then return some reorder else return none

/-- Raises a quantity to the reorder quantity; an equal one keeps its kind. -/
def raiseTo (a : Amount) (reorder : Option Amount) : Except PlanError Amount := do
  return (← a.raised? reorder).getD a

/-- Only a NaN differs from itself. -/
def isNaN (a : Amount) : Bool := a.toQuantity?.any fun q => !q.same q

end Amount

end SupplyPlan
