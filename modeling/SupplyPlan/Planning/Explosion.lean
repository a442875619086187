import SupplyPlan.Planning.Planner

namespace SupplyPlan

/-- The earliest of a start and the starts of some items; the first of equal ones counts. -/
def earliestOf {α : Type} (startOf : α → Except PlanError Moment) : Moment → List α → Except PlanError Moment
  | earliest, [] => .ok earliest
  | earliest, a :: rest => do
    let start ← startOf a
    earliestOf startOf (if ← start.lt earliest then start else earliest) rest

namespace Planner

/-- The first product of a path is expanded whatever it is, another one only as work in process. -/
def isExpanded (p : Planner) (path : List Text) (product : Text) : Except PlanError Bool :=
  match path with
  | [] => .ok true
  | _ :: _ => do return (← p.products.get (.text product)).productType = .workInProcess

def shippingTime (p : Planner) (product facility : Option Text) : Except PlanError Duration := do
  Duration.ofDays (← (← p.shippingDays product facility).toQuantity)

/-- A product starts its shipping time before it is required. -/
def ownStart (p : Planner) (product facility : Option Text) (required : Moment) :
    Except PlanError Moment := do
  required.minus (← p.shippingTime product facility)

/-- The earliest of the own start of a product and the starts of its components, which are required by the own start. -/
def explodeBelow (p : Planner) (facility : Option Text) (explode : Text → Moment → Except PlanError Moment)
    (product : Text) (required : Moment) : Except PlanError Moment := do
  let start ← p.ownStart (some product) facility required
  let components ← p.componentsOf (some product) (some required)
  earliestOf (fun c => explode c.component start) start components

/-- The earliest start of a product and of the work in process below it. Components of other types get their own
requirement, so they are there when they are required. `path` holds the products above; one of them must not come back.
The fuel bounds the depth. -/
def explodeWithin (p : Planner) (facility : Option Text) :
    Nat → List Text → Text → Moment → Except PlanError Moment
  | 0, _, _, _ => .error .endless
  | fuel + 1, path, product, required => do
    if path.contains product then .error (.bomCycle (path ++ [product]))
    else if ← p.isExpanded path product then
      p.explodeBelow facility (explodeWithin p facility fuel (path ++ [product])) product required
    else return required

/-- The earliest start over the bill of material below a product. Products on a path differ and all but the first are
components, so the number of records bounds the depth. How many calls may be nested is left out, other than for
`RoutingTask.referenceLimit`, `Web.nestingLimit` and `Web.repetitionLimit`: a path of any length is followed to its end.
A product that is not named has no components. Nothing can be counted back from a date that is missing. -/
def explosionStart (p : Planner) (product facility : Option Text) (required : Option Moment) :
    Except PlanError Moment := do
  let required := required.getD (.other .null)
  match product with
  | none => p.ownStart none facility required
  | some product => p.explodeWithin facility ((← p.bom.length) + 2) [] product required

end Planner

end SupplyPlan
