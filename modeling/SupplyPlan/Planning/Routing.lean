import SupplyPlan.Planning.Product

namespace SupplyPlan

/-- A span of validity with open or closed ends; the end itself is not valid. -/
structure Validity where
  fromDate : Option Moment
  thruDate : Option Moment
  deriving Repr

namespace Validity

def always : Validity := ⟨none, none⟩

/-- The start is looked at first; an open bound is not compared with anything, and a missing moment with nothing. -/
def isActive (v : Validity) (moment : Option Moment) : Except PlanError Bool := do
  let moment := moment.getD (.other .null)
  let started ←
    match v.fromDate with
    | some bound => not <$> moment.lt bound
    | none => pure true
  if started then
    match v.thruDate with
    | some bound => not <$> bound.le moment
    | none => pure true
  else pure false

end Validity

/-- One production operation. -/
structure RoutingTask where
  /-- Nothing before the task has been given its id. -/
  id : Option Text
  name : Option Text
  setupTime : Span
  runTimePerUnit : Span
  calendar : Option Text
  validity : Validity
  estimateMethod : Option Text
  description : Option Text
  deriving Repr

/-- The operations that produce a product, first to last. -/
structure Routing where
  id : Text
  product : Text
  name : Option Text
  tasks : List RoutingTask
  validity : Validity
  deriving Repr

/-- The run time of a number of units, which is taken as a double. -/
def RoutingTask.runTime (task : RoutingTask) (quantity : Amount) : Except PlanError Span := do
  let units ← quantity.toBinary64
  task.runTimePerUnit.times (.proper (.float units))

/-- A way to estimate how long work takes: a rule for a number of units, a rule that also looks at the task, or the time
that another task takes. -/
inductive Estimator where
  | rule (f : Amount → Except PlanError Span)
  | taskRule (f : RoutingTask → Amount → Except PlanError Span)
  | likeTask (task : RoutingTask)

namespace Estimator

def fixed (d : Span) : Estimator := .rule fun _ => .ok d

/-- The quantity is taken in its own kind. -/
def perUnit (d : Span) : Estimator := .rule d.times

/-- The run time of the task that is estimated. -/
def runTime : Estimator := .taskRule RoutingTask.runTime

def failing (e : PlanError) : Estimator := .rule fun _ => .error e

end Estimator

/-- Estimators by name; the first entry of a name counts. -/
abbrev Estimators := List (Text × Estimator)

def Estimators.named? (estimators : Estimators) (name : Text) : Option Estimator :=
  (estimators.find? (·.1 = name)).map (·.2)

namespace RoutingTask

/-- Setup time plus run time. -/
def standardTime (task : RoutingTask) (quantity : Amount) : Except PlanError Span := do
  task.setupTime.plus (← task.runTime quantity)

/-- The method of a task; an empty name stands for none. -/
def method? (task : RoutingTask) : Option Text := Text.nonEmpty task.estimateMethod

/-- Follows at most the given number of estimators that refer to other tasks. -/
def timeWithin (estimators : Estimators) :
    Nat → RoutingTask → Amount → Except PlanError Span
  | hops, task, quantity =>
    match task.method? with
    | none => task.standardTime quantity
    | some method =>
      match estimators.named? method with
      | none => .error (.lookupFailed task.id (.unknownMethod method))
      | some (.rule f) => f quantity
      | some (.taskRule f) => f task quantity
      | some (.likeTask other) =>
        match hops with
        | 0 => .error .endless
        | hops + 1 => timeWithin estimators hops other quantity

/-- How many references from an estimator to another task are followed. -/
def referenceLimit : Nat := 490

/-- The time a task takes for a number of units. Whoever needs more references than the limit is taken to go round in a
circle. -/
def time (estimators : Estimators) (task : RoutingTask) (quantity : Amount) :
    Except PlanError Span :=
  timeWithin estimators referenceLimit task quantity

end RoutingTask

/-- The estimate for work that is no task, so that a rule that looks at the task misses it. -/
def Estimator.time (estimators : Estimators) (quantity : Amount) :
    Estimator → Except PlanError Span
  | .rule f => f quantity
  | .taskRule _ => .error .missingPart
  | .likeTask task => task.time estimators quantity

end SupplyPlan
