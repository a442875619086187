import SupplyPlan.Calendar.Clock

namespace SupplyPlan

/-- A step of a chain: how long it takes for a number of units, on which calendar it runs, and at which instants it
takes part. -/
structure Step where
  /-- Nothing where the step is not named; only one step of a chain may be like that. -/
  id : Option Text
  /-- The estimate of a step need not be a duration, but only a duration can be placed. -/
  estimate : Amount → Except PlanError Span
  calendar : Option Text
  isActive : Instant → Except PlanError Bool

/-- A request as it is given; only a checked one is scheduled. -/
structure ScheduleRequest where
  steps : List (Given Step)
  completion : Given Instant
  quantity : Amount
  trailingOffset : Span

/-- A checked request: the steps from first to last, when the last one has to be complete, the number of units, and the
time to add to the last step. -/
structure Chain where
  steps : List Step
  completion : Instant
  quantity : Quantity
  trailingOffset : Duration

namespace ScheduleRequest

def invalid {α : Type} (fault : RequestFault) : Except PlanError α := .error (.invalidRequest fault)

def checkCompletion : Given Instant → Except PlanError Instant
  | .proper t => .ok t
  | .other (.json .null) => invalid .noCompletion
  | .other v => invalid (.completionNotInstant v)

def checkQuantity : Amount → Except PlanError Quantity
  | .proper q => if q.isNegative then invalid (.negativeQuantity q) else .ok q
  | .other v => invalid (.quantityNotNumber v)

def checkOffset : Span → Except PlanError Duration
  | .proper d => if d.isNegative then invalid .negativeOffset else .ok d
  | .other _ => invalid .offsetNotDuration

/-- The steps, if all of them are steps and no id occurs twice; `seen` holds the ids before them. -/
def checkSteps (seen : List (Option Text)) : List (Given Step) → Except PlanError (List Step)
  | [] => .ok []
  | .other v :: _ => invalid (.notAStep v)
  | .proper step :: rest =>
    if seen.contains step.id then invalid (.repeatedStep step.id)
    else (step :: ·) <$> checkSteps (step.id :: seen) rest

/-- Completion, quantity, offset and steps are checked in this order; the first fault is reported. -/
def check (r : ScheduleRequest) : Except PlanError Chain := do
  let completion ← checkCompletion r.completion
  let quantity ← checkQuantity r.quantity
  let trailingOffset ← checkOffset r.trailingOffset
  let steps ← checkSteps [] r.steps
  return { steps, completion, quantity, trailingOffset }

end ScheduleRequest

end SupplyPlan
