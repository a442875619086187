import SupplyPlan.Error

namespace SupplyPlan

inductive LogLevel where
  | debug
  | info
  | warning
  deriving DecidableEq, Repr

/-- The part of the program that reports an event. -/
inductive LogSource where
  | scheduling
  | planning
  | web
  deriving DecidableEq, Repr

inductive Event where
  | stepInactive (step : Option Text) (moment : Instant)
  | stepScheduled (step : Option Text) (start finish : Instant)
  | calendarUnavailable (step : Option Text) (cause : PlanError)
  | fallbackUnavailable (step : Option Text) (cause : PlanError)
  | fallbackMissing (ref : Text)
  | virtualRouting (routing virtualProduct : Text) (product : Option Text)
  | noRouting (product : Option Text)
  | estimationFailed (routing : Text) (cause : PlanError)
  | requirementOmitted (product : Option Text)
  | requirementCreated (id : Text) (quantity : Amount) (product : Option Text) (due : Option Moment)
  | demoCreated
  deriving Repr

namespace Event

def level : Event → LogLevel
  | stepInactive .. | stepScheduled .. | virtualRouting .. | requirementOmitted .. => .debug
  | requirementCreated .. | demoCreated => .info
  | _ => .warning

def source : Event → LogSource
  | stepInactive .. | stepScheduled .. | calendarUnavailable .. | fallbackUnavailable .. => .scheduling
  | demoCreated => .web
  | _ => .planning

def text : Event → Text
  | stepInactive step moment =>
    "Step " ++ Text.shown step ++ " is not active at " ++ moment.text ++ ", skipped"
  | stepScheduled step start finish =>
    "Step " ++ Text.shown step ++ " scheduled " ++ start.text ++ " -> " ++ finish.text
  | calendarUnavailable step cause =>
    "Calendar unavailable for step " ++ Text.shown step ++ " (" ++ cause.message
      ++ "), using fallback calendar"
  | fallbackUnavailable step cause =>
    "Fallback calendar unavailable for step " ++ Text.shown step ++ " (" ++ cause.message
      ++ "), using continuous time"
  | fallbackMissing ref => "Fallback calendar " ++ ref ++ " is not available"
  | virtualRouting routing virtualProduct product =>
    "Using routing " ++ routing ++ " of virtual product " ++ virtualProduct ++ " for "
      ++ Text.shown product
  | noRouting product => "No routing found for product " ++ Text.shown product
  | estimationFailed routing cause =>
    "Task time estimation failed for routing " ++ routing ++ ": " ++ cause.message
  | requirementOmitted product =>
    "No requirement for work in process product " ++ Text.shown product
  | requirementCreated id quantity product due =>
    "Created requirement " ++ id ++ " for " ++ quantity.text ++ " x " ++ Text.shown product
      ++ " due " ++ Text.shown (due.map Moment.text)
  | demoCreated => "Demo data created"

end Event

/-- A result and the events on the way to it; events before a failure are kept. -/
structure Logged (α : Type) where
  events : List Event
  result : Except PlanError α

namespace Logged

variable {α β : Type}

def pure (a : α) : Logged α := ⟨[], .ok a⟩

def bind (x : Logged α) (f : α → Logged β) : Logged β :=
  match x.result with
  | .ok a => ⟨x.events ++ (f a).events, (f a).result⟩
  | .error e => ⟨x.events, .error e⟩

instance : Monad Logged where
  pure := pure
  bind := bind

instance : MonadLift (Except PlanError) Logged where
  monadLift r := ⟨[], r⟩

instance : MonadExceptOf PlanError Logged where
  throw e := ⟨[], .error e⟩
  tryCatch x handle :=
    match x.result with
    | .ok _ => x
    | .error e => ⟨x.events ++ (handle e).events, (handle e).result⟩

def log (e : Event) : Logged Unit := ⟨[e], .ok ()⟩

@[simp] theorem result_pure (a : α) : (Pure.pure a : Logged α).result = .ok a := rfl

@[simp] theorem result_bind (x : Logged α) (f : α → Logged β) :
    (x >>= f).result = x.result >>= fun a => (f a).result := by
  simp only [Bind.bind, bind, Except.bind]
  split <;> simp_all

@[simp] theorem result_log (e : Event) : (log e).result = .ok () := rfl

@[simp] theorem result_lift (r : Except PlanError α) :
    (liftM r : Logged α).result = r := rfl

end Logged

end SupplyPlan
