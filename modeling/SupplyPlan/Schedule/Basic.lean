import SupplyPlan.Log
import SupplyPlan.Time.Arithmetic

namespace SupplyPlan

/-- The start of a step, and whether its own calendar could not be used. -/
structure Placement where
  step : Option Text
  start : Instant
  onFallback : Bool
  deriving DecidableEq, Repr

/-- The placements of the active steps from last to first, and the start of the earliest one, which is the completion
when there is none. -/
structure Schedule where
  completion : Instant
  start : Instant
  placements : List Placement
  deriving DecidableEq, Repr

namespace Schedule

def starts (s : Schedule) : List (Option Text × Instant) :=
  s.placements.map fun p => (p.step, p.start)

/-- The steps that were placed without their own calendar. -/
def fallbacks (s : Schedule) : List (Option Text) :=
  (s.placements.filter (·.onFallback)).map (·.step)

def start? (s : Schedule) (step : Option Text) : Option Instant :=
  (s.placements.find? (·.step = step)).map (·.start)

/-- The time from the start of the schedule to its completion. -/
def leadTime (s : Schedule) : Except PlanError Duration := s.completion.since s.start

/-- Equality of schedules: equal instants, the same start for every step in whatever order, and the same fallbacks in
the same order. -/
def same (s t : Schedule) : Bool :=
  s.completion.same t.completion && s.start.same t.start
    && s.placements.length = t.placements.length
    && s.placements.all (fun p => (t.start? p.step).any p.start.same)
    && s.fallbacks = t.fallbacks

/-- An instant as far as equality sees it: whether it is aware, and its place on the common clock. -/
def pointKey (t : Instant) : Bool × Int := (t.isAware, t.onCommonClock)

/-- What hashing a schedule goes by: its instants, the starts in their order, and the fallbacks. -/
structure HashKey where
  completion : Bool × Int
  start : Bool × Int
  starts : List (Option Text × (Bool × Int))
  fallbacks : List (Option Text)
  deriving DecidableEq, Repr

def hashKey (s : Schedule) : HashKey where
  completion := pointKey s.completion
  start := pointKey s.start
  starts := s.starts.map fun p => (p.1, pointKey p.2)
  fallbacks := s.fallbacks

end Schedule

end SupplyPlan
