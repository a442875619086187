import SupplyPlan.Calendar.Shift

namespace SupplyPlan

/-- The window with the later end; of two with the same end the first one found. -/
def Window.later (best : Option Window) (w : Window) : Option Window :=
  match best with
  | none => some w
  | some b => if b.stop < w.stop then some w else some b

namespace ShiftCalendar

/-- Takes the windows of one date into account. -/
def latestOn (c : ShiftCalendar) (cursor day : Int) (best : Option Window) : Option Window :=
  ((c.windowsOn day).filterMap (·.before? cursor)).foldl Window.later best

/-- Looks through the given number of dates, from `day` backwards. A window ends before the second midnight after its
date, so the search stops as soon as no earlier date can end later. Windows carry no offset and cannot be compared with
an aware moment. -/
def latestFrom (c : ShiftCalendar) (aware : Bool) (cursor : Int) :
    Nat → Int → Option Window → Except PlanError (Option Window)
  | 0, _, best => .ok best
  | dates + 1, day, best =>
    if day < 0 || dateCount ≤ day + 2 then .error .outOfRange
    else if best.any fun b => (day + 2) * dayMicros ≤ b.stop then .ok best
    else if aware && c.windowsOn day ≠ [] then .error .typeMismatch
    else latestFrom c aware cursor dates (day - 1) (c.latestOn cursor day best)

/-- The latest window before a moment, cut there, that starts at most `lookback` dates earlier. -/
def latestWindow (c : ShiftCalendar) (aware : Bool) (cursor : Int) (lookback : Nat) :
    Except PlanError (Option Window) :=
  c.latestFrom aware cursor (lookback + 1) (cursor / dayMicros) none

end ShiftCalendar

end SupplyPlan
