import SupplyPlan.Demo
import SupplyPlan.Time.Reading

namespace SupplyPlan

/-- The lines to print for the arguments, or the reason why there are none. -/
def commandLine : List String → Except String (List Text)
  | [today] =>
    match Date.read? today with
    | none => .error ("not a date: " ++ today)
    | some d =>
      match (Demo.reportOf d).1 with
      | .ok lines => .ok lines
      | .error _ => .error ("no plan can be made for " ++ today)
  | _ => .error "usage: supplyplan YYYY-MM-DD"

end SupplyPlan

def main (args : List String) : IO UInt32 := do
  match SupplyPlan.commandLine args with
  | .ok lines =>
    for line in lines do IO.println (toString line)
    return 0
  | .error reason =>
    IO.eprintln reason
    return 1
