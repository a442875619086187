import SupplyPlan.Store.Basic

namespace SupplyPlan

/-- What a store can be asked to do. The test that picks records may fail. -/
inductive Command (α : Type) where
  | add (id : Text) (a : α)
  | upsert (id : Text) (a : α)
  | get (id : Text)
  | remove (id : Text)
  | contains (id : Text)
  | length
  | list
  | iterate
  | find (p : α → Except PlanError Bool)

/-- What a command returns. -/
inductive Reply (α : Type) where
  | done
  | record (a : α)
  | truth (b : Bool)
  | count (n : Nat)
  | records (as : List α)
  deriving DecidableEq, Repr

/-- The ids that a command names. -/
def Command.ids {α : Type} : Command α → List Text
  | add id _ | upsert id _ | get id | remove id | contains id => [id]
  | length | list | iterate | find _ => []

namespace Store

variable {α : Type}

/-- The answer to a command and the store that it leads to. To iterate is to read the list. -/
def run (s : Store α) : Command α → Except PlanError (Reply α × Store α)
  | .add id a => do return (.done, ← s.add (.text id) a)
  | .upsert id a => do return (.done, ← s.upsert (.text id) a)
  | .get id => do return (.record (← s.get (.text id)), s)
  | .remove id => do return (.done, ← s.remove (.text id))
  | .contains id => do return (.truth (← s.contains (.text id)), s)
  | .length => do return (.count (← s.length), s)
  | .list | .iterate => do return (.records (← s.toList), s)
  | .find p => do return (.records (← s.findWith p), s)

/-- The records with their ids, in the order in which they are read. -/
def contents : Store α → List (RecordId × α)
  | memory m => m.entries
  | table t => t.ordered.map fun row => (.text row.id, row.record)
  | closed => []

def answer (s : Store α) (c : Command α) : Except PlanError (Reply α) := (·.1) <$> s.run c

/-- A command that fails changes nothing. -/
def after (s : Store α) (c : Command α) : Store α :=
  match s.run c with
  | .ok (_, s') => s'
  | .error _ => s

/-- The answer to each command and the contents after it. -/
def trace (s : Store α) : List (Command α) → List (Except PlanError (Reply α) × List (RecordId × α))
  | [] => []
  | c :: rest => (s.answer c, (s.after c).contents) :: (s.after c).trace rest

end Store

end SupplyPlan
