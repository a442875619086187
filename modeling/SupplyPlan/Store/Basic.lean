import SupplyPlan.Store.Memory
import SupplyPlan.Store.Table

namespace SupplyPlan

/-- Records under ids: in memory, as table rows, or closed for good. -/
inductive Store (α : Type) where
  | memory (m : Memory α)
  | table (t : Table α)
  | closed
  deriving Repr

namespace Store

variable {α : Type}

/-- A closed store still answers for ids that no row can have. -/
def contains (s : Store α) (id : RecordId) : Except PlanError Bool :=
  match s with
  | memory m => .ok (m.contains id)
  | table t => t.contains id
  | closed =>
    match id with
    | .text _ => .error .storeClosed
    | _ => .ok false

def add (s : Store α) (id : RecordId) (a : α) : Except PlanError (Store α) :=
  match s with
  | memory m => memory <$> m.add id a
  | table t => table <$> t.add id a
  | closed => .error .storeClosed

def upsert (s : Store α) (id : RecordId) (a : α) : Except PlanError (Store α) :=
  match s with
  | memory m => .ok (memory (m.upsert id a))
  | table t => table <$> t.upsert id a
  | closed => .error .storeClosed

def get (s : Store α) (id : RecordId) : Except PlanError α :=
  match s with
  | memory m => m.get id
  | table t => t.get id
  | closed => .error .storeClosed

def remove (s : Store α) (id : RecordId) : Except PlanError (Store α) :=
  match s with
  | memory m => memory <$> m.remove id
  | table t => table <$> t.remove id
  | closed => .error .storeClosed

def toList (s : Store α) : Except PlanError (List α) :=
  match s with
  | memory m => .ok m.toList
  | table t => .ok t.toList
  | closed => .error .storeClosed

def length (s : Store α) : Except PlanError Nat := List.length <$> s.toList

def find (s : Store α) (p : α → Bool) : Except PlanError (List α) := List.filter p <$> s.toList

/-- The records that pass a test that can fail; the first failure is the answer. -/
def findWith (s : Store α) (p : α → Except PlanError Bool) : Except PlanError (List α) := do
  (← s.toList).filterM p

/-- Changes a fetched record without storing it. Memory hands out the record it holds, so the change stays there; rows
hand out copies. -/
def editFetched (s : Store α) (id : RecordId) (f : α → α) : Except PlanError (Store α) := do
  let a ← s.get id
  match s with
  | memory m => .ok (memory (m.upsert id (f a)))
  | _ => .ok s

end Store

end SupplyPlan
