import SupplyPlan.Error

namespace SupplyPlan

/-- Truth values are the same key as one and zero. -/
def RecordId.key : RecordId → RecordId
  | .flag b => .int (if b then 1 else 0)
  | id => id

/-- Entries with different keys, in the order in which these came. -/
structure Memory (α : Type) where
  entries : List (RecordId × α)
  deriving Repr

namespace Memory

variable {α : Type}

def empty : Memory α := ⟨[]⟩

def get? (m : Memory α) (id : RecordId) : Option α := (m.entries.find? (·.1 = id.key)).map (·.2)

def contains (m : Memory α) (id : RecordId) : Bool := m.entries.any (·.1 = id.key)

/-- Replaces the record of a key where it stands, or puts it behind the others. -/
def put (key : RecordId) (a : α) : List (RecordId × α) → List (RecordId × α)
  | [] => [(key, a)]
  | (k, b) :: rest => if k = key then (k, a) :: rest else (k, b) :: put key a rest

def upsert (m : Memory α) (id : RecordId) (a : α) : Memory α := ⟨put id.key a m.entries⟩

def add (m : Memory α) (id : RecordId) (a : α) : Except PlanError (Memory α) :=
  if m.contains id then .error (.duplicateRecord id) else .ok ⟨m.entries ++ [(id.key, a)]⟩

def get (m : Memory α) (id : RecordId) : Except PlanError α :=
  match m.get? id with
  | some a => .ok a
  | none => .error (.recordNotFound (.keyed id))

def remove (m : Memory α) (id : RecordId) : Except PlanError (Memory α) :=
  if m.contains id then .ok ⟨m.entries.filter (·.1 ≠ id.key)⟩
  else .error (.recordNotFound (.keyed id))

def toList (m : Memory α) : List α := m.entries.map (·.2)

end Memory

end SupplyPlan
