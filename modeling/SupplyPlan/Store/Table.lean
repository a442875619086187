import SupplyPlan.Error

namespace SupplyPlan

structure Row (α : Type) where
  seq : Nat
  id : Text
  record : α
  deriving Repr

/-- Rows in no particular order and the sequence number of the next one; the numbers give the order. -/
structure Table (α : Type) where
  rows : List (Row α)
  nextSeq : Nat
  deriving Repr

/-- The text under which an id is stored: numbers become their digits and an absent id has none. Integers are limited to
64 bits, and a text has to have bytes. -/
def RecordId.stored : RecordId → Except PlanError (Option Text)
  | .text s => if s.isEncodable then .ok (some s) else .error .unencodable
  | .int n =>
    if -Int.pow 2 63 ≤ n && n < Int.pow 2 63 then .ok (some (Text.ofString (toString n))) else .error .outOfRange
  | .flag b => .ok (some (if b then "1" else "0" : Text))
  | .absent => .ok none

namespace Table

variable {α : Type}

def empty : Table α := ⟨[], 1⟩

def find? (t : Table α) (id : Text) : Option (Row α) := t.rows.find? (·.id = id)

/-- Only texts are ever found here. -/
def contains (t : Table α) : RecordId → Except PlanError Bool
  | .text s => do return ((← (RecordId.text s).stored).bind t.find?).isSome
  | _ => .ok false

def insert (t : Table α) (id : Text) (a : α) : Table α :=
  { rows := ⟨t.nextSeq, id, a⟩ :: t.rows, nextSeq := t.nextSeq + 1 }

/-- Keeps the row of an id, and so its place, and replaces the record in it. -/
def put (t : Table α) (id : Text) (a : α) : Table α :=
  if (t.find? id).isSome then
    { t with rows := t.rows.map fun row => if row.id = id then { row with record := a } else row }
  else t.insert id a

def upsert (t : Table α) (id : RecordId) (a : α) : Except PlanError (Table α) := do
  match ← id.stored with
  | some s => .ok (t.put s a)
  | none => .error .constraintViolated

/-- An id that is no text is compared only by the constraints of the table. -/
def add (t : Table α) (id : RecordId) (a : α) : Except PlanError (Table α) := do
  if ← t.contains id then .error (.duplicateRecord id)
  else
    match ← id.stored with
    | some s => if (t.find? s).isSome then .error .constraintViolated else .ok (t.insert s a)
    | none => .error .constraintViolated

def get (t : Table α) (id : RecordId) : Except PlanError α := do
  match (← id.stored).bind t.find? with
  | some row => .ok row.record
  | none => .error (.recordNotFound (.keyed id))

def remove (t : Table α) (id : RecordId) : Except PlanError (Table α) := do
  match (← id.stored).bind t.find? with
  | some found => .ok { t with rows := t.rows.filter (·.id ≠ found.id) }
  | none => .error (.recordNotFound (.keyed id))

/-- Rows by their sequence numbers. -/
def ordered (t : Table α) : List (Row α) := t.rows.mergeSort fun a b => a.seq ≤ b.seq

def toList (t : Table α) : List α := t.ordered.map (·.record)

end Table

end SupplyPlan
