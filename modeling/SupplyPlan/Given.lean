import SupplyPlan.Json.Basic
import SupplyPlan.Time.Instant

namespace SupplyPlan

/-- A value that is not of the wanted kind. -/
inductive Foreign where
  | json (v : Json)
  | date (d : Date)
  deriving Repr

/-- How the value is shown inside a message. -/
def Foreign.literal : Foreign → Text
  | .json v => v.literal
  | .date d =>
    let (year, month, day) := d.civil
    "datetime.date(" ++ toString year ++ ", " ++ toString month ++ ", " ++ toString day ++ ")"

/-- How the value is written in running text. -/
def Foreign.text : Foreign → Text
  | .json (.string s) => s
  | .json v => v.literal
  | .date d => d.text

/-- The absent value. -/
def Foreign.null : Foreign := .json .null

/-- An argument that should be an `α`. -/
inductive Given (α : Type) where
  | proper (a : α)
  | other (v : Foreign)
  deriving Repr

/-- A number of units as a caller gives it. -/
abbrev Amount := Given Quantity

namespace Amount

/-- The value an amount was given as; a date is none. -/
def toJson? : Amount → Option Json
  | .proper q => some (.number q)
  | .other (.json v) => some v
  | .other (.date _) => none

/-- The number an amount stands for in arithmetic, where truth values count as one and zero. -/
def toQuantity? (a : Amount) : Option Quantity := a.toJson?.bind Json.toQuantity?

/-- How an amount is written in running text. -/
def text : Amount → Text
  | .proper q => q.text
  | .other v => v.text

end Amount

/-- A point in time as a caller gives it. -/
abbrev Moment := Given Instant

/-- How a moment is written in running text. -/
def Moment.text : Moment → Text
  | .proper t => t.text
  | .other v => v.text

/-- The name under which a record is stored. -/
inductive RecordId where
  | text (s : Text)
  | int (n : Int)
  | flag (b : Bool)
  | absent
  deriving DecidableEq, Repr

/-- The id that a caller names, or leaves out. -/
def RecordId.named : Option Text → RecordId
  | some name => .text name
  | none => .absent

def RecordId.literal : RecordId → Text
  | .text s => Text.quote s
  | .int n => toString n
  | .flag true => "True"
  | .flag false => "False"
  | .absent => "None"

end SupplyPlan
