import SupplyPlan.Given
import SupplyPlan.Time.Reading
import SupplyPlan.Web.Numeral
import SupplyPlan.Web.Timestamp

namespace SupplyPlan.Web

/-- Why a value is refused. -/
inductive FieldFault where
  | missing
  | notAnObject
  | notText
  | notNumber
  | unreadableNumber
  | notInteger
  | unreadableInteger
  | integerTooLarge
  | fractional
  | notFinite
  | notTruth
  | unreadableTruth
  | notInstant
  | unreadableInstant
  | impossibleInstant
  | negative
  | unreadableBody
  deriving DecidableEq, Repr

def FieldFault.code : FieldFault → String
  | missing => "missing"
  | notAnObject => "model_attributes_type"
  | notText => "string_type"
  | notNumber => "float_type"
  | unreadableNumber => "float_parsing"
  | notInteger => "int_type"
  | unreadableInteger => "int_parsing"
  | integerTooLarge => "int_parsing_size"
  | fractional => "int_from_float"
  | notFinite => "finite_number"
  | notTruth => "bool_type"
  | unreadableTruth => "bool_parsing"
  | notInstant => "datetime_type"
  | unreadableInstant => "datetime_from_date_parsing"
  | impossibleInstant => "datetime_parsing"
  | negative => "greater_than_equal"
  | unreadableBody => "json_invalid"

/-- A value taken from JSON. -/
abbrev Read (α : Type) := Json → Except FieldFault α

namespace Read

variable {α : Type}

/-- Also takes a null. -/
def orNull (read : Read α) : Read (Option α)
  | .null => .ok none
  | v => some <$> read v

/-- The member of an object, which has to be there. -/
def required (read : Read α) (name : Text) (body : Json) : Except FieldFault α :=
  match body.field? name with
  | some v => read v
  | none => .error .missing

/-- The member of an object, or a value in its place. -/
def withDefault (read : Read α) (name : Text) (value : α) (body : Json) : Except FieldFault α :=
  match body.field? name with
  | some v => read v
  | none => .ok value

end Read

/-- Nothing is converted to text. -/
def readText : Read Text
  | .string s => .ok s
  | _ => .error .notText

/-- Numbers, their texts and truth values are taken for a double. -/
def readNumber : Read Binary64
  | .number q =>
    match q.toBinary64? with
    | some x => .ok x
    | none => .error .notNumber
  | .bool b => .ok (.ofInt (if b then 1 else 0))
  | .string s =>
    match s.chars?.bind Numeral.double? with
    | some x => .ok x
    | none => .error .unreadableNumber
  | _ => .error .notNumber

/-- Whether an integer fits into 64 bits. -/
def isWord (n : Int) : Bool := -Int.pow 2 63 ≤ n && n < Int.pow 2 63

/-- The integer that a double is, if it is one and lies between the ends of 64 bits. -/
def wordOfDouble? (x : Binary64) : Option Int := x.toInt?.filter fun n => -Int.pow 2 63 < n && n < Int.pow 2 63

/-- Integers, doubles of 64 bits without a fraction, their texts and truth values are taken for an integer. -/
def readInteger : Read Int
  | .number (.int n) => .ok n
  | .number (.float x) =>
    match wordOfDouble? x with
    | some n => .ok n
    | none =>
      .error (if !x.isFinite then .notFinite else if x.toInt?.isNone then .fractional else .integerTooLarge)
  | .bool b => .ok (if b then 1 else 0)
  | .string s =>
    if s.chars?.any Numeral.isOverlong then .error .integerTooLarge
    else
      match s.chars?.bind Numeral.integer? with
      | some n => .ok n
      | none => .error .unreadableInteger
  | _ => .error .notInteger

/-- Zero and one stand for truth values, other integers of 64 bits cannot be read as one. -/
def truthOfInteger (n : Int) : Except FieldFault Bool :=
  if n = 0 then .ok false
  else if n = 1 then .ok true
  else .error (if isWord n then .unreadableTruth else .notTruth)

/-- Zero and one, as numbers or texts, and some words are taken for truth values. -/
def readTruth : Read Bool
  | .bool b => .ok b
  | .number (.int n) => truthOfInteger n
  | .number (.float x) =>
    match wordOfDouble? x with
    | some n => truthOfInteger n
    | none => .error .notTruth
  | .string s =>
    let word := s.toString?.map String.toLower
    if [some "1", some "on", some "t", some "true", some "y", some "yes"].contains word then .ok true
    else if [some "0", some "off", some "f", some "false", some "n", some "no"].contains word then
      .ok false
    else .error .unreadableTruth
  | _ => .error .notTruth

/-- Whether a text would be an instant if its year were not zero; the year four has the same dates. -/
def namesYearZero (s : String) : Bool :=
  match s.toList with
  | '0' :: '0' :: '0' :: '0' :: rest => (Instant.read? ("0004" ++ String.ofList rest)).isSome
  | _ => false

/-- An instant written as a date, with or without a time, or as a number. -/
def instantOfText (s : String) : Except FieldFault Instant :=
  match Instant.read? s with
  | some t => .ok t
  | none =>
    if namesYearZero s then .error .impossibleInstant
    else
      match (Numeral.seconds? s.toList).map Timestamp.ofQuantity with
      | some (.ok t) => .ok t
      | some (.error .yearZero) => .error .impossibleInstant
      | some (.error .outOfRange) | none => .error .unreadableInstant

/-- Instants are texts or numbers. -/
def readInstant : Read Instant
  | .string s =>
    match s.toString? with
    | some s => instantOfText s
    | none => .error .unreadableInstant
  | .number q =>
    if q.toBinary64?.isNone then .error .notInstant
    else
      match Timestamp.ofQuantity q with
      | .ok t => .ok t
      | .error _ => .error .impossibleInstant
  | _ => .error .notInstant

end SupplyPlan.Web
