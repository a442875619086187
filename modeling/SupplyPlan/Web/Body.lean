import SupplyPlan.Json.Reader
import SupplyPlan.Text.Encoding
import SupplyPlan.Web.Field

namespace SupplyPlan.Web

/-- A part of a request that is refused, and what stood there: a field, or the whole body if that is no object or lacks
the field. -/
structure Refusal where
  field : Option Text
  position : Option Nat
  fault : FieldFault
  input : Option Json
  deriving Repr

namespace Refusal

def ofBody (fault : FieldFault) (input : Option Json) : Refusal := ⟨none, none, fault, input⟩

def ofPosition (position : Nat) : Refusal := ⟨none, some position, .unreadableBody, none⟩

/-- The refusal of a field, if its reading failed. -/
def ofField? {α : Type} (body : Json) (name : Text) : Except FieldFault α → Option Refusal
  | .ok _ => none
  | .error fault => some ⟨some name, none, fault, some ((body.field? name).getD body)⟩

end Refusal

/-- A request body as it arrives. -/
inductive RawBody where
  | absent
  | text (s : String)
  | json (v : Json)

/-- Why nothing can be taken from a body. All faulty fields are told, in the order of the record. -/
inductive BodyFault where
  | refused (refusals : List Refusal)
  /-- The text is in no encoding of JSON, or its values are too large to be read. -/
  | undecodable
  deriving Repr

/-- How deeply the values of a body may nest. -/
def nestingLimit : Nat := 964

/-- A body has to be an object. -/
def objectOf : Json → Except BodyFault Json
  | .object members => .ok (.object members)
  | v => .error (.refused [.ofBody .notAnObject (some v)])

/-- The object that a body holds; an empty text is no body. -/
def RawBody.object : RawBody → Except BodyFault Json
  | .absent => .error (.refused [.ofBody .missing none])
  | .text s =>
    if s = "" then .error (.refused [.ofBody .missing none])
    else
      match Text.decoded? s with
      | none => .error .undecodable
      | some points =>
        match Json.read nestingLimit points with
        | .ok v => objectOf v
        | .error (.malformed left) => .error (.refused [.ofPosition (points.length - left)])
        | .error .excessive => .error .undecodable
  | .json v => if nestingLimit < v.depth then .error .undecodable else objectOf v

/-- How the framework beneath the interface reads a request: the object in a body, and what it takes for a text, a
number, an integer, a truth value and an instant. What is proved of requests assumes nothing of it. -/
structure Reader where
  object : RawBody → Except BodyFault Json
  text : Read Text
  number : Read Binary64
  integer : Read Int
  truth : Read Bool
  instant : Read Instant

namespace Reader

def standard : Reader where
  object := RawBody.object
  text := readText
  number := readNumber
  integer := readInteger
  truth := readTruth
  instant := readInstant

/-- An amount of units: a number that is not below zero, and no NaN. -/
def amount (reader : Reader) : Read Quantity := fun v => do
  let x ← reader.number v
  if (Quantity.float x).lt (.int 0) || x = .nan then .error .negative else .ok (.float x)

/-- A number of days, not below zero. -/
def days (reader : Reader) : Read Amount := fun v => do
  let n ← reader.integer v
  if n < 0 then .error .negative else .ok (.proper (.int n))

end Reader

/-- A shortage to propose an order for. -/
structure ProposalBody where
  product : Text
  requiredBy : Instant
  quantity : Quantity
  facility : Option Text
  manufacturingFacility : Option Text
  isBuilt : Option Bool
  daysToShip : Option Amount
  planName : Option Text

def ProposalBody.read (reader : Reader) (body : Json) : Except BodyFault ProposalBody :=
  let product := Read.required reader.text "product_id" body
  let requiredBy := Read.required reader.instant "required_by_date" body
  let quantity := Read.required reader.amount "quantity" body
  let facility := Read.withDefault (Read.orNull reader.text) "facility_id" none body
  let manufacturing := Read.withDefault (Read.orNull reader.text) "manufacturing_facility_id" none body
  let isBuilt := Read.withDefault (Read.orNull reader.truth) "is_built" none body
  let daysToShip := Read.withDefault (Read.orNull reader.days) "days_to_ship" none body
  let planName := Read.withDefault (Read.orNull reader.text) "mrp_name" none body
  match product, requiredBy, quantity, facility, manufacturing, isBuilt, daysToShip, planName with
  | .ok product, .ok requiredBy, .ok quantity, .ok facility, .ok manufacturingFacility, .ok isBuilt,
    .ok daysToShip, .ok planName =>
    .ok {
      product, requiredBy, quantity, facility, manufacturingFacility, isBuilt, daysToShip, planName }
  | _, _, _, _, _, _, _, _ =>
    .error (.refused ([Refusal.ofField? body "product_id" product,
      Refusal.ofField? body "required_by_date" requiredBy,
      Refusal.ofField? body "quantity" quantity,
      Refusal.ofField? body "facility_id" facility,
      Refusal.ofField? body "manufacturing_facility_id" manufacturing,
      Refusal.ofField? body "is_built" isBuilt,
      Refusal.ofField? body "days_to_ship" daysToShip,
      Refusal.ofField? body "mrp_name" planName].filterMap id))

/-- A product to schedule. -/
structure ScheduleBody where
  completion : Instant
  quantity : Quantity
  daysToShip : Amount

def ScheduleBody.read (reader : Reader) (body : Json) : Except BodyFault ScheduleBody :=
  let completion := Read.required reader.instant "completion_instant" body
  let quantity := Read.required reader.amount "quantity" body
  let daysToShip := Read.withDefault reader.days "days_to_ship" (.proper (.int 0)) body
  match completion, quantity, daysToShip with
  | .ok completion, .ok quantity, .ok daysToShip => .ok { completion, quantity, daysToShip }
  | _, _, _ =>
    .error (.refused ([Refusal.ofField? body "completion_instant" completion,
      Refusal.ofField? body "quantity" quantity,
      Refusal.ofField? body "days_to_ship" daysToShip].filterMap id))

end SupplyPlan.Web
