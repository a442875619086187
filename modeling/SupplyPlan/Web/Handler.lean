import SupplyPlan.Planning.Proposal
import SupplyPlan.Web.Body
import SupplyPlan.Web.Route

namespace SupplyPlan.Web

structure Request where
  method : Text
  path : Text
  /-- The product that a listing is limited to. -/
  productFilter : Option Text
  body : RawBody

inductive Answer where
  | content (status : Nat) (body : Json)
  | refused (refusals : List Refusal)
  deriving Repr

def instantJson (t : Instant) : Json := .string t.zuluText

def optionJson {α : Type} (encode : α → Json) : Option α → Json
  | some a => encode a
  | none => .null

/-- An id that is shown has to be there. -/
def shownId : Option Text → Except PlanError Text
  | some id => .ok id
  | none => .error .invalidResponse

def idsJson (ids : List (Option Text)) : Except PlanError Json := do
  return .array ((← ids.mapM shownId).map .string)

def startsJson (starts : List (Option Text × Instant)) : Except PlanError Json :=
  .object <$> starts.mapM fun (id, t) => do return (← shownId id, instantJson t)

def detail (status : Nat) (text : Text) : Answer :=
  .content status (.object [("detail", .string text)])

/-- Amounts are shown as doubles, and read as in a body. -/
def shownAmount (reader : Reader) (a : Amount) : Except PlanError Binary64 :=
  match a.toJson?.map reader.number with
  | some (.ok x) => .ok x
  | _ => .error .invalidResponse

/-- Moments are shown as instants, and read as in a body; a date is its midnight. -/
def shownMoment (reader : Reader) : Moment → Except PlanError Instant
  | .proper t => .ok t
  | .other (.date d) => .ok (Instant.combine d (.hour 0 (by decide)))
  | .other (.json v) =>
    match reader.instant v with
    | .ok t => .ok t
    | .error _ => .error .invalidResponse

/-- Numbers that are not finite are shown as nothing. -/
def numberJson (x : Binary64) : Json := if x.isFinite then .number (.float x) else .null

/-- A requirement whose dates and quantity can be shown; the required date and the facility have to be there. -/
def requirementJson (reader : Reader) (r : Requirement) : Except PlanError Json := do
  let due ← shownMoment reader (r.requiredBy.getD (.other .null))
  let start ← r.start.mapM (shownMoment reader)
  let quantity ← shownAmount reader r.quantity
  let product ← shownId r.product
  let facility ← shownId r.facility
  return .object
    [("id", .string r.id),
     ("product_id", .string product),
     ("facility_id", .string facility),
     ("requirement_type", .string r.requirementType.code),
     ("status", .string r.status.code),
     ("required_by_date", instantJson due),
     ("requirement_start_date", optionJson instantJson start),
     ("quantity", numberJson quantity),
     ("description", .string r.description)]

def failureText (failure : Option Text × LookupFault) : Text := failure.2.text failure.1

def proposalJson (reader : Reader) (o : ProposalOutcome) (due : Instant) : Except PlanError Json := do
  let quantity ← shownAmount reader o.order.quantity
  let start ← shownMoment reader o.calculation.start
  let product ← shownId o.order.product.id
  let taskStarts ← startsJson o.calculation.taskStarts
  let fallbacks ← idsJson o.calculation.fallbacks
  return .object
    [("requirement_id", optionJson .string o.requirement),
     ("product_id", .string product),
     ("quantity", numberJson quantity),
     ("is_built", .bool o.order.isMade),
     ("required_by_date", instantJson due),
     ("requirement_start_date", instantJson start),
     ("routing_id", optionJson .string o.calculation.routing),
     ("task_start_dates", taskStarts),
     ("calendar_fallbacks", fallbacks),
     ("failure", optionJson (fun f => .string (failureText f)) o.calculation.failure)]

def scheduleJson (routing : Text) (s : Schedule) : Except PlanError Json := do
  let starts ← startsJson s.starts
  let fallbacks ← idsJson s.fallbacks
  return .object
    [("routing_id", .string routing),
     ("completion_instant", instantJson s.completion),
     ("start_instant", instantJson s.start),
     ("start_dates", starts),
     ("calendar_fallbacks", fallbacks)]

/-- The answer to an error: a missing record is not found, a refused request cannot be processed, any other planning
error is a conflict. -/
def refusal : PlanError → Planning Answer
  | .recordNotFound record => return detail 404 record.text
  | .invalidRequest fault => return detail 422 fault.text
  | e@(.planning _) | e@(.bomCycle _) | e@(.calendarUnavailable ..) | e@(.lookupFailed ..) =>
    return detail 409 e.message
  | e => throw e

/-- For a schedule the missing data of a product is missing like a record. -/
def scheduleRefusal : PlanError → Planning Answer
  | .lookupFailed subject fault => return detail 404 (fault.text subject)
  | e => refusal e

def ProposalBody.request (b : ProposalBody) : ProposalRequest where
  product := some b.product
  requiredBy := some (.proper b.requiredBy)
  quantity := .proper b.quantity
  facility := b.facility
  manufacturingFacility := b.manufacturingFacility
  isBuilt := b.isBuilt
  daysToShip := b.daysToShip
  planName := b.planName

def propose (reader : Reader) (b : ProposalBody) : Planning Answer := do
  let proposed : Except PlanError ProposalOutcome ←
    try .ok <$> proposeOrder b.request
    catch e => pure (.error e)
  match proposed with
  | .ok outcome => return .content 200 (← Planning.ask fun _ => proposalJson reader outcome b.requiredBy)
  | .error e => refusal e

/-- The routing of a product and its schedule for a body. -/
def productSchedule (p : Planner) (product : Text) (b : ScheduleBody) :
    Logged (Routing × Schedule) := do
  let product ← p.products.get (.text product)
  let routing ← p.resolveRouting product (some (.proper b.completion))
  let offset ← p.leadTimeOffset b.daysToShip
  let s ← p.scheduleRouting routing (.proper b.completion) (.proper b.quantity) (.proper offset)
  return (routing, s)

def scheduleProduct (product : Text) (b : ScheduleBody) : Planning Answer := do
  try
    let (routing, s) ← Planning.askLogged fun p => productSchedule p product b
    return .content 200 (← Planning.ask fun _ => scheduleJson routing.id s)
  catch e => scheduleRefusal e

def listing (reader : Reader) (p : Planner) (product : Option Text) : Except PlanError Json := do
  return .array (← (← p.listRequirements product).mapM (requirementJson reader))

def showRequirement (reader : Reader) (id : Text) : Planning Answer := do
  let found : Except PlanError Requirement ←
    try .ok <$> Planning.ask (·.requirements.get (.text id))
    catch e => pure (.error e)
  match found with
  | .ok r =>
    return .content 200 (← Planning.ask fun _ => requirementJson reader r)
  | .error (.recordNotFound record) => return detail 404 record.text
  | .error e => throw e

/-- Reads a body and goes on with the record, or refuses the body. -/
def withBody {α : Type} (reader : Reader) (body : RawBody) (read : Json → Except BodyFault α)
    (next : α → Planning Answer) : Planning Answer :=
  match (reader.object body).bind read with
  | .ok a => next a
  | .error (.refused refusals) => return .refused refusals
  | .error .undecodable => return detail 400 "There was an error parsing the body"

def respond (reader : Reader) (r : Request) : Planning Answer :=
  match Target.of r.method r.path with
  | .route .proposals => withBody reader r.body (ProposalBody.read reader) (propose reader)
  | .route (.productSchedule product) =>
    withBody reader r.body (ScheduleBody.read reader) (scheduleProduct product)
  | .route .requirements => do
    return .content 200 (← Planning.ask (listing reader · r.productFilter))
  | .route (.requirement id) => showRequirement reader id
  | .route .documentation => return .content 200 .null
  | .wrongMethod => return detail 405 "Method Not Allowed"
  | .redirect => return .content 307 .null
  | .unknown => return detail 404 "Not Found"

/-- Members whose name starts like this are kept by the server for itself. -/
def reservedPrefix : Text := "_sa"

mutual

/-- What a refusal repeats of a value: members with a reserved name are left out. -/
def repeatedInput : Json → Json
  | .array items => .array (repeatedItems items)
  | .object members => .object (repeatedMembers members)
  | v => v

def repeatedItems : List Json → List Json
  | [] => []
  | item :: rest => repeatedInput item :: repeatedItems rest

def repeatedMembers : List (Text × Json) → List (Text × Json)
  | [] => []
  | (name, value) :: rest =>
    if reservedPrefix.points.isPrefixOf name.points then repeatedMembers rest
    else (name, repeatedInput value) :: repeatedMembers rest

end

mutual

/-- Whether a value can be written as JSON whose values nest no deeper than a limit: only finite numbers can. The first
obstacle counts. -/
def checkWritable (limit : Nat) : Json → Except PlanError Unit
  | .number (.float x) => if x.isFinite then .ok () else .error .unreadableValue
  | .array items =>
    match limit with
    | 0 => .error .tooDeep
    | limit + 1 => checkWritableItems limit items
  | .object members =>
    match limit with
    | 0 => .error .tooDeep
    | limit + 1 => checkWritableMembers limit members
  | _ => .ok ()

def checkWritableItems (limit : Nat) : List Json → Except PlanError Unit
  | [] => .ok ()
  | item :: rest => do
    checkWritable limit item
    checkWritableItems limit rest

def checkWritableMembers (limit : Nat) : List (Text × Json) → Except PlanError Unit
  | [] => .ok ()
  | (_, value) :: rest => do
    checkWritable limit value
    checkWritableMembers limit rest

end

/-- How deeply the values may nest that a refusal repeats. -/
def repetitionLimit : Nat := 959

/-- The answer, if it can be written: a half of a surrogate pair has no bytes, and a refusal repeats what was
refused. -/
def Answer.checked : Answer → Except PlanError Answer
  | .content status body =>
    if body.isEncodable then .ok (.content status body)
    else .error (if status = 200 then .unwritableResponse else .unencodable)
  | .refused refusals => do
    let inputs := (refusals.filterMap (·.input)).map repeatedInput
    inputs.forM (checkWritable repetitionLimit)
    if inputs.all Json.isEncodable then .ok (.refused refusals) else .error .unencodable

/-- The answer to a request; an error without a status stays an error. -/
def Reader.handle (reader : Reader) (r : Request) : Planning Answer := do
  let answer ← respond reader r
  Planning.ask fun _ => answer.checked

def handle : Request → Planning Answer := Reader.standard.handle

end SupplyPlan.Web
