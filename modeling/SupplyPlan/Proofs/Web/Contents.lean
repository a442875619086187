import SupplyPlan.Web.Handler
import SupplyPlan.Proofs.Planning.Loading

namespace SupplyPlan

namespace Json

variable {v w : Json} {name : Text}

theorem areEncodableMembers_iff {members : List (Text × Json)} :
    areEncodableMembers members = true ↔ ∀ e ∈ members, e.1.isEncodable ∧ e.2.isEncodable := by
  induction members with
  | nil => simp [areEncodableMembers]
  | cons e rest ih => simp [areEncodableMembers, ih]

theorem isEncodable_of_field? (h : v.isEncodable) (hfield : v.field? name = some w) : w.isEncodable := by
  cases v with
  | object members =>
    obtain ⟨e, hfind, rfl⟩ := Option.map_eq_some_iff.mp hfield
    have hmembers : areEncodableMembers members = true := by rwa [isEncodable] at h
    exact (areEncodableMembers_iff.mp hmembers e (List.mem_of_find?_eq_some hfind)).2
  | _ => cases hfield

/-- Two objects have the same value, each under its own name. -/
def Shares (v : Json) (name : Text) (w : Json) (name' : Text) : Prop :=
  ∃ x, v.field? name = some x ∧ w.field? name' = some x

end Json

namespace Web

variable {reader : Reader}

theorem isEncodable_instantJson (t : Instant) : (instantJson t).isEncodable := by
  rw [instantJson, Json.isEncodable]
  exact Text.isEncodable_ofString _

theorem isEncodable_numberJson (x : Binary64) : (numberJson x).isEncodable := by
  unfold numberJson
  split <;> rfl

theorem shownId_eq_ok_iff {id : Option Text} {shown : Text} : shownId id = .ok shown ↔ id = some shown := by
  cases id <;> simp [shownId]

/-- A content shows an outcome of a proposal. -/
structure ShowsOutcome (reader : Reader) (body : Json) (o : ProposalOutcome) (due : Instant) : Prop where
  requirement : body.field? "requirement_id" = some (optionJson .string o.requirement)
  product : ∃ product, o.order.product.id = some product ∧ body.field? "product_id" = some (.string product)
  quantity : ∃ x, shownAmount reader o.order.quantity = .ok x ∧ body.field? "quantity" = some (numberJson x)
  isMade : body.field? "is_built" = some (.bool o.order.isMade)
  requiredBy : body.field? "required_by_date" = some (instantJson due)
  start : ∃ t, shownMoment reader o.calculation.start = .ok t ∧
    body.field? "requirement_start_date" = some (instantJson t)
  routing : body.field? "routing_id" = some (optionJson .string o.calculation.routing)
  taskStarts : ∃ v, startsJson o.calculation.taskStarts = .ok v ∧ body.field? "task_start_dates" = some v
  fallbacks : ∃ v, idsJson o.calculation.fallbacks = .ok v ∧ body.field? "calendar_fallbacks" = some v
  failure : body.field? "failure" = some (optionJson (fun f => .string (failureText f)) o.calculation.failure)

theorem showsOutcome_of_proposalJson {o : ProposalOutcome} {due : Instant} {body : Json}
    (h : proposalJson reader o due = .ok body) : ShowsOutcome reader body o due := by
  obtain ⟨quantity, hquantity, h⟩ := bind_eq_ok_iff.mp h
  obtain ⟨start, hstart, h⟩ := bind_eq_ok_iff.mp h
  obtain ⟨product, hproduct, h⟩ := bind_eq_ok_iff.mp h
  obtain ⟨taskStarts, htaskStarts, h⟩ := bind_eq_ok_iff.mp h
  obtain ⟨fallbacks, hfallbacks, h⟩ := bind_eq_ok_iff.mp h
  obtain rfl := Except.ok.inj h
  exact {
    requirement := rfl
    product := ⟨product, shownId_eq_ok_iff.mp hproduct, rfl⟩
    quantity := ⟨quantity, hquantity, rfl⟩
    isMade := rfl
    requiredBy := rfl
    start := ⟨start, hstart, rfl⟩
    routing := rfl
    taskStarts := ⟨taskStarts, htaskStarts, rfl⟩
    fallbacks := ⟨fallbacks, hfallbacks, rfl⟩
    failure := rfl }

/-- A content shows a requirement. -/
structure ShowsRequirement (reader : Reader) (body : Json) (r : Requirement) : Prop where
  id : body.field? "id" = some (.string r.id)
  product : ∃ product, r.product = some product ∧ body.field? "product_id" = some (.string product)
  facility : ∃ facility, r.facility = some facility ∧ body.field? "facility_id" = some (.string facility)
  requiredBy : ∃ t, shownMoment reader (r.requiredBy.getD (.other .null)) = .ok t ∧
    body.field? "required_by_date" = some (instantJson t)
  start : ∃ start, r.start.mapM (shownMoment reader) = .ok start ∧
    body.field? "requirement_start_date" = some (optionJson instantJson start)
  quantity : ∃ x, shownAmount reader r.quantity = .ok x ∧ body.field? "quantity" = some (numberJson x)
  description : body.field? "description" = some (.string r.description)

theorem showsRequirement_of_requirementJson {r : Requirement} {body : Json} (h : requirementJson reader r = .ok body) :
    ShowsRequirement reader body r := by
  obtain ⟨due, hdue, h⟩ := bind_eq_ok_iff.mp h
  obtain ⟨start, hstart, h⟩ := bind_eq_ok_iff.mp h
  obtain ⟨quantity, hquantity, h⟩ := bind_eq_ok_iff.mp h
  obtain ⟨product, hproduct, h⟩ := bind_eq_ok_iff.mp h
  obtain ⟨facility, hfacility, h⟩ := bind_eq_ok_iff.mp h
  obtain rfl := Except.ok.inj h
  exact {
    id := rfl
    product := ⟨product, shownId_eq_ok_iff.mp hproduct, rfl⟩
    facility := ⟨facility, shownId_eq_ok_iff.mp hfacility, rfl⟩
    requiredBy := ⟨due, hdue, rfl⟩
    start := ⟨start, hstart, rfl⟩
    quantity := ⟨quantity, hquantity, rfl⟩
    description := rfl }

/-- A requirement whose dates, quantity and product can be shown needs a facility, and texts that can be written. -/
theorem exists_requirementJson_iff {r : Requirement} {due : Instant} {start : Option Instant} {quantity : Binary64}
    {product : Text} (hdue : shownMoment reader (r.requiredBy.getD (.other .null)) = .ok due)
    (hstart : r.start.mapM (shownMoment reader) = .ok start) (hquantity : shownAmount reader r.quantity = .ok quantity)
    (hproduct : r.product = some product) (hproductText : product.isEncodable) (hidText : r.id.isEncodable) :
    (∃ body, requirementJson reader r = .ok body ∧ body.isEncodable) ↔
      (∃ facility, r.facility = some facility ∧ facility.isEncodable) ∧ r.description.isEncodable := by
  constructor
  · rintro ⟨body, hbody, htext⟩
    have hshows := showsRequirement_of_requirementJson hbody
    obtain ⟨facility, hfacility, hfield⟩ := hshows.facility
    have hfacilityText := Json.isEncodable_of_field? htext hfield
    have hdescriptionText := Json.isEncodable_of_field? htext hshows.description
    rw [Json.isEncodable] at hfacilityText hdescriptionText
    exact ⟨⟨facility, hfacility, hfacilityText⟩, hdescriptionText⟩
  · rintro ⟨⟨facility, hfacility, hfacilityText⟩, hdescriptionText⟩
    refine ⟨.object [("id", .string r.id), ("product_id", .string product), ("facility_id", .string facility),
      ("requirement_type", .string r.requirementType.code), ("status", .string r.status.code),
      ("required_by_date", instantJson due), ("requirement_start_date", optionJson instantJson start),
      ("quantity", numberJson quantity), ("description", .string r.description)], ?_, ?_⟩
    · rw [requirementJson, hdue, hstart, hquantity, hproduct, hfacility]
      rfl
    · have hstartText : (optionJson instantJson start).isEncodable := by
        cases start with
        | none => rfl
        | some t => exact isEncodable_instantJson t
      rw [Json.isEncodable, Json.areEncodableMembers_iff]
      simp only [List.forall_mem_cons, List.not_mem_nil, false_imp_iff, implies_true, and_true, Json.isEncodable,
        Text.isEncodable_ofString, isEncodable_instantJson, isEncodable_numberJson, true_and]
      exact ⟨hidText, hproductText, hfacilityText, hstartText, hdescriptionText⟩

end Web

end SupplyPlan
