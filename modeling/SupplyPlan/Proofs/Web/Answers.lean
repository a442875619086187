import SupplyPlan.Proofs.Planning.Drawing
import SupplyPlan.Proofs.Planning.Proposal
import SupplyPlan.Proofs.Web.Contents

namespace SupplyPlan

namespace Planning

variable {α β : Type} {x : Planning α} {s s' : Session}

theorem perform_map (f : α → β) (x : Planning α) (s : Session) :
    (f <$> x).perform s = (f <$> (x.perform s).1, (x.perform s).2) := by
  rw [map_eq_pure_bind, perform_bind]
  rcases x.perform s with ⟨_ | _, s'⟩ <;> rfl

theorem perform_tryCatch (x : Planning α) (handle : PlanError → Planning α) (s : Session) :
    (tryCatch x handle).perform s =
      match x.perform s with
      | (.ok a, s') => (.ok a, s')
      | (.error e, s') => (handle e).perform s' := by
  simp only [perform, ExceptT.run, StateT.run, tryCatch, tryCatchThe, MonadExceptOf.tryCatch, ExceptT.tryCatch,
    ExceptT.mk, bind, StateT.bind]
  rcases x s with ⟨_ | _, s'⟩ <;> rfl

theorem perform_tryCatch_of_ok {a : α} (h : x.perform s = (.ok a, s')) (handle : PlanError → Planning α) :
    (tryCatch x handle).perform s = (.ok a, s') := by
  rw [perform_tryCatch, h]

theorem perform_tryCatch_of_error {e : PlanError} (h : x.perform s = (.error e, s'))
    (handle : PlanError → Planning α) : (tryCatch x handle).perform s = (handle e).perform s' := by
  rw [perform_tryCatch, h]

/-- An operation that leaves the planner as it was. -/
def IsQuiet (x : Planning α) : Prop := ∀ s, (x.perform s).2.planner = s.planner

theorem isQuiet_pure (a : α) : (pure a : Planning α).IsQuiet := fun _ => rfl

theorem isQuiet_throw (e : PlanError) : (throw e : Planning α).IsQuiet := fun _ => rfl

theorem isQuiet_ask (f : Planner → Except PlanError α) : (ask f).IsQuiet := by
  intro s
  rw [perform_ask]

theorem isQuiet_askLogged (f : Planner → Logged α) : (askLogged f).IsQuiet := by
  intro s
  rw [perform_askLogged]

theorem IsQuiet.bind {f : α → Planning β} (hx : x.IsQuiet) (hf : ∀ a, (f a).IsQuiet) : (x >>= f).IsQuiet := by
  intro s
  have hfirst := hx s
  rw [perform_bind]
  rcases hperform : x.perform s with ⟨e | a, s'⟩
  · rwa [hperform] at hfirst
  · rw [hperform] at hfirst
    exact (hf a s').trans hfirst

theorem IsQuiet.map (hx : x.IsQuiet) (f : α → β) : (f <$> x).IsQuiet := by
  intro s
  rw [perform_map]
  exact hx s

theorem IsQuiet.tryCatch {handle : PlanError → Planning α} (hx : x.IsQuiet) (hhandle : ∀ e, (handle e).IsQuiet) :
    (tryCatch x handle).IsQuiet := by
  intro s
  have hfirst := hx s
  rcases hperform : x.perform s with ⟨e | a, s'⟩
  · rw [hperform] at hfirst
    rw [perform_tryCatch_of_error hperform]
    exact (hhandle e s').trans hfirst
  · rw [hperform] at hfirst
    rwa [perform_tryCatch_of_ok hperform]

end Planning

namespace Web

open Planning

variable {reader : Reader} {s s' : Session} {b : ProposalBody} {request : Request} {body : Json}

/-- A body is read as a record if each field is. -/
theorem ProposalBody.read_eq_ok_iff : ProposalBody.read reader body = .ok b ↔
    Read.required reader.text "product_id" body = .ok b.product ∧
      Read.required reader.instant "required_by_date" body = .ok b.requiredBy ∧
      Read.required reader.amount "quantity" body = .ok b.quantity ∧
      Read.withDefault (Read.orNull reader.text) "facility_id" none body = .ok b.facility ∧
      Read.withDefault (Read.orNull reader.text) "manufacturing_facility_id" none body = .ok b.manufacturingFacility ∧
      Read.withDefault (Read.orNull reader.truth) "is_built" none body = .ok b.isBuilt ∧
      Read.withDefault (Read.orNull reader.days) "days_to_ship" none body = .ok b.daysToShip ∧
      Read.withDefault (Read.orNull reader.text) "mrp_name" none body = .ok b.planName := by
  constructor
  · intro h
    unfold read at h
    dsimp only at h
    split at h
    · obtain rfl := Except.ok.inj h
      exact ⟨‹_›, ‹_›, ‹_›, ‹_›, ‹_›, ‹_›, ‹_›, ‹_›⟩
    · cases h
  · rintro ⟨hproduct, hrequiredBy, hquantity, hfacility, hmanufacturing, hbuilt, hdays, hplan⟩
    rw [read, hproduct, hrequiredBy, hquantity, hfacility, hmanufacturing, hbuilt, hdays, hplan]

/-- A request that is a proposal with this body. -/
def Request.Proposes (request : Request) (reader : Reader) (b : ProposalBody) : Prop :=
  Target.of request.method request.path = .route .proposals ∧
    (reader.object request.body).bind (ProposalBody.read reader) = .ok b

theorem withBody_of_read {α : Type} {raw : RawBody} {read : Json → Except BodyFault α} {a : α}
    (h : (reader.object raw).bind read = .ok a) (next : α → Planning Answer) :
    withBody reader raw read next = next a := by
  rw [withBody, h]

/-- Without a record in the body there is nothing to go on with. -/
theorem withBody_of_not_read {α : Type} {raw : RawBody} {read : Json → Except BodyFault α}
    (h : ∀ a, (reader.object raw).bind read ≠ .ok a) (next : α → Planning Answer) :
    ∃ answer, withBody reader raw read next = pure answer ∧ ∀ body, answer ≠ .content 200 body := by
  unfold withBody
  cases hread : (reader.object raw).bind read with
  | ok a => exact absurd hread (h a)
  | error fault =>
    cases fault with
    | refused refusals => exact ⟨_, rfl, fun _ hcontent => by cases hcontent⟩
    | undecodable => exact ⟨_, rfl, fun _ hcontent => by cases hcontent⟩

theorem handle_perform (reader : Reader) (request : Request) (s : Session) :
    (reader.handle request).perform s =
      (((respond reader request).perform s).1 >>= Answer.checked, ((respond reader request).perform s).2) := by
  unfold Reader.handle
  simp only [perform_bind, perform_ask]
  rcases (respond reader request).perform s with ⟨_ | _, s'⟩ <;> rfl

theorem checked_eq_content_iff {answer : Answer} :
    answer.checked = .ok (.content 200 body) ↔ answer = .content 200 body ∧ body.isEncodable := by
  cases answer with
  | content status shown =>
    by_cases hencodable : shown.isEncodable
    · simp only [Answer.checked, hencodable, if_true, Except.ok.injEq, Answer.content.injEq]
      constructor
      · rintro ⟨rfl, rfl⟩
        exact ⟨⟨rfl, rfl⟩, hencodable⟩
      · exact And.left
    · simp only [Answer.checked, hencodable, Bool.false_eq_true, if_false, reduceCtorEq, false_iff, not_and]
      rintro hcontent hbody
      cases hcontent
      exact hencodable hbody
  | refused refusals =>
    refine ⟨fun h => ?_, fun h => by cases h.1⟩
    simp only [Answer.checked] at h
    obtain ⟨_, -, h⟩ := bind_eq_ok_iff.mp h
    split at h <;> cases h

theorem checked_detail {status : Nat} {text : Text} (h : (Json.string text).isEncodable) :
    (detail status text).checked = .ok (detail status text) := by
  refine if_pos ?_
  rw [Json.isEncodable, Json.areEncodableMembers_iff, List.forall_mem_singleton]
  exact ⟨Text.isEncodable_ofString _, h⟩

theorem handle_eq_content_iff : ((reader.handle request).perform s).1 = .ok (.content 200 body) ↔
    ((respond reader request).perform s).1 = .ok (.content 200 body) ∧ body.isEncodable := by
  rw [handle_perform]
  constructor
  · intro h
    obtain ⟨answer, hanswer, hchecked⟩ := bind_eq_ok_iff.mp h
    obtain ⟨rfl, hencodable⟩ := checked_eq_content_iff.mp hchecked
    exact ⟨hanswer, hencodable⟩
  · rintro ⟨hanswer, hencodable⟩
    exact bind_eq_ok_iff.mpr ⟨_, hanswer, checked_eq_content_iff.mpr ⟨rfl, hencodable⟩⟩

/-- The content of an answer that reports success. -/
def content? : Except PlanError Answer → Option Json
  | .ok (.content 200 body) => some body
  | _ => none

theorem exists_content {result : Except PlanError Answer} {check : Json → Bool}
    (h : (content? result).any check = true) : ∃ body, result = .ok (.content 200 body) ∧ check body = true := by
  obtain ⟨body, hfound, hcheck⟩ := (Option.any_eq_true _ _).mp h
  refine ⟨body, ?_, hcheck⟩
  unfold content? at hfound
  split at hfound
  · obtain rfl := Option.some.inj hfound
    rfl
  · cases hfound

theorem refusal_isQuiet (e : PlanError) : (refusal e).IsQuiet := by
  cases e <;> first | exact isQuiet_pure _ | exact isQuiet_throw _

theorem scheduleRefusal_isQuiet (e : PlanError) : (scheduleRefusal e).IsQuiet := by
  unfold scheduleRefusal
  split
  · exact isQuiet_pure _
  · exact refusal_isQuiet _

/-- No refusal counts as success. -/
theorem refusal_ne_content (e : PlanError) (s : Session) (body : Json) :
    ((refusal e).perform s).1 ≠ .ok (.content 200 body) := by
  intro h
  cases e <;> cases h

theorem propose_perform_of_ok {o : ProposalOutcome} (h : (proposeOrder b.request).perform s = (.ok o, s')) :
    (propose reader b).perform s = (Answer.content 200 <$> proposalJson reader o b.requiredBy, s') := by
  have hproposed : (Except.ok <$> proposeOrder b.request : Planning (Except PlanError ProposalOutcome)).perform s =
      (.ok (.ok o), s') := by
    rw [perform_map, h]
    rfl
  unfold propose
  rw [perform_bind, perform_tryCatch_of_ok hproposed]
  simp only [perform_bind, perform_ask]
  cases proposalJson reader o b.requiredBy <;> rfl

theorem propose_perform_of_error {e : PlanError} (h : (proposeOrder b.request).perform s = (.error e, s')) :
    (propose reader b).perform s = (refusal e).perform s' := by
  have hproposed : (Except.ok <$> proposeOrder b.request : Planning (Except PlanError ProposalOutcome)).perform s =
      (.error e, s') := by
    rw [perform_map, h]
    rfl
  unfold propose
  rw [perform_bind, perform_tryCatch_of_error hproposed]
  rfl

/-- The planner after a proposal is the one after its order, whatever is answered. -/
theorem propose_planner (reader : Reader) (b : ProposalBody) (s : Session) :
    ((propose reader b).perform s).2.planner = ((proposeOrder b.request).perform s).2.planner := by
  rcases hperform : (proposeOrder b.request).perform s with ⟨e | o, s'⟩
  · rw [propose_perform_of_error hperform]
    exact refusal_isQuiet e s'
  · rw [propose_perform_of_ok hperform]

theorem Request.Proposes.respond_eq (h : request.Proposes reader b) : respond reader request = propose reader b := by
  rw [respond, h.1]
  exact withBody_of_read h.2 (propose reader)

/-- A proposal is answered with content exactly if its order is made and the outcome can be written. -/
theorem Request.Proposes.answer_iff (h : request.Proposes reader b) :
    ((reader.handle request).perform s).1 = .ok (.content 200 body) ↔
      ∃ o, ((proposeOrder b.request).perform s).1 = .ok o ∧ proposalJson reader o b.requiredBy = .ok body ∧
        body.isEncodable := by
  rw [handle_eq_content_iff, h.respond_eq]
  rcases hperform : (proposeOrder b.request).perform s with ⟨e | o, s'⟩
  · rw [propose_perform_of_error hperform]
    exact ⟨fun hanswer => absurd hanswer.1 (refusal_ne_content e s' body), fun ⟨_, hok, _⟩ => by cases hok⟩
  · rw [propose_perform_of_ok hperform]
    constructor
    · rintro ⟨hanswer, hencodable⟩
      obtain ⟨_, hjson, hbody⟩ := map_eq_ok_iff.mp hanswer
      obtain rfl := (Answer.content.inj hbody).2
      exact ⟨o, rfl, hjson, hencodable⟩
    · rintro ⟨_, hok, hjson, hencodable⟩
      cases hok
      exact ⟨map_eq_ok_iff.mpr ⟨body, hjson, rfl⟩, hencodable⟩

/-- The content of an answered proposal shows an outcome that answers the request. -/
theorem Request.Proposes.exists_outcome (h : request.Proposes reader b)
    (hanswer : ((reader.handle request).perform s).1 = .ok (.content 200 body)) :
    ∃ o, ((proposeOrder b.request).perform s).1 = .ok o ∧ b.request.IsAnsweredBy s.planner o.order o.calculation ∧
      ShowsOutcome reader body o b.requiredBy ∧ body.isEncodable := by
  obtain ⟨o, ho, hjson, hencodable⟩ := h.answer_iff.mp hanswer
  have hproposed := proposeOrder_proposed b.request s
  rw [ho] at hproposed
  cases hproposed with
  | made horder _ =>
    exact ⟨o, ho, b.request.isAnsweredBy_of_order horder, showsOutcome_of_proposalJson hjson, hencodable⟩

/-- The body of a request for five pieces of a product that come without delay. -/
def fivePieces (product : Text) (isBuilt : Bool) (planName : Json) : Json :=
  .object
    [("product_id", .string product), ("required_by_date", .string "2024-03-04T08:00:00"),
      ("quantity", .number (.int 5)), ("is_built", .bool isBuilt), ("days_to_ship", .number (.int 0)),
      ("mrp_name", planName)]

def Request.forFivePieces (product : Text) (isBuilt : Bool) (planName : Option Text) : Request where
  method := "POST"
  path := "/proposals"
  productFilter := none
  body := .json (fivePieces product isBuilt (optionJson .string planName))

theorem exists_proposes_fivePieces (product : Text) (isBuilt : Bool) (planName : Option Text) :
    ∃ due quantity, Reader.standard.instant (.string "2024-03-04T08:00:00") = .ok due ∧
      Reader.standard.amount (.number (.int 5)) = .ok quantity ∧
      (Request.forFivePieces product isBuilt planName).Proposes .standard
        ⟨product, due, quantity, none, none, some isBuilt, some (.proper (.int 0)), planName⟩ := by
  obtain ⟨due, hdue⟩ :=
    exists_of_isOk (show (Reader.standard.instant (.string "2024-03-04T08:00:00")).isOk by decide +kernel)
  obtain ⟨quantity, hquantity⟩ :=
    exists_of_isOk (show (Reader.standard.amount (.number (.int 5))).isOk by decide +kernel)
  refine ⟨due, quantity, hdue, hquantity, (by decide : Target.of "POST" "/proposals" = _), ?_⟩
  have hobject : Reader.standard.object (Request.forFivePieces product isBuilt planName).body =
      .ok (fivePieces product isBuilt (optionJson .string planName)) := by
    cases planName <;> rfl
  rw [hobject]
  refine ProposalBody.read_eq_ok_iff.mpr ⟨rfl, hdue, hquantity, rfl, rfl, rfl, rfl, ?_⟩
  cases planName <;> rfl

end Web

end SupplyPlan
