import SupplyPlan.Proofs.Planning.Independence
import SupplyPlan.Proofs.Web.Answers
import SupplyPlan.Proofs.Web.Paths
import SupplyPlan.Proofs.Web.Requirements

namespace SupplyPlan

open Planning Web

namespace Web

variable {reader : Reader}

theorem withBody_isQuiet {α : Type} (raw : RawBody) (read : Json → Except BodyFault α) {next : α → Planning Answer}
    (hnext : ∀ a, (next a).IsQuiet) : (withBody reader raw read next).IsQuiet := by
  unfold withBody
  split
  · exact hnext _
  · exact isQuiet_pure _
  · exact isQuiet_pure _

theorem scheduleProduct_isQuiet (product : Text) (b : ScheduleBody) : (scheduleProduct product b).IsQuiet := by
  unfold scheduleProduct
  refine IsQuiet.bind (IsQuiet.tryCatch ?_ fun e => ?_) fun answer => ?_
  · refine (isQuiet_askLogged _).bind fun found => (isQuiet_ask _).bind fun body => ?_
    exact isQuiet_pure (Except.error (Answer.content 200 body))
  · exact (scheduleRefusal_isQuiet e).bind fun answer => isQuiet_pure (Except.ok answer)
  · cases answer <;> exact isQuiet_pure _

theorem showRequirement_isQuiet (id : Text) : (showRequirement reader id).IsQuiet := by
  unfold showRequirement
  refine IsQuiet.bind (((isQuiet_ask _).map _).tryCatch fun e => isQuiet_pure _) fun found => ?_
  split
  · exact (isQuiet_ask _).bind fun body => isQuiet_pure _
  · exact isQuiet_pure _
  · exact isQuiet_throw _

/-- Whatever is no proposal changes nothing. -/
theorem respond_isQuiet {request : Request} (h : ∀ b, ¬ request.Proposes reader b) :
    (respond reader request).IsQuiet := by
  unfold respond
  split
  · next htarget =>
    intro s
    obtain ⟨answer, hanswer, -⟩ := withBody_of_not_read (fun b hread => h b ⟨htarget, hread⟩) (propose reader)
    rw [hanswer]
    rfl
  · exact withBody_isQuiet _ _ fun b => scheduleProduct_isQuiet _ b
  · exact (isQuiet_ask _).bind fun body => isQuiet_pure _
  · exact showRequirement_isQuiet _
  all_goals exact isQuiet_pure _

/-- A request for the requirement of an id. -/
structure Request.AsksForOne (request : Request) (id : Text) : Prop where
  method : request.method = "GET"
  path : request.path = requirementPath id

theorem showRequirement_of_get {s : Session} {id : Text} {record : Requirement}
    (h : s.planner.requirements.get (.text id) = .ok record) :
    ((showRequirement reader id).perform s).1 = Answer.content 200 <$> requirementJson reader record := by
  have hfound : (Except.ok <$> ask fun p => p.requirements.get (.text id) :
      Planning (Except PlanError Requirement)).perform s = (.ok (.ok record), s) := by
    rw [perform_map, perform_ask, h]
    rfl
  unfold showRequirement
  rw [perform_bind, perform_tryCatch_of_ok hfound]
  simp only [perform_bind, perform_ask]
  cases requirementJson reader record <;> rfl

/-- A requirement that is there is shown whenever it can be. -/
theorem Request.AsksForOne.answer_iff {request : Request} {s : Session} {id : Text} {record : Requirement}
    {shown : Json} (hasks : request.AsksForOne id) (hpart : IsPathPart id)
    (hget : s.planner.requirements.get (.text id) = .ok record) :
    ((reader.handle request).perform s).1 = .ok (.content 200 shown) ↔
      requirementJson reader record = .ok shown ∧ shown.isEncodable := by
  have hrespond : respond reader request = showRequirement reader id := by
    rw [respond, hasks.method, hasks.path, target_requirementPath hpart]
  rw [handle_eq_content_iff, hrespond, showRequirement_of_get hget]
  constructor
  · rintro ⟨hshown, htext⟩
    obtain ⟨_, hjson, hcontent⟩ := map_eq_ok_iff.mp hshown
    obtain rfl := (Answer.content.inj hcontent).2
    exact ⟨hjson, htext⟩
  · rintro ⟨hjson, htext⟩
    exact ⟨map_eq_ok_iff.mpr ⟨shown, hjson, rfl⟩, htext⟩

/-- A content shows what a proposal was answered with; the start only if the product is bought. -/
structure ShowsProposal (shown body : Json) : Prop where
  product : shown.Shares "product_id" body "product_id"
  quantity : shown.Shares "quantity" body "quantity"
  requiredBy : shown.Shares "required_by_date" body "required_by_date"
  start : body.field? "is_built" = some (.bool false) →
    shown.Shares "requirement_start_date" body "requirement_start_date"

end Web

section Proposals

variable {reader : Reader} {s : Session} {b : ProposalBody} {o : ProposalOutcome} {body : Json} {id : Text}
  {start : Option Moment}

/-- The start that is recorded for an instant is an instant: the calculated one, unless the product is made. -/
theorem exists_shownStart (hanswered : b.request.IsAnsweredBy s.planner o.order o.calculation)
    (hshows : ShowsOutcome reader body o b.requiredBy) (hstart : s.planner.recordedStart o.order = .ok start) :
    ∃ t, start.mapM (shownMoment reader) = .ok (some t) ∧
      (o.order.isMade = false → shownMoment reader o.calculation.start = .ok t) := by
  cases hmade : o.order.isMade with
  | true =>
    obtain ⟨product, hproduct, -⟩ := hshows.product
    have hdue : o.order.requiredBy = some (.proper b.requiredBy) := hanswered.requiredBy
    rw [Planner.recordedStart, if_pos hmade, hproduct, hdue] at hstart
    obtain ⟨exploded, hexploded, rfl⟩ := map_eq_ok_iff.mp hstart
    obtain ⟨components, -, hwithin⟩ := bind_eq_ok_iff.mp hexploded
    obtain ⟨t, rfl, -⟩ := Planner.exists_instant_of_explodeWithin hwithin
    exact ⟨t, rfl, fun hbought => by cases hbought⟩
  | false =>
    have hnot : ¬ o.order.isMade = true := by simp [hmade]
    rw [Planner.recordedStart, if_neg hnot, hanswered.start] at hstart
    obtain rfl := Except.ok.inj hstart
    obtain ⟨t, ht, -⟩ := hshows.start
    refine ⟨t, ?_, fun _ => ht⟩
    rw [Option.mapM_some, ht]
    rfl

/-- The requirement of a proposal that was answered can be shown if its facility and the name of the plan can be. -/
theorem canBeShown_requirement_iff (hid : id.isEncodable)
    (hanswered : b.request.IsAnsweredBy s.planner o.order o.calculation)
    (hshows : ShowsOutcome reader body o b.requiredBy) (htext : body.isEncodable)
    (hstart : s.planner.recordedStart o.order = .ok start) :
    CanBeShown reader (o.order.requirement id start) ↔
      (∃ facility, (o.order.requirement id start).facility = some facility ∧ facility.isEncodable) ∧
        ∀ name, b.planName = some name → name.isEncodable := by
  obtain ⟨t, hshownStart, -⟩ := exists_shownStart hanswered hshows hstart
  obtain ⟨product, hproduct, hproductField⟩ := hshows.product
  obtain ⟨quantity, hquantity, -⟩ := hshows.quantity
  have hproductText := Json.isEncodable_of_field? htext hproductField
  rw [Json.isEncodable] at hproductText
  have hdue : shownMoment reader (o.order.requiredBy.getD (.other .null)) = .ok b.requiredBy := by
    rw [hanswered.requiredBy]
    rfl
  have hdescription : (o.order.requirement id start).description.isEncodable ↔
      ∀ name, b.planName = some name → name.isEncodable := by
    have hplan : o.order.planName = b.planName := hanswered.planName
    rw [ProposedOrder.requirement, hplan]
    cases b.planName with
    | none => simp [Text.isEncodable_ofString]
    | some name => simp [Text.isEncodable_append, Text.isEncodable_ofString]
  rw [← hdescription]
  exact @exists_requirementJson_iff _ (o.order.requirement id start) _ _ _ _ hdue hshownStart hquantity hproduct
    hproductText hid

theorem showsProposal_of_requirementJson {shown : Json}
    (hanswered : b.request.IsAnsweredBy s.planner o.order o.calculation)
    (hshows : ShowsOutcome reader body o b.requiredBy) (hstart : s.planner.recordedStart o.order = .ok start)
    (hshown : requirementJson reader (o.order.requirement id start) = .ok shown) : ShowsProposal shown body := by
  have hrequirement := showsRequirement_of_requirementJson hshown
  constructor
  · obtain ⟨product, hproduct, hfield⟩ := hrequirement.product
    obtain ⟨product', hproduct', hfield'⟩ := hshows.product
    obtain rfl := Option.some.inj (hproduct.symm.trans hproduct')
    exact ⟨_, hfield, hfield'⟩
  · obtain ⟨x, hx, hfield⟩ := hrequirement.quantity
    obtain ⟨x', hx', hfield'⟩ := hshows.quantity
    obtain rfl := Except.ok.inj (hx.symm.trans hx')
    exact ⟨_, hfield, hfield'⟩
  · obtain ⟨t, ht, hfield⟩ := hrequirement.requiredBy
    have hdue : (o.order.requirement id start).requiredBy = some (.proper b.requiredBy) :=
      hanswered.requiredBy
    rw [hdue] at ht
    obtain rfl := Except.ok.inj ht
    exact ⟨_, hfield, hshows.requiredBy⟩
  · intro hbought
    obtain ⟨t, hshownStart, hcalculated⟩ := exists_shownStart hanswered hshows hstart
    have hmade : o.order.isMade = false := by
      rw [hshows.isMade] at hbought
      exact Json.bool.inj (Option.some.inj hbought)
    obtain ⟨start', hstart', hfield⟩ := hrequirement.start
    obtain rfl := Except.ok.inj (hshownStart.symm.trans hstart')
    obtain ⟨t', ht', hfield'⟩ := hshows.start
    obtain rfl := Except.ok.inj ((hcalculated hmade).symm.trans ht')
    exact ⟨_, hfield, hfield'⟩

end Proposals

/-- The answer to a proposal can be written. -/
def ProposalOutcome.CanBeWritten (o : ProposalOutcome) (reader : Reader) (due : Instant) : Prop :=
  ∃ body, proposalJson reader o due = .ok body ∧ body.isEncodable

namespace Session

variable {reader : Reader} {s : Session} {request : Request} {b : ProposalBody} {id : Text} {record : Requirement}

/-- The session after a request. -/
def afterRequest (reader : Reader) (s : Session) (request : Request) : Session := ((reader.handle request).perform s).2

theorem afterRequest_of_proposes (h : request.Proposes reader b) :
    (s.afterRequest reader request).planner = ((proposeOrder b.request).perform s).2.planner := by
  rw [afterRequest, handle_perform, h.respond_eq]
  exact propose_planner reader b s

theorem afterRequest_of_not_proposes (h : ∀ b, ¬ request.Proposes reader b) :
    (s.afterRequest reader request).planner = s.planner := by
  rw [afterRequest, handle_perform]
  exact respond_isQuiet h s

/-- A request takes no requirement away and puts none in the place of another. -/
theorem get_afterRequest (hget : s.planner.requirements.get (.text id) = .ok record) (request : Request) :
    (s.afterRequest reader request).planner.requirements.get (.text id) = .ok record := by
  by_cases hproposes : ∃ b, request.Proposes reader b
  · obtain ⟨b, hb⟩ := hproposes
    rw [afterRequest_of_proposes hb]
    rcases proposeOrder_cases b.request s with ⟨-, hplanner⟩ | ⟨o, n, start, requirements, -, -, -, hadd, hplanner⟩
    · rwa [hplanner]
    · rw [hplanner]
      exact Store.get_of_add hadd hget
  · rwa [afterRequest_of_not_proposes (not_exists.mp hproposes)]

theorem get_foldl_afterRequest (reader : Reader) (hget : s.planner.requirements.get (.text id) = .ok record)
    (requests : List Request) :
    (requests.foldl (afterRequest reader) s).planner.requirements.get (.text id) = .ok record := by
  induction requests generalizing s with
  | nil => exact hget
  | cons request rest ih => exact ih (get_afterRequest hget request)

/-- A proposal that is answered with content has recorded nothing, or it has added the requirement of its order. That is
there after all further requests, and it is shown like the proposal if and only if its facility and the name of the plan
can be written. -/
theorem proposal_answered (h : request.Proposes reader b) {body : Json}
    (hanswer : ((reader.handle request).perform s).1 = .ok (.content 200 body)) (later : List Request) :
    (body.field? "requirement_id" = some .null ∧ (s.afterRequest reader request).planner = s.planner) ∨
      ∃ o record, ((proposeOrder b.request).perform s).1 = .ok o ∧ o.IsRecordedAs s.planner record ∧
        body.field? "requirement_id" = some (.string record.id) ∧
        s.planner.Gains [record] (s.afterRequest reader request).planner ∧
        ∀ asked, asked.AsksForOne record.id →
          ((∃ shown,
              ((reader.handle asked).perform
                (later.foldl (afterRequest reader) (s.afterRequest reader request))).1 = .ok (.content 200 shown) ∧
              ShowsProposal shown body) ↔
            (∃ facility, record.facility = some facility ∧ facility.isEncodable) ∧
              ∀ name, b.planName = some name → name.isEncodable) := by
  obtain ⟨o, ho, hanswered, hshows, htext⟩ := h.exists_outcome hanswer
  rcases proposeOrder_cases b.request s with
    ⟨hnone, hplanner⟩ | ⟨_, n, start, requirements, ho', hid, hstart, hadd, hplanner⟩
  · refine .inl ⟨?_, (afterRequest_of_proposes h).trans hplanner⟩
    rw [hshows.requirement, hnone o ho]
    rfl
  · obtain rfl := Except.ok.inj (ho.symm.trans ho')
    have hafter := (afterRequest_of_proposes h).trans hplanner
    have hget : (s.afterRequest reader request).planner.requirements.get (.text (s.ids.draw n)) =
        .ok (o.order.requirement (s.ids.draw n) start) := by
      rw [hafter]
      exact Store.get_added hadd
    have hlater := get_foldl_afterRequest reader hget later
    refine .inr ⟨o, o.order.requirement (s.ids.draw n) start, ho,
      ProposalOutcome.isRecordedAs_requirement hid hanswered.start hstart, ?_, ?_, fun asked hasks => ?_⟩
    · rw [hshows.requirement, hid]
      rfl
    · rw [hafter]
      exact (Planner.Gains.refl s.planner).add hadd
    · rw [← canBeShown_requirement_iff (s.ids.isEncodable n) hanswered hshows htext hstart]
      constructor
      · rintro ⟨shown, hshown, -⟩
        exact ⟨shown, (hasks.answer_iff (isPathPart_draw s.ids n) hlater).mp hshown⟩
      · rintro ⟨shown, hshown, hshownText⟩
        exact ⟨shown, (hasks.answer_iff (isPathPart_draw s.ids n) hlater).mpr ⟨hshown, hshownText⟩,
          showsProposal_of_requirementJson hanswered hshows hstart hshown⟩

/-- Any other proposal records nothing, or its order was made and recorded and only the answer cannot be written. -/
theorem proposal_refused (h : request.Proposes reader b)
    (hanswer : ∀ body, ((reader.handle request).perform s).1 ≠ .ok (.content 200 body)) :
    (s.afterRequest reader request).planner = s.planner ∨
      ∃ o record, ((proposeOrder b.request).perform s).1 = .ok o ∧ ¬ o.CanBeWritten reader b.requiredBy ∧
        o.IsRecordedAs s.planner record ∧ s.planner.Gains [record] (s.afterRequest reader request).planner := by
  rcases proposeOrder_cases b.request s with
    ⟨-, hplanner⟩ | ⟨o, n, start, requirements, ho, hid, hstart, hadd, hplanner⟩
  · exact .inl ((afterRequest_of_proposes h).trans hplanner)
  · have hproposed := proposeOrder_proposed b.request s
    rw [ho] at hproposed
    cases hproposed with
    | made horder _ =>
      have hanswered := b.request.isAnsweredBy_of_order horder
      refine .inr ⟨o, o.order.requirement (s.ids.draw n) start, ho, ?_,
        ProposalOutcome.isRecordedAs_requirement hid hanswered.start hstart, ?_⟩
      · rintro ⟨body, hjson, htext⟩
        exact hanswer body (h.answer_iff.mpr ⟨o, ho, hjson, htext⟩)
      · rw [afterRequest_of_proposes h, hplanner]
        exact (Planner.Gains.refl s.planner).add hadd

/-- Requests only ever add requirements. Every requirement that is there before stays what it is, and only proposals
change anything: a proposal that is answered records what its answer says, for all time, and one that is not answered
records nothing unless only its answer cannot be written. -/
theorem requests_addRequirements (reader : Reader) (s : Session) (earlier later : List Request) (request : Request) :
    ∃ t u v, t = earlier.foldl (afterRequest reader) s ∧ u = t.afterRequest reader request ∧
      v = later.foldl (afterRequest reader) u ∧
      (∀ id record, t.planner.requirements.get (.text id) = .ok record →
        v.planner.requirements.get (.text id) = .ok record) ∧
      ((∀ b, ¬ request.Proposes reader b) → u.planner = t.planner) ∧
      ∀ b, request.Proposes reader b →
        ((∀ body, ((reader.handle request).perform t).1 ≠ .ok (.content 200 body)) →
          u.planner = t.planner ∨
            ∃ o record, ((proposeOrder b.request).perform t).1 = .ok o ∧ ¬ o.CanBeWritten reader b.requiredBy ∧
              o.IsRecordedAs t.planner record ∧ t.planner.Gains [record] u.planner) ∧
        ∀ body, ((reader.handle request).perform t).1 = .ok (.content 200 body) →
          (body.field? "requirement_id" = some .null ∧ u.planner = t.planner) ∨
            ∃ o record, ((proposeOrder b.request).perform t).1 = .ok o ∧ o.IsRecordedAs t.planner record ∧
              body.field? "requirement_id" = some (.string record.id) ∧ t.planner.Gains [record] u.planner ∧
              ∀ asked, asked.AsksForOne record.id →
                ((∃ shown, ((reader.handle asked).perform v).1 = .ok (.content 200 shown) ∧ ShowsProposal shown body) ↔
                  (∃ facility, record.facility = some facility ∧ facility.isEncodable) ∧
                    ∀ name, b.planName = some name → name.isEncodable) := by
  refine ⟨_, _, _, rfl, rfl, rfl, fun id record hget => ?_, afterRequest_of_not_proposes,
    fun b hb => ⟨proposal_refused hb, fun body hanswer => proposal_answered hb hanswer later⟩⟩
  exact get_foldl_afterRequest reader (get_afterRequest hget request) later

/-- A session on tables in which nuts are known. -/
def nuts : Session := (fresh .numbered (.onTables .standard)).after (.register "NUT" .rawMaterial)

/-- A nut that is bought is shown as it was proposed, also after it has been needed again. -/
theorem requests_addRequirements_nuts :
    ∃ s body id shown, s = nuts ∧
      ((Reader.standard.handle (.forFivePieces "NUT" false none)).perform s).1 = .ok (.content 200 body) ∧
      body.field? "requirement_id" = some (.string id) ∧
      ((Reader.standard.handle ⟨"GET", requirementPath id, none, .absent⟩).perform
        ((s.afterRequest .standard (.forFivePieces "NUT" false none)).afterRequest .standard
          (.forFivePieces "NUT" false none))).1 = .ok (.content 200 shown) ∧
      ShowsProposal shown body := by
  obtain ⟨s, hs⟩ : ∃ s, s = nuts := exists_eq
  have hcontent : (content? ((Reader.standard.handle (.forFivePieces "NUT" false none)).perform s).1).any
      (fun body => (body.field? "requirement_id").any (Json.same (.string "id-1"))) = true := by
    rw [hs]
    decide +kernel
  have hfacilities : (s.afterRequest .standard (.forFivePieces "NUT" false none)).planner.requirements.entries.map
      (·.2.facility) = [some standardFacility] := by
    rw [hs]
    decide +kernel
  obtain ⟨body, hanswer, hcheck⟩ := exists_content hcontent
  obtain ⟨due, quantity, -, -, hproposes⟩ := exists_proposes_fivePieces "NUT" false none
  obtain ⟨t, u, v, rfl, rfl, rfl, -, -, hproposals⟩ :=
    requests_addRequirements .standard s [] [.forFivePieces "NUT" false none] (.forFivePieces "NUT" false none)
  rcases (hproposals _ hproposes).2 body hanswer with ⟨hnone, -⟩ | ⟨o, record, -, -, hid, hgains, hshown⟩
  · rw [hnone] at hcheck
    cases hcheck
  · have hmem := hgains.entries.mem_iff.mpr (List.mem_cons_self ..)
    have hfacility : record.facility = some standardFacility := by
      have hmem := List.mem_map_of_mem (f := fun e => e.2.facility) hmem
      rw [hfacilities] at hmem
      exact List.mem_singleton.mp hmem
    obtain ⟨shown, hanswered, hshows⟩ := (hshown ⟨"GET", requirementPath record.id, none, .absent⟩ ⟨rfl, rfl⟩).mpr
      ⟨⟨_, hfacility, Text.isEncodable_ofString _⟩, fun name hname => by cases hname⟩
    exact ⟨_, body, record.id, shown, hs, hanswer, hid, hanswered, hshows⟩

end Session

def Quantity.isFinite : Quantity → Bool
  | .int _ => true
  | .float x => x.isFinite

/-- The first half of a surrogate pair, which no text has for itself. -/
def Text.halfPair : Text := ⟨[.half 0x3d]⟩

/-- For a plan whose name cannot be written the proposal is answered, but its requirement is not shown. -/
theorem Session.not_requests_addRequirements :
    ¬ ∀ (s : Session) (request : Request) (b : ProposalBody) (body : Json) (id : Text), request.Proposes .standard b →
        b.quantity.isFinite →
        (∀ e ∈ s.planner.facilities.entries, ∀ reorder, e.2.reorderQuantity = some reorder →
          ∃ q : Quantity, reorder = .proper q ∧ q.isFinite) →
        ((Reader.standard.handle request).perform s).1 = .ok (.content 200 body) →
        body.field? "requirement_id" = some (.string id) →
        ∀ (later : List Request) (asked : Request), asked.AsksForOne id →
          ∃ shown,
            ((Reader.standard.handle asked).perform
              (later.foldl (afterRequest .standard) (s.afterRequest .standard request))).1 = .ok (.content 200 shown) ∧
            ShowsProposal shown body := by
  intro h
  obtain ⟨s, hs⟩ : ∃ s, s = nuts := exists_eq
  obtain ⟨request, hrequest⟩ : ∃ request, request = Request.forFivePieces "NUT" false (some .halfPair) := exists_eq
  have hcontent : (content? ((Reader.standard.handle request).perform s).1).any
      (fun body => (body.field? "requirement_id").any (Json.same (.string "id-1"))) = true := by
    rw [hs, hrequest]
    decide +kernel
  have hnot : content? ((Reader.standard.handle ⟨"GET", requirementPath "id-1", none, .absent⟩).perform
      (s.afterRequest .standard request)).1 = none := by
    rw [hs, hrequest]
    decide +kernel
  have hentries : s.planner.facilities.entries = [] := by
    rw [hs]
    rfl
  obtain ⟨body, hanswer, hcheck⟩ := exists_content hcontent
  obtain ⟨v, hid, hsame⟩ := (Option.any_eq_true _ _).mp hcheck
  obtain ⟨due, quantity, -, hquantity, hproposes⟩ := exists_proposes_fivePieces "NUT" false (some .halfPair)
  have hfinite : quantity.isFinite = true := by
    have hread : (Reader.standard.amount (.number (.int 5))).toOption.all Quantity.isFinite = true := by decide +kernel
    rwa [hquantity] at hread
  have hreorder : ∀ e ∈ s.planner.facilities.entries, ∀ reorder, e.2.reorderQuantity = some reorder →
      ∃ q : Quantity, reorder = .proper q ∧ q.isFinite := by
    rw [hentries]
    exact fun e he => by cases he
  rw [← hrequest] at hproposes
  cases v with
  | string id =>
    obtain rfl : "id-1" = id := of_decide_eq_true hsame
    obtain ⟨shown, hshown, -⟩ := h s request _ body _ hproposes hfinite hreorder hanswer hid []
      ⟨"GET", requirementPath "id-1", none, .absent⟩ ⟨rfl, rfl⟩
    rw [List.foldl_nil] at hshown
    rw [hshown] at hnot
    cases hnot
  | _ => cases hsame

end SupplyPlan
