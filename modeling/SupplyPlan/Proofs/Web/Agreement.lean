import SupplyPlan.Proofs.Web.Answers
import SupplyPlan.Proofs.Web.Paths

namespace SupplyPlan

open Planning Web

section Calculation

variable {p : Planner} {order : ProposedOrder} {id : Text} {c : ScheduleBody} {calculation : StartDateCalculation}

/-- A calculation is the schedule of a product, or it reports why there is none. -/
inductive StartDateCalculation.Reports (calculation : StartDateCalculation) :
    Except PlanError (Routing × Schedule) → Prop where
  | scheduled {routing : Routing} {s : Schedule} (hfailure : calculation.failure = none)
      (hrouting : calculation.routing = some routing.id) (hstart : calculation.start = .proper s.start)
      (hstarts : calculation.taskStarts = s.starts) (hfallbacks : calculation.fallbacks = s.fallbacks) :
      Reports calculation (.ok (routing, s))
  | failed {subject : Option Text} {fault : LookupFault} (hfailure : calculation.failure = some (subject, fault)) :
      Reports calculation (.error (.lookupFailed subject fault))

theorem Planner.builtStart_reports {routing : Routing} {due : Moment} {offset : Duration}
    (h : (p.builtStart order due offset routing).result = .ok calculation) :
    calculation.Reports
      ((fun s => (routing, s)) <$> (p.scheduleRouting routing due order.quantity (.proper offset)).result) := by
  unfold builtStart at h
  simp only [Logged.result_bind, Logged.result_tryCatch] at h
  cases hschedule : (p.scheduleRouting routing due order.quantity (.proper offset)).result with
  | ok s =>
    rw [hschedule] at h
    obtain rfl := Except.ok.inj h
    exact .scheduled rfl rfl rfl rfl rfl
  | error e =>
    rw [hschedule] at h
    cases e with
    | lookupFailed subject fault =>
      obtain rfl := Except.ok.inj h
      exact .failed rfl
    | _ => cases h

/-- The start of an order that is made is calculated from the schedule of its product. -/
theorem productSchedule_of_calculateStartDate (hproduct : p.products.get (.text id) = .ok order.product)
    (hmade : order.isMade = true) (hdue : order.requiredBy = some (.proper c.completion))
    (hquantity : order.quantity = .proper c.quantity)
    (h : (p.calculateStartDate order c.daysToShip none).result = .ok calculation) :
    calculation.Reports (productSchedule p id c).result := by
  unfold Planner.calculateStartDate at h
  rw [hdue] at h
  simp only [Logged.result_bind, Logged.result_lift] at h
  obtain ⟨offset, hoffset, h⟩ := bind_eq_ok_iff.mp h
  rw [hmade] at h
  simp only [Bool.not_true, Bool.false_eq_true, if_false, Logged.result_bind, Logged.result_tryCatch,
    Logged.result_map] at h
  have hresult : (productSchedule p id c).result =
      (p.resolveRouting order.product (some (.proper c.completion))).result >>= fun routing =>
        (fun s => (routing, s)) <$>
          (p.scheduleRouting routing (.proper c.completion) (.proper c.quantity) (.proper offset)).result := by
    unfold productSchedule
    simp only [Logged.result_bind, Logged.result_lift, hproduct, hoffset]
    rfl
  rw [hresult]
  cases hresolve : (p.resolveRouting order.product (some (.proper c.completion))).result with
  | ok routing =>
    rw [hresolve] at h
    rw [← hquantity]
    exact Planner.builtStart_reports h
  | error e =>
    rw [hresolve] at h
    cases e with
    | lookupFailed subject fault =>
      obtain rfl := Except.ok.inj h
      exact .failed rfl
    | _ => cases h

end Calculation

section Schedules

variable {reader : Reader} {s : Session} {product : Text} {c : ScheduleBody} {request : Request}

theorem Web.ScheduleBody.read_eq_ok_iff {body : Json} : ScheduleBody.read reader body = .ok c ↔
    Read.required reader.instant "completion_instant" body = .ok c.completion ∧
      Read.required reader.amount "quantity" body = .ok c.quantity ∧
      Read.withDefault reader.days "days_to_ship" (.proper (.int 0)) body = .ok c.daysToShip := by
  constructor
  · intro h
    unfold ScheduleBody.read at h
    dsimp only at h
    split at h
    · obtain rfl := Except.ok.inj h
      exact ⟨‹_›, ‹_›, ‹_›⟩
    · cases h
  · rintro ⟨hcompletion, hquantity, hdays⟩
    rw [ScheduleBody.read, hcompletion, hquantity, hdays]

/-- A request for the schedule of a product with this body. -/
structure Web.Request.Schedules (request : Request) (reader : Reader) (product : Text) (c : ScheduleBody) : Prop where
  method : request.method = "POST"
  path : request.path = schedulePath product
  body : (reader.object request.body).bind (ScheduleBody.read reader) = .ok c

theorem Web.Request.Schedules.respond_eq (h : request.Schedules reader product c) (hpart : IsPathPart product) :
    respond reader request = scheduleProduct product c := by
  rw [respond, h.method, h.path, target_schedulePath hpart]
  exact withBody_of_read h.body _

/-- Other products are not found, whatever is known of them. -/
theorem Web.Request.Schedules.answer_of_not (h : request.Schedules reader product c) (hpart : ¬ IsPathPart product) :
    ((reader.handle request).perform s).1 = .ok (detail 404 "Not Found") := by
  have hrespond : respond reader request = pure (detail 404 "Not Found") := by
    rw [respond, h.method, h.path, target_schedulePath_of_not hpart]
  rw [handle_perform, hrespond]
  rfl

theorem scheduleProduct_of_ok {found : Routing × Schedule} {body : Json}
    (hfound : (productSchedule s.planner product c).result = .ok found)
    (hbody : scheduleJson found.1.id found.2 = .ok body) :
    ((scheduleProduct product c).perform s).1 = .ok (.content 200 body) := by
  unfold scheduleProduct
  simp only [perform_bind, perform_tryCatch, perform_askLogged, perform_ask, hfound, hbody]
  rfl

theorem scheduleProduct_of_lookupFailed {subject : Option Text} {fault : LookupFault}
    (hfailed : (productSchedule s.planner product c).result = .error (.lookupFailed subject fault)) :
    ((scheduleProduct product c).perform s).1 = .ok (detail 404 (fault.text subject)) := by
  unfold scheduleProduct
  simp only [perform_bind, perform_tryCatch, perform_askLogged, hfailed]
  rfl

end Schedules

/-- The quantity of a request is not below the reorder quantity of its product at its facility. -/
def ProposalRequest.IsEnough (r : ProposalRequest) (p : Planner) : Prop :=
  ∀ product settings reorder, p.products.get (.named r.product) = .ok product →
    p.facility? product.id (r.facilityIn p) = .ok (some settings) → settings.reorderQuantity = some reorder →
    r.quantity.lt reorder ≠ .ok true

/-- Such a quantity is not raised. -/
theorem ProposalRequest.IsAnsweredBy.quantity_eq {r : ProposalRequest} {p : Planner} {order : ProposedOrder}
    {calculation : StartDateCalculation} (h : r.IsAnsweredBy p order calculation) (henough : r.IsEnough p) :
    order.quantity = r.quantity := by
  obtain ⟨reorder, hreorder, hraised⟩ := h.quantity
  cases reorder with
  | none => exact (Except.ok.inj hraised).symm
  | some reorder =>
    obtain ⟨found, hfound, hsetting⟩ := bind_eq_ok_iff.mp hreorder
    cases found with
    | none => cases hsetting
    | some settings =>
      have hnot := henough order.product settings reorder h.product (h.facility ▸ hfound) (Except.ok.inj hsetting)
      obtain ⟨raised, hcompared, hraised⟩ := bind_eq_ok_iff.mp hraised
      obtain ⟨less, hless, hcompared⟩ := bind_eq_ok_iff.mp hcompared
      cases less with
      | true => exact absurd hless hnot
      | false =>
        obtain rfl := Except.ok.inj hcompared
        exact (Except.ok.inj hraised).symm

/-- Bodies that ask for the same work: to make a quantity by an instant, with so many days to ship. -/
structure Web.AsksAlike (b : ProposalBody) (c : ScheduleBody) : Prop where
  isBuilt : b.isBuilt = some true
  requiredBy : b.requiredBy = c.completion
  quantity : b.quantity = c.quantity
  daysToShip : b.daysToShip = some c.daysToShip

theorem Web.scheduleJson_shows {reader : Reader} {o : ProposalOutcome} {due : Instant} {body : Json} {routing : Text}
    {sched : Schedule} (hshows : ShowsOutcome reader body o due) (hencodable : body.isEncodable)
    (hrouting : o.calculation.routing = some routing) (hstart : o.calculation.start = .proper sched.start)
    (hstarts : o.calculation.taskStarts = sched.starts)
    (hfallbacks : o.calculation.fallbacks = sched.fallbacks) :
    ∃ shown, scheduleJson routing sched = .ok shown ∧ shown.isEncodable ∧
      shown.Shares "routing_id" body "routing_id" ∧ shown.Shares "start_instant" body "requirement_start_date" ∧
      shown.Shares "start_dates" body "task_start_dates" ∧
      shown.Shares "calendar_fallbacks" body "calendar_fallbacks" := by
  obtain ⟨start, hshown, hstartField⟩ := hshows.start
  obtain ⟨taskStarts, htaskStarts, htaskStartsField⟩ := hshows.taskStarts
  obtain ⟨fallbacks, hids, hfallbacksField⟩ := hshows.fallbacks
  have hroutingField := hshows.routing
  rw [hrouting] at hroutingField
  rw [hstart] at hshown
  obtain rfl : sched.start = start := Except.ok.inj hshown
  rw [hstarts] at htaskStarts
  rw [hfallbacks] at hids
  have hroutingText := Json.isEncodable_of_field? hencodable hroutingField
  have htaskStartsText := Json.isEncodable_of_field? hencodable htaskStartsField
  have hfallbacksText := Json.isEncodable_of_field? hencodable hfallbacksField
  refine ⟨.object [("routing_id", .string routing), ("completion_instant", instantJson sched.completion),
    ("start_instant", instantJson sched.start), ("start_dates", taskStarts), ("calendar_fallbacks", fallbacks)],
    ?_, ?_, ⟨_, rfl, hroutingField⟩, ⟨_, rfl, hstartField⟩, ⟨_, rfl, htaskStartsField⟩, ⟨_, rfl, hfallbacksField⟩⟩
  · rw [scheduleJson, htaskStarts, hids]
    rfl
  · rw [Json.isEncodable, Json.areEncodableMembers_iff]
    simp only [List.forall_mem_cons, List.not_mem_nil, false_imp_iff, implies_true, and_true, Text.isEncodable_ofString,
      isEncodable_instantJson, true_and]
    exact ⟨hroutingText, htaskStartsText, hfallbacksText⟩

/-- The two routes agree on a product that is made and whose id can stand in a path. Where the proposal is answered with
content, either it reports no failure and the schedule is answered with the same routing, starts and fallbacks, or the
schedule is not found, for the reason that the proposal reports. The schedule of a product with any other id is not
found at all. -/
theorem Session.routes_agree {reader : Reader} {s : Session} {b : ProposalBody} {c : ScheduleBody}
    {proposal schedule : Request} (hproposal : proposal.Proposes reader b)
    (hschedule : schedule.Schedules reader b.product c) (halike : AsksAlike b c)
    (henough : b.request.IsEnough s.planner) {body : Json}
    (hanswer : ((reader.handle proposal).perform s).1 = .ok (.content 200 body)) :
    (¬ IsPathPart b.product → ((reader.handle schedule).perform s).1 = .ok (detail 404 "Not Found")) ∧
      (IsPathPart b.product →
        (body.field? "failure" = some .null ∧
          ∃ shown, ((reader.handle schedule).perform s).1 = .ok (.content 200 shown) ∧
            shown.Shares "routing_id" body "routing_id" ∧
            shown.Shares "start_instant" body "requirement_start_date" ∧
            shown.Shares "start_dates" body "task_start_dates" ∧
            shown.Shares "calendar_fallbacks" body "calendar_fallbacks") ∨
        ∃ text, body.field? "failure" = some (.string text) ∧
          ((reader.handle schedule).perform s).1 = .ok (detail 404 text)) := by
  refine ⟨hschedule.answer_of_not, fun hpart => ?_⟩
  obtain ⟨o, -, hanswered, hshows, hencodable⟩ := hproposal.exists_outcome hanswer
  have hmade : o.order.isMade = true := by
    have hbuilt := hanswered.isBuilt
    have hgiven : b.request.isBuilt = some true := halike.isBuilt
    rw [ProposalRequest.isBuiltIn, hgiven] at hbuilt
    exact (Except.ok.inj hbuilt).symm
  obtain ⟨days, hdays, hcalculation⟩ := hanswered.calculation
  have hgiven : b.request.daysToShip = some c.daysToShip := halike.daysToShip
  rw [ProposalRequest.daysToShipIn, hgiven] at hdays
  obtain rfl := Except.ok.inj hdays
  have hdue : o.order.requiredBy = some (.proper c.completion) := by
    rw [hanswered.requiredBy, ← halike.requiredBy]
    rfl
  have hquantity : o.order.quantity = .proper c.quantity :=
    (hanswered.quantity_eq henough).trans (congrArg Given.proper halike.quantity)
  have hreports : o.calculation.Reports (productSchedule s.planner b.product c).result :=
    @productSchedule_of_calculateStartDate _ { o.order with start := none } b.product c _ hanswered.product hmade hdue
      hquantity hcalculation
  have hfailureField := hshows.failure
  rw [handle_perform, hschedule.respond_eq hpart]
  generalize hresult : (productSchedule s.planner b.product c).result = result at hreports
  cases hreports with
  | scheduled hfailure hrouting hstart hstarts hfallbacks =>
    rw [hfailure] at hfailureField
    obtain ⟨shown, hjson, hshownText, hshares⟩ :=
      scheduleJson_shows hshows hencodable hrouting hstart hstarts hfallbacks
    rw [scheduleProduct_of_ok hresult hjson]
    exact .inl ⟨hfailureField, shown, checked_eq_content_iff.mpr ⟨rfl, hshownText⟩, hshares⟩
  | @failed subject fault hfailure =>
    rw [hfailure] at hfailureField
    have htext := Json.isEncodable_of_field? hencodable hfailureField
    rw [scheduleProduct_of_lookupFailed hresult]
    exact .inr ⟨fault.text subject, hfailureField, checked_detail htext⟩

/-- A routing of one task, less than an hour of cutting around the clock. -/
def Operation.cut (product : Text) : Operation :=
  createRouting (some product) none
    [{ id := some "CUT"
       name := none
       setupTime := .proper (.minutes 55 (by decide))
       runTimePerUnit := .proper (.minutes 0 (by decide))
       calendar := some continuousId
       validity := ⟨none, none⟩
       estimateMethod := none
       description := none }]
    ⟨none, none⟩

/-- A session in which a product is cut. -/
def Session.gears (product : Text) : Session :=
  [Operation.register product .finishedGood, .cut product].foldl after (fresh .numbered (.inMemory .standard))

namespace Web

/-- The body of a request for the schedule of five pieces. -/
def fivePiecesScheduled : Json :=
  .object
    [("completion_instant", .string "2024-03-04T08:00:00"), ("quantity", .number (.int 5)),
      ("days_to_ship", .number (.int 0))]

def Request.forFivePiecesScheduled (product : Text) : Request where
  method := "POST"
  path := schedulePath product
  productFilter := none
  body := .json fivePiecesScheduled

theorem exists_schedules_fivePieces (product : Text) :
    ∃ b c, b.product = product ∧ (Request.forFivePieces product true none).Proposes .standard b ∧
      (Request.forFivePiecesScheduled product).Schedules .standard b.product c ∧ AsksAlike b c := by
  obtain ⟨due, quantity, hdue, hquantity, hproposes⟩ := exists_proposes_fivePieces product true none
  have hread : ScheduleBody.read .standard fivePiecesScheduled = .ok ⟨due, quantity, .proper (.int 0)⟩ :=
    ScheduleBody.read_eq_ok_iff.mpr ⟨hdue, hquantity, rfl⟩
  exact ⟨_, _, rfl, hproposes, ⟨rfl, rfl, hread⟩, ⟨rfl, rfl, rfl, rfl⟩⟩

end Web

/-- Where no settings are stored, every quantity is enough. -/
theorem ProposalRequest.isEnough_of_entries_eq_nil {p : Planner} (h : p.facilities.entries = []) (r : ProposalRequest) :
    r.IsEnough p := by
  intro found settings reorder _ hfound
  obtain ⟨key, hkey⟩ := Planner.facility?_eq_some hfound
  rw [h] at hkey
  cases hkey

namespace Session

/-- For a gear whose id has a slash the proposal is answered with a start, but the schedule is not found. -/
theorem not_routes_agree :
    ¬ ∀ (s : Session) (b : ProposalBody) (c : ScheduleBody) (proposal schedule : Request),
        proposal.Proposes .standard b →
        schedule.Schedules .standard b.product c → AsksAlike b c → b.request.IsEnough s.planner →
        ∀ body, ((Reader.standard.handle proposal).perform s).1 = .ok (.content 200 body) →
          (body.field? "failure" = some .null →
            ∃ shown, ((Reader.standard.handle schedule).perform s).1 = .ok (.content 200 shown) ∧
              shown.Shares "routing_id" body "routing_id" ∧
              shown.Shares "start_instant" body "requirement_start_date" ∧
              shown.Shares "start_dates" body "task_start_dates" ∧
              shown.Shares "calendar_fallbacks" body "calendar_fallbacks") ∧
          ∀ text, body.field? "failure" = some (.string text) →
            ((Reader.standard.handle schedule).perform s).1 = .ok (detail 404 text) := by
  intro h
  obtain ⟨s, hs⟩ : ∃ s, s = gears "GEAR/2" := exists_eq
  have hcontent : (content? ((Reader.standard.handle (.forFivePieces "GEAR/2" true none)).perform s).1).any
      (fun body => (body.field? "failure").any (Json.same .null)) = true := by
    rw [hs]
    decide +kernel
  have hentries : s.planner.facilities.entries = [] := by
    rw [hs]
    rfl
  obtain ⟨body, hanswer, hcheck⟩ := exists_content hcontent
  obtain ⟨v, hfailure, hnull⟩ := (Option.any_eq_true _ _).mp hcheck
  obtain ⟨b, c, hproduct, hproposes, hschedules, halike⟩ := exists_schedules_fivePieces "GEAR/2"
  have hslash : ¬ IsPathPart b.product := by
    rw [hproduct]
    decide
  obtain ⟨hmade, -⟩ := h s b c _ _ hproposes hschedules halike
    (ProposalRequest.isEnough_of_entries_eq_nil hentries _) body hanswer
  cases v with
  | null =>
    obtain ⟨shown, hshown, -⟩ := hmade hfailure
    rw [hschedules.answer_of_not hslash] at hshown
    cases hshown
  | _ => cases hnull

/-- An ordinary gear is started at the same time on both routes. -/
theorem routes_agree_gears :
    ∃ s b c body shown, s = gears "GEAR-2" ∧ (Request.forFivePieces "GEAR-2" true none).Proposes .standard b ∧
      (Request.forFivePiecesScheduled "GEAR-2").Schedules .standard b.product c ∧ AsksAlike b c ∧
      b.request.IsEnough s.planner ∧
      ((Reader.standard.handle (.forFivePieces "GEAR-2" true none)).perform s).1 = .ok (.content 200 body) ∧
      ((Reader.standard.handle (.forFivePiecesScheduled "GEAR-2")).perform s).1 = .ok (.content 200 shown) ∧
      shown.Shares "start_instant" body "requirement_start_date" := by
  obtain ⟨s, hs⟩ : ∃ s, s = gears "GEAR-2" := exists_eq
  have hcontent : (content? ((Reader.standard.handle (.forFivePieces "GEAR-2" true none)).perform s).1).any
      (fun body => (body.field? "failure").any (Json.same .null)) = true := by
    rw [hs]
    decide +kernel
  have hentries : s.planner.facilities.entries = [] := by
    rw [hs]
    rfl
  have henough := ProposalRequest.isEnough_of_entries_eq_nil hentries
  obtain ⟨body, hanswer, hcheck⟩ := exists_content hcontent
  obtain ⟨b, c, hproduct, hproposes, hschedules, halike⟩ := exists_schedules_fivePieces "GEAR-2"
  obtain ⟨-, hagree⟩ := routes_agree hproposes hschedules halike (henough _) hanswer
  have hpart : IsPathPart b.product := by
    rw [hproduct]
    decide
  rcases hagree hpart with ⟨-, shown, hshown, -, hstart, -⟩ | ⟨text, hfailure, -⟩
  · exact ⟨s, b, c, body, shown, hs, hproposes, hschedules, halike, henough _, hanswer, hshown, hstart⟩
  · rw [hfailure] at hcheck
    cases hcheck

end Session

end SupplyPlan
