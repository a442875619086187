import SupplyPlan.Proofs.Calendar.ExactTime
import SupplyPlan.Proofs.Explosion.Shipping
import SupplyPlan.Proofs.Planning.Frame
import SupplyPlan.Proofs.Planning.Loading
import SupplyPlan.Proofs.Planning.Scheduling
import SupplyPlan.Proofs.Planning.Selection

namespace SupplyPlan

open Planning

namespace Planner

variable {p : Planner} {order : ProposedOrder} {due : Moment} {days : Amount} {given : Option Routing} {r : Routing}
  {quantity : Amount} {offset : Duration} {subject : Option Text} {fault : LookupFault} {c : StartDateCalculation}

theorem result_boughtStart (p : Planner) (order : ProposedOrder) (due : Moment) (offset : Duration) :
    (p.boughtStart order due offset).result =
      (fun s : Schedule => { start := .proper s.start, taskStarts := [], routing := none, fallbacks := s.fallbacks,
                             failure := none }) <$> (p.schedule (p.supplyRequest order due offset)).result := by
  unfold boughtStart schedule supplyRequest
  simp only [Logged.result_bind, Logged.result_pure]
  cases p.scheduler.result with
  | error e => rfl
  | ok s => exact bind_pure_comp (m := Except PlanError) _ _

/-- Missing planning data is all that the calculation for a routing reports; it fails of everything else. -/
theorem result_builtStart (p : Planner) (order : ProposedOrder) (due : Moment) (offset : Duration) (r : Routing) :
    (p.builtStart order due offset r).result =
      match (p.scheduleRouting r due order.quantity (.proper offset)).result with
      | .ok s => .ok { start := .proper s.start, taskStarts := s.starts, routing := some r.id, fallbacks := s.fallbacks,
                       failure := none }
      | .error (.lookupFailed subject fault) => .ok (.failed due (some r.id) subject fault)
      | .error e => .error e := by
  unfold builtStart
  simp only [Logged.result_tryCatch, Logged.result_bind]
  cases (p.scheduleRouting r due order.quantity (.proper offset)).result with
  | ok s => rfl
  | error e => cases e <;> rfl

theorem result_calculateStartDate (hdue : order.requiredBy = some due) :
    (p.calculateStartDate order days given).result = p.leadTimeOffset days >>= fun offset =>
      if order.isMade then
        match given with
        | some r => (p.builtStart order due offset r).result
        | none =>
          match (p.resolveRouting order.product (some due)).result with
          | .ok r => (p.builtStart order due offset r).result
          | .error (.lookupFailed subject fault) => .ok (.failed due none subject fault)
          | .error e => .error e
      else (p.boughtStart order due offset).result := by
  unfold calculateStartDate
  rw [hdue]
  simp only [Logged.result_bind, Logged.result_lift]
  refine bind_congr fun offset => ?_
  cases order.isMade with
  | false => rfl
  | true =>
    cases given with
    | some r => rfl
    | none =>
      simp only [Bool.not_true, Bool.false_eq_true, if_false, if_true, Logged.result_bind, Logged.result_tryCatch,
        Logged.result_map]
      cases (p.resolveRouting order.product (some due)).result with
      | ok r => rfl
      | error e => cases e <;> rfl

/-- Where there is no routing, nothing else is looked at. -/
theorem result_calculateStartDate_of_lacksAllRoutings (hdue : order.requiredBy = some due)
    (hoffset : p.leadTimeOffset days = .ok offset) (hmade : order.isMade = true)
    (hlacks : p.LacksAllRoutings order.product due) :
    (p.calculateStartDate order days none).result = .ok (.failed due none order.product.id .noRouting) := by
  rw [result_calculateStartDate hdue, hoffset, hmade,
    result_resolveRouting_eq_lookup_iff.mpr ⟨hlacks, rfl, rfl⟩]
  rfl

/-- What a calculation can come to: the place of what is bought, the schedule of the selected routing, that there is no
routing, or that the walk over the selected one reaches a task whose time is not known. -/
inductive Calculates (p : Planner) (order : ProposedOrder) (due : Moment) (offset : Duration) (given : Option Routing) :
    StartDateCalculation → Prop where
  | bought {chain : Chain} {fallback : WorkingCalendar} {placement : Placement} (hmade : order.isMade = false)
      (hcheck : (p.supplyRequest order due offset).check = .ok chain)
      (hfallback : p.fallbackCalendar.result = .ok fallback)
      (h : (p.schedulerOn fallback).Places (p.supplierStep order.product.id) chain.completion offset placement) :
      Calculates p order due offset given
        { start := .proper placement.start, taskStarts := [], routing := none,
          fallbacks := if placement.onFallback then [placement.step] else [], failure := none }
  | built {r : Routing} {s : Schedule} (hmade : order.isMade = true) (hr : p.Selects order.product due given r)
      (h : (p.scheduleRouting r due order.quantity (.proper offset)).result = .ok s) :
      Calculates p order due offset given
        { start := .proper s.start, taskStarts := s.starts, routing := some r.id, fallbacks := s.fallbacks,
          failure := none }
  | noRouting (hmade : order.isMade = true) (hgiven : given = none) (h : p.LacksAllRoutings order.product due) :
      Calculates p order due offset given (.failed due none order.product.id .noRouting)
  | noTime {r : Routing} {chain : Chain} {subject : Option Text} {fault : LookupFault} (hmade : order.isMade = true)
      (hr : p.Selects order.product due given r)
      (hcheck : (p.routingRequest r due order.quantity (.proper offset)).check = .ok chain)
      (h : p.MissesTime r chain.completion order.quantity offset subject fault) :
      Calculates p order due offset given (.failed due (some r.id) subject fault)

theorem eq_of_check_supplyRequest {chain : Chain} (h : (p.supplyRequest order due offset).check = .ok chain) :
    due = .proper chain.completion ∧ offset = chain.trailingOffset ∧
      chain.steps = [p.supplierStep order.product.id] := by
  have hsteps : (p.supplyRequest order due offset).steps = [p.supplierStep order.product.id].map .proper := rfl
  obtain ⟨hdue, -, hoffset, hstep⟩ := Chain.eq_of_request (ScheduleRequest.check_eq_ok_iff.mp h).1 hsteps rfl
  exact ⟨hdue, hoffset, hstep⟩

/-- The step of what is bought takes the shipping time and nothing else. -/
theorem workingTime_supplierStep_eq_ok_iff {name : Option Text} {quantity : Amount} {d : Duration} :
    (p.supplierStep name).workingTime quantity (some offset) = .ok d ↔ d = offset := by
  rw [Step.workingTime_eq_ok_iff]
  constructor
  · rintro ⟨estimate, hestimate, -, hd⟩
    obtain rfl : Duration.zero = estimate := Given.proper.inj (Except.ok.inj hestimate)
    exact Duration.ext_micros (hd.trans (Int.zero_add offset.micros))
  · rintro rfl
    exact ⟨.zero, rfl, Int.le_refl 0, (Int.zero_add d.micros).symm⟩

/-- A product is bought in a single step, which is always active. -/
theorem run_supplyRequest_iff {s : Scheduler} {chain : Chain} {placements : List Placement} {start : Instant}
    (hcheck : (p.supplyRequest order due offset).check = .ok chain) :
    s.Run (.proper chain.quantity) (some chain.trailingOffset) chain.steps.reverse chain.completion placements start ↔
      ∃ placement, s.Places (p.supplierStep order.product.id) chain.completion offset placement ∧
        placements = [placement] ∧ start = placement.start := by
  obtain ⟨-, hoffset, hsteps⟩ := eq_of_check_supplyRequest hcheck
  rw [hsteps, List.reverse_singleton, ← hoffset]
  constructor
  · intro hrun
    cases hrun with
    | skip hactive => cases hactive
    | place _ hd hplaces hrest =>
      obtain rfl := workingTime_supplierStep_eq_ok_iff.mp hd
      cases hrest
      exact ⟨_, hplaces, rfl, rfl⟩
  · rintro ⟨placement, hplaces, rfl, rfl⟩
    exact .place rfl (workingTime_supplierStep_eq_ok_iff.mpr rfl) hplaces (.nil _ _)

theorem fallbacks_singleton (completion start : Instant) (placement : Placement) :
    Schedule.fallbacks ⟨completion, start, [placement]⟩ = if placement.onFallback then [placement.step] else [] := by
  cases hon : placement.onFallback <;> simp [Schedule.fallbacks, hon]

theorem result_boughtStart_eq_ok_iff (hmade : order.isMade = false) :
    (p.boughtStart order due offset).result = .ok c ↔ p.Calculates order due offset given c := by
  rw [result_boughtStart, map_eq_ok_iff]
  constructor
  · rintro ⟨⟨completion, start, placements⟩, hs, rfl⟩
    rw [result_schedule] at hs
    obtain ⟨fallback, hfallback, hs⟩ := bind_eq_ok_iff.mp hs
    obtain ⟨chain, hrequest, hvalid, -, hrun⟩ := Scheduler.result_schedule_eq_ok_iff.mp hs
    have hcheck := ScheduleRequest.check_eq_ok_iff.mpr ⟨hrequest, hvalid⟩
    obtain ⟨placement, hplaces, rfl, rfl⟩ := (run_supplyRequest_iff hcheck).mp hrun
    rw [fallbacks_singleton]
    exact .bought hmade hcheck hfallback hplaces
  · intro h
    cases h with
    | @bought chain fallback placement _ hcheck hfallback hplaces =>
      obtain ⟨hrequest, hvalid⟩ := ScheduleRequest.check_eq_ok_iff.mp hcheck
      have hrun := (run_supplyRequest_iff hcheck).mpr ⟨placement, hplaces, rfl, rfl⟩
      refine ⟨⟨chain.completion, placement.start, [placement]⟩, ?_, by rw [fallbacks_singleton]⟩
      rw [result_schedule, hfallback]
      exact Scheduler.result_schedule_eq_ok_iff.mpr ⟨chain, hrequest, hvalid, rfl, hrun⟩
    | built hbuilt => cases hmade.symm.trans hbuilt
    | noRouting hbuilt => cases hmade.symm.trans hbuilt
    | noTime hbuilt => cases hmade.symm.trans hbuilt

/-- The calculation for the selected routing. -/
theorem result_builtStart_eq_ok_iff (hmade : order.isMade = true) (hr : p.Selects order.product due given r) :
    (p.builtStart order due offset r).result = .ok c ↔ p.Calculates order due offset given c := by
  rw [result_builtStart]
  constructor
  · intro h
    split at h
    · next s hs =>
      obtain rfl := Except.ok.inj h
      exact .built hmade hr hs
    · next hlookup =>
      obtain rfl := Except.ok.inj h
      obtain ⟨chain, hcheck, hmisses⟩ := result_scheduleRouting_eq_lookup_iff.mp hlookup
      exact .noTime hmade hr hcheck hmisses
    · cases h
  · intro h
    cases h with
    | bought hbought => cases hmade.symm.trans hbought
    | built _ hr' hs =>
      obtain rfl := hr.unique hr'
      rw [hs]
    | noRouting _ hgiven hlacks =>
      subst hgiven
      exact absurd hr hlacks.not_selects
    | noTime _ hr' hcheck hmisses =>
      obtain rfl := hr.unique hr'
      rw [result_scheduleRouting_eq_lookup_iff.mpr ⟨_, hcheck, hmisses⟩]

theorem result_calculateStartDate_eq_ok_iff (hdue : order.requiredBy = some due) :
    (p.calculateStartDate order days given).result = .ok c ↔
      ∃ offset, p.leadTimeOffset days = .ok offset ∧ p.Calculates order due offset given c := by
  rw [result_calculateStartDate hdue, bind_eq_ok_iff]
  refine exists_congr fun offset => and_congr_right fun _ => ?_
  cases hmade : order.isMade with
  | false => exact result_boughtStart_eq_ok_iff hmade
  | true =>
    cases given with
    | some r => exact result_builtStart_eq_ok_iff hmade (.given r)
    | none =>
      cases hresolve : (p.resolveRouting order.product (some due)).result with
      | ok r => exact result_builtStart_eq_ok_iff hmade (result_resolveRouting_eq_ok_iff.mp hresolve)
      | error e =>
        have hnone (r : Routing) : ¬ p.Selects order.product due none r := fun hr => by
          cases hresolve.symm.trans (result_resolveRouting_eq_ok_iff.mpr hr)
        constructor
        · intro h
          cases e with
          | lookupFailed subject fault =>
            obtain rfl := Except.ok.inj h
            obtain ⟨hlacks, rfl, rfl⟩ := result_resolveRouting_eq_lookup_iff.mp hresolve
            exact .noRouting hmade rfl hlacks
          | _ => cases h
        · intro h
          cases h with
          | bought hbought => cases hmade.symm.trans hbought
          | built _ hr => exact absurd hr (hnone _)
          | noRouting _ _ hlacks =>
            have hlookup := result_resolveRouting_eq_lookup_iff.mpr ⟨hlacks, rfl, rfl⟩
            obtain rfl := Except.error.inj (hresolve.symm.trans hlookup)
            rfl
          | noTime _ hr => exact absurd hr (hnone _)

theorem leadTimeOffset_missesNothing (p : Planner) (days : Amount) : MissesNothing (p.leadTimeOffset days) := by
  refine .bind (Amount.times_missesNothing _ _) fun product => ?_
  split
  · intro e h
    rcases Duration.ofUnits_eq_error h with rfl | ⟨rfl, -⟩
    · exact id
    · exact id
  · exact .error id

theorem builtStart_missesNothing (p : Planner) (order : ProposedOrder) (due : Moment) (offset : Duration)
    (r : Routing) : MissesNothing (p.builtStart order due offset r).result := by
  rw [result_builtStart]
  split
  · exact .ok _
  · exact .ok _
  · next e hnot _ =>
    refine .of_ne_lookup fun subject fault h => ?_
    exact hnot subject fault (Except.error.inj h)

/-- What is bought takes no estimate. -/
theorem boughtStart_missesNothing (p : Planner) (order : ProposedOrder) (due : Moment) (offset : Duration) :
    MissesNothing (p.boughtStart order due offset).result := by
  rw [result_boughtStart, result_schedule]
  refine .map (.bind p.fallbackCalendar_missesNothing fun fallback => .of_ne_lookup fun subject fault h => ?_) _
  rcases Scheduler.result_schedule_eq_error_iff.mp h with hcheck | ⟨c, hcheck, hstops⟩
  · exact (ScheduleRequest.check_missesNothing _).ne_lookup _ _ hcheck
  obtain ⟨-, -, hsteps⟩ := eq_of_check_supplyRequest hcheck
  have hvalid := (ScheduleRequest.check_eq_ok_iff.mp hcheck).2
  obtain ⟨late, step, early, ps, reached, hlist, -, hstops⟩ := hstops
  have hstep : step = p.supplierStep order.product.id := by
    have hmem : step ∈ c.steps.reverse := hlist ▸ List.mem_append_right _ List.mem_cons_self
    rw [hsteps] at hmem
    exact List.mem_singleton.mp hmem
  rw [hstep, Scheduler.stops_lookup_iff p.registry.subtract_missesNothing fallback.subtract_missesNothing
    (fun _ => .ok true) (Scheduler.nonneg_of_mem_left hvalid.offset_nonneg late)] at hstops
  cases hstops.2

/-- Missing planning data is reported, but it is never an error. -/
theorem calculateStartDate_missesNothing (p : Planner) (order : ProposedOrder) (days : Amount)
    (given : Option Routing) : MissesNothing (p.calculateStartDate order days given).result := by
  cases hdue : order.requiredBy with
  | none =>
    rw [calculateStartDate, hdue]
    exact .error id
  | some due =>
    rw [result_calculateStartDate hdue]
    refine .bind (p.leadTimeOffset_missesNothing days) fun offset => ?_
    split
    · split
      · exact p.builtStart_missesNothing _ _ _ _
      · split
        · exact p.builtStart_missesNothing _ _ _ _
        · exact .ok _
        · next e hnot _ =>
          refine .of_ne_lookup fun subject fault h => ?_
          exact hnot subject fault (Except.error.inj h)
    · exact p.boughtStart_missesNothing _ _ _

/-- A routing that is scheduled misses no time. -/
theorem not_missesTime_of_ok {s : Schedule} {completion : Instant} (hdue : due = .proper completion)
    (h : (p.scheduleRouting r due quantity (.proper offset)).result = .ok s) :
    ¬ p.MissesTime r completion quantity offset subject fault := by
  intro hmisses
  have hs := h
  rw [scheduleRouting_eq, result_schedule] at hs
  obtain ⟨fallback, -, hs⟩ := bind_eq_ok_iff.mp hs
  obtain ⟨chain, hrequest, hvalid, -⟩ := Scheduler.result_schedule_eq_ok_iff.mp hs
  have hcheck := ScheduleRequest.check_eq_ok_iff.mpr ⟨hrequest, hvalid⟩
  obtain rfl := Given.proper.inj (hdue.symm.trans (eq_of_check_routingRequest hcheck).1)
  cases h.symm.trans (result_scheduleRouting_eq_lookup_iff.mpr ⟨chain, hcheck, hmisses⟩)

/-- A calculation reports a failure exactly where planning data is missing for an order that is made. -/
theorem Calculates.isOk_eq_false_iff (h : p.Calculates order due offset given c) :
    c.isOk = false ↔ order.isMade = true ∧
      (given = none ∧ p.LacksAllRoutings order.product due ∨
        ∃ r completion subject fault, p.Selects order.product due given r ∧ due = .proper completion ∧
          p.MissesTime r completion order.quantity offset subject fault) := by
  cases h with
  | bought hmade => simp [StartDateCalculation.isOk, hmade]
  | @built r s hmade hr hs =>
    refine iff_of_false Bool.true_eq_false.mp ?_
    rintro ⟨-, ⟨rfl, hlacks⟩ | ⟨r', completion, subject, fault, hr', hdue, hmisses⟩⟩
    · exact hlacks.not_selects hr
    · rw [← hr.unique hr'] at hmisses
      exact not_missesTime_of_ok hdue hs hmisses
  | noRouting hmade hgiven hlacks => exact iff_of_true rfl ⟨hmade, .inl ⟨hgiven, hlacks⟩⟩
  | noTime hmade hr hcheck hmisses =>
    have hdue := (eq_of_check_routingRequest hcheck).1
    exact iff_of_true rfl ⟨hmade, .inr ⟨_, _, _, _, hr, hdue, hmisses⟩⟩

end Planner

theorem Session.answer_calculateStartDate (s : Session) (order : ProposedOrder) (days : Amount)
    (given : Option Routing) :
    s.answer (.calculateStartDate order days given) =
      Answer.calculation <$> (s.planner.calculateStartDate order days given).result := by
  rw [answer, Operation.run, result_bind_pure, perform_askLogged]

/-- The calculation of a start date changes nothing, and missing planning data is never an error. What it returns is
the place of what is bought or the schedule of the routing that makes the order, or it tells what is missing, and then
it has no starts but the required date; where there is one of these, it is returned. It tells what is missing exactly if
there is no routing, or if the walk over the routing reaches an active task whose time is not known. -/
theorem calculateStartDate_isComplete (s : Session) (order : ProposedOrder) (days : Amount) (given : Option Routing)
    {due : Moment} (hdue : order.requiredBy = some due) :
    (s.after (.calculateStartDate order days given)).planner = s.planner ∧
      (∀ subject fault, s.answer (.calculateStartDate order days given) ≠ .error (.lookupFailed subject fault)) ∧
      (∀ c, s.answer (.calculateStartDate order days given) = .ok (.calculation c) ↔
        ∃ offset, s.planner.leadTimeOffset days = .ok offset ∧ s.planner.Calculates order due offset given c) ∧
      ∀ offset c, s.planner.Calculates order due offset given c →
        (c.isOk = false ↔ order.isMade = true ∧
          (given = none ∧ s.planner.LacksAllRoutings order.product due ∨
            ∃ r completion subject fault, s.planner.Selects order.product due given r ∧ due = .proper completion ∧
              s.planner.MissesTime r completion order.quantity offset subject fault)) := by
  rw [s.answer_calculateStartDate]
  refine ⟨?_, fun subject fault => ?_, fun c => ?_, fun offset c h => h.isOk_eq_false_iff⟩
  · rw [Session.after, Operation.run, perform_bind_pure, perform_askLogged]
  · exact (MissesNothing.map (s.planner.calculateStartDate_missesNothing order days given) _).ne_lookup subject fault
  · rw [← Planner.result_calculateStartDate_eq_ok_iff hdue, map_eq_ok_iff]
    simp

namespace RoutingTask

/-- Under half an hour, whatever the quantity. -/
def packing : RoutingTask where
  id := some "PACKING"
  name := none
  setupTime := .proper (.minutes 27 (by decide))
  runTimePerUnit := .proper .zero
  calendar := some continuousId
  validity := .always
  estimateMethod := none
  description := none

/-- A task that is timed by a method of its own. -/
def cutting : RoutingTask := { packing with id := some "CUTTING", estimateMethod := some "LASER" }

end RoutingTask

/-- A gear is cut, and then it is packed. -/
def Routing.gear : Routing where
  id := "GEAR-1"
  product := "GEAR"
  name := none
  tasks := [.cutting, .packing]
  validity := .always

def ProposedOrder.gear (due : Moment) : ProposedOrder where
  product :=
    { id := some "GEAR", name := none, productType := .finishedGood, isVirtual := none, virtualProduct := none }
  facility := none
  manufacturingFacility := none
  isBuilt := some true
  requiredBy := some due
  quantity := .proper (.int 5)
  start := none
  planName := none

/-- The method that times the cutting is not registered, which shows once the packing has been placed. -/
theorem calculateStartDate_isComplete_gear :
    ∃ s order c, s = Session.fresh .numbered (.inMemory .standard) ∧ order = .gear (.proper (.onTuesday 12)) ∧
      s.answer (.calculateStartDate order (.proper (.int 0)) (some .gear)) = .ok (.calculation c) ∧
      (s.after (.calculateStartDate order (.proper (.int 0)) (some .gear))).planner = s.planner ∧ c.isOk = false ∧
      ∃ offset r completion subject fault, s.planner.leadTimeOffset (.proper (.int 0)) = .ok offset ∧
        s.planner.MissesTime r completion (.proper (.int 5)) offset subject fault := by
  obtain ⟨s, hs⟩ : ∃ s, s = Session.fresh .numbered (.inMemory .standard) := exists_eq
  obtain ⟨order, horder⟩ : ∃ order, order = ProposedOrder.gear (.proper (.onTuesday 12)) := exists_eq
  have hfailed : (s.planner.calculateStartDate order (.proper (.int 0)) (some .gear)).result.toOption.map (·.isOk) =
      some false := by
    rw [hs, horder]
    decide +kernel
  obtain ⟨c, hc, hok⟩ := Option.map_eq_some_iff.mp hfailed
  have hanswer : s.answer (.calculateStartDate order (.proper (.int 0)) (some .gear)) = .ok (.calculation c) := by
    rw [s.answer_calculateStartDate, eq_ok_of_toOption hc]
    rfl
  obtain ⟨hsame, -, hreturned, hfailure⟩ := calculateStartDate_isComplete s order (.proper (.int 0)) (some .gear)
    (congrArg ProposedOrder.requiredBy horder)
  obtain ⟨offset, hoffset, hcalculates⟩ := (hreturned c).mp hanswer
  obtain ⟨-, ⟨hgiven, -⟩ | ⟨r, completion, subject, fault, -, -, hmisses⟩⟩ := (hfailure offset c hcalculates).mp hok
  · cases hgiven
  · rw [horder] at hmisses
    exact ⟨s, order, c, hs, horder, hanswer, hsame, hok, offset, r, completion, subject, fault, hoffset, hmisses⟩

end SupplyPlan
