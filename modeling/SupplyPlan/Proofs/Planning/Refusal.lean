import SupplyPlan.Proofs.Planning.Calculation
import SupplyPlan.Proofs.Planning.Proposal

namespace SupplyPlan

open Planning

/-- Completion and quantity are checked before the offset, the steps behind it. -/
theorem ScheduleRequest.check_of_negative {r : ScheduleRequest} {offset : Duration}
    (hoffset : r.trailingOffset = .proper offset) (hneg : offset.micros < 0) :
    ∃ fault, r.check = .error (.invalidRequest fault) ∧
      ∀ t q, r.completion = .proper t → r.quantity = .proper q → q.isNegative = false → fault = .negativeOffset := by
  have hrefused : checkOffset r.trailingOffset = .error (.invalidRequest .negativeOffset) := by
    rw [hoffset]
    exact if_pos (decide_eq_true hneg)
  cases hcompletion : r.completion with
  | other v =>
    have hfault : ∃ fault, checkCompletion r.completion = .error (.invalidRequest fault) := by
      rw [hcompletion]
      unfold checkCompletion
      split
      · contradiction
      · exact ⟨_, rfl⟩
      · exact ⟨_, rfl⟩
    obtain ⟨fault, hfault⟩ := hfault
    refine ⟨fault, by rw [check, hfault]; rfl, fun t q ht => ?_⟩
    cases ht
  | proper t =>
    have hpasses : checkCompletion r.completion = .ok t := checkCompletion_eq_ok_iff.mpr hcompletion
    cases hquantity : r.quantity with
    | other v =>
      have hfault : checkQuantity r.quantity = .error (.invalidRequest (.quantityNotNumber v)) := by
        rw [hquantity]
        rfl
      refine ⟨_, by rw [check, hpasses, hfault]; rfl, fun t q _ hq => ?_⟩
      cases hq
    | proper q =>
      cases hsign : q.isNegative with
      | true =>
        have hfault : checkQuantity r.quantity = .error (.invalidRequest (.negativeQuantity q)) := by
          rw [hquantity]
          exact if_pos hsign
        refine ⟨_, by rw [check, hpasses, hfault]; rfl, fun t' q' _ hq hnot => ?_⟩
        obtain rfl := Given.proper.inj hq
        cases hsign.symm.trans hnot
      | false =>
        have hcounts : checkQuantity r.quantity = .ok q := checkQuantity_eq_ok_iff.mpr ⟨hquantity, hsign⟩
        exact ⟨_, by rw [check, hpasses, hcounts, hrefused]; rfl, fun _ _ _ _ _ => rfl⟩

namespace Planner

variable {p : Planner} {order : ProposedOrder} {due : Moment} {given : Option Routing} {days : Amount}
  {offset : Duration} {r : Routing} {c : StartDateCalculation}

/-- How a calculation is refused: by the request that is invalid, or before that, because the fallback calendar or the
routing cannot be looked up. -/
inductive Refuses (p : Planner) (order : ProposedOrder) (due : Moment) (given : Option Routing) : PlanError → Prop where
  | invalid {fault : RequestFault}
      (h : ∀ t q, due = .proper t → order.quantity = .proper q → q.isNegative = false → fault = .negativeOffset) :
      Refuses p order due given (.invalidRequest fault)
  | fallback {e : PlanError} (h : p.fallbackCalendar.result = .error e) : Refuses p order due given e
  | routing {e : PlanError} (hmade : order.isMade = true) (hgiven : given = none)
      (h : (p.resolveRouting order.product (some due)).result = .error e) : Refuses p order due given e

/-- Nothing is scheduled with a negative offset. -/
theorem schedule_of_negative (request : ScheduleRequest) (hoffset : request.trailingOffset = .proper offset)
    (hneg : offset.micros < 0) (hdue : request.completion = due) (hquantity : request.quantity = order.quantity)
    (given : Option Routing) :
    ∃ e, (p.schedule request).result = .error e ∧ ¬ e.IsLookup ∧ p.Refuses order due given e := by
  rw [result_schedule]
  cases hfallback : p.fallbackCalendar.result with
  | error e => exact ⟨e, rfl, p.fallbackCalendar_missesNothing e hfallback, .fallback hfallback⟩
  | ok fallback =>
    obtain ⟨fault, hcheck, hfault⟩ := ScheduleRequest.check_of_negative hoffset hneg
    rw [hdue, hquantity] at hfault
    exact ⟨.invalidRequest fault, Scheduler.result_schedule_eq_error_iff.mpr (.inl hcheck), id, .invalid hfault⟩

theorem builtStart_of_negative (hneg : offset.micros < 0) (given : Option Routing) :
    ∃ e, (p.builtStart order due offset r).result = .error e ∧ p.Refuses order due given e := by
  obtain ⟨e, herror, hlookup, hrefuses⟩ :=
    schedule_of_negative (p.routingRequest r due order.quantity (.proper offset)) rfl hneg rfl rfl given
  refine ⟨e, ?_, hrefuses⟩
  rw [result_builtStart, scheduleRouting_eq, herror]
  cases e with
  | lookupFailed => exact absurd trivial hlookup
  | _ => rfl

theorem boughtStart_of_negative (hneg : offset.micros < 0) (given : Option Routing) :
    ∃ e, (p.boughtStart order due offset).result = .error e ∧ p.Refuses order due given e := by
  obtain ⟨e, herror, -, hrefuses⟩ :=
    schedule_of_negative (p.supplyRequest order due offset) rfl hneg rfl rfl given
  refine ⟨e, ?_, hrefuses⟩
  rw [result_boughtStart, herror]
  rfl

/-- Whatever is scheduled, a negative offset is refused. -/
theorem result_calculateStartDate_of_negative (hdue : order.requiredBy = some due)
    (hoffset : p.leadTimeOffset days = .ok offset) (hneg : offset.micros < 0)
    (hscheduled : ¬ (order.isMade = true ∧ given = none ∧ p.LacksAllRoutings order.product due)) :
    ∃ e, (p.calculateStartDate order days given).result = .error e ∧ p.Refuses order due given e := by
  rw [result_calculateStartDate hdue, hoffset]
  cases hmade : order.isMade with
  | false => exact boughtStart_of_negative hneg given
  | true =>
    cases given with
    | some r => exact builtStart_of_negative hneg _
    | none =>
      cases hresolve : (p.resolveRouting order.product (some due)).result with
      | ok r => exact builtStart_of_negative hneg none
      | error e =>
        cases e with
        | lookupFailed subject fault =>
          exact absurd ⟨hmade, rfl, (result_resolveRouting_eq_lookup_iff.mp hresolve).1⟩ hscheduled
        | _ => exact ⟨_, rfl, .routing hmade rfl hresolve⟩

theorem result_calculateStartDate_eq_ok_iff_of_negative (hdue : order.requiredBy = some due)
    (hoffset : p.leadTimeOffset days = .ok offset) (hneg : offset.micros < 0) :
    (p.calculateStartDate order days given).result = .ok c ↔
      (order.isMade = true ∧ given = none ∧ p.LacksAllRoutings order.product due) ∧
        c = .failed due none order.product.id .noRouting := by
  constructor
  · intro h
    by_cases hlacks : order.isMade = true ∧ given = none ∧ p.LacksAllRoutings order.product due
    · obtain ⟨hmade, rfl, hrouting⟩ := hlacks
      rw [result_calculateStartDate_of_lacksAllRoutings hdue hoffset hmade hrouting] at h
      exact ⟨⟨hmade, rfl, hrouting⟩, (Except.ok.inj h).symm⟩
    · obtain ⟨e, herror, -⟩ := result_calculateStartDate_of_negative hdue hoffset hneg hlacks
      cases herror.symm.trans h
  · rintro ⟨⟨hmade, rfl, hrouting⟩, rfl⟩
    exact result_calculateStartDate_of_lacksAllRoutings hdue hoffset hmade hrouting

/-- Only orders with a required date are calculated. -/
theorem exists_due_of_result (h : (p.calculateStartDate order days given).result = .ok c) :
    ∃ due, order.requiredBy = some due := by
  cases hdue : order.requiredBy with
  | some due => exact ⟨due, rfl⟩
  | none =>
    rw [calculateStartDate, hdue] at h
    cases h

end Planner

/-- A negative shipping time is refused, unless the order is made and there is no routing for it: then the calculation
returns that failure, before the shipping time is looked at. So an order with a negative shipping time is recorded only
if it is made and there is no routing for it. -/
theorem negativeShipping_isRefused (s : Session) {days : Amount} {offset : Duration}
    (hoffset : s.planner.leadTimeOffset days = .ok offset) (hneg : offset.micros < 0) :
    (∀ (order : ProposedOrder) (due : Moment) (given : Option Routing), order.requiredBy = some due →
      (∀ c, s.answer (.calculateStartDate order days given) = .ok (.calculation c) ↔
        (order.isMade = true ∧ given = none ∧ s.planner.LacksAllRoutings order.product due) ∧
          c = .failed due none order.product.id .noRouting) ∧
      (¬ (order.isMade = true ∧ given = none ∧ s.planner.LacksAllRoutings order.product due) →
        ∃ e, s.answer (.calculateStartDate order days given) = .error e ∧ s.planner.Refuses order due given e)) ∧
      ∀ r : ProposalRequest, r.daysToShipIn s.planner = .ok days →
        ((proposeOrder r).perform s).2.planner ≠ s.planner →
        ∃ o due, ((proposeOrder r).perform s).1 = .ok o ∧ r.requiredBy = some due ∧ o.order.isMade = true ∧
          s.planner.LacksAllRoutings o.order.product due ∧
          o.calculation = .failed due none o.order.product.id .noRouting := by
  refine ⟨fun order due given hdue => ⟨fun c => ?_, fun hscheduled => ?_⟩, fun r hdays hchanged => ?_⟩
  · rw [s.answer_calculateStartDate, ← Planner.result_calculateStartDate_eq_ok_iff_of_negative hdue hoffset hneg]
    rw [map_eq_ok_iff]
    simp
  · obtain ⟨e, herror, hrefuses⟩ := Planner.result_calculateStartDate_of_negative hdue hoffset hneg hscheduled
    exact ⟨e, by rw [s.answer_calculateStartDate, herror]; rfl, hrefuses⟩
  · have hproposed := proposeOrder_proposed r s
    generalize ((proposeOrder r).perform s).1 = result at hproposed ⊢
    generalize ((proposeOrder r).perform s).2.planner = after at hproposed hchanged
    cases hproposed with
    | failed e => exact absurd rfl hchanged
    | @made o _ horder hrecorded =>
      have hanswered := r.isAnsweredBy_of_order horder
      obtain ⟨days', hdays', hcalculation⟩ := hanswered.calculation
      obtain rfl := Except.ok.inj (hdays.symm.trans hdays')
      obtain ⟨due, hdue⟩ := Planner.exists_due_of_result hcalculation
      obtain ⟨⟨hmade, -, hlacks⟩, hfailed⟩ :=
        (Planner.result_calculateStartDate_eq_ok_iff_of_negative hdue hoffset hneg).mp hcalculation
      exact ⟨o, due, rfl, hanswered.requiredBy.symm.trans hdue, hmade, hlacks, hfailed⟩

/-- A day of shipping less than none is refused for a gear that has a routing. -/
theorem negativeShipping_isRefused_gear :
    ∃ s due offset e, s = Session.fresh .numbered (.inMemory .standard) ∧ due = .proper (.onTuesday 12) ∧
      s.planner.leadTimeOffset (.proper (.int (-1))) = .ok offset ∧ offset.micros < 0 ∧
      s.answer (.calculateStartDate (.gear due) (.proper (.int (-1))) (some .gear)) = .error e ∧
      s.planner.Refuses (.gear due) due (some .gear) e := by
  obtain ⟨s, hs⟩ : ∃ s, s = Session.fresh .numbered (.inMemory .standard) := exists_eq
  have hnegative : (s.planner.leadTimeOffset (.proper (.int (-1)))).toOption.map (·.micros) = some (-28800000000) := by
    rw [hs]
    decide +kernel
  obtain ⟨offset, hoffset, hmicros⟩ := Option.map_eq_some_iff.mp hnegative
  have hneg : offset.micros < 0 := by omega
  obtain ⟨hrefused, -⟩ := negativeShipping_isRefused s (eq_ok_of_toOption hoffset) hneg
  obtain ⟨e, herror, hrefuses⟩ := (hrefused (.gear _) (.proper (.onTuesday 12)) (some .gear) rfl).2 (by simp)
  exact ⟨s, _, offset, e, hs, rfl, eq_ok_of_toOption hoffset, hneg, herror, hrefuses⟩

/-- A gear without a routing is not scheduled, and its negative shipping time is not refused. -/
theorem not_negativeShipping_isRefused : ¬ ∀ (s : Session) (order : ProposedOrder) (due : Moment) (days : Amount)
    (given : Option Routing) (offset : Duration), order.requiredBy = some due →
      s.planner.leadTimeOffset days = .ok offset → offset.micros < 0 →
      ∃ fault, s.answer (.calculateStartDate order days given) = .error (.invalidRequest fault) := by
  intro hall
  obtain ⟨s, hs⟩ : ∃ s, s = Session.fresh .numbered (.inMemory .standard) := exists_eq
  have hnegative : (s.planner.leadTimeOffset (.proper (.int (-1)))).toOption.map (·.micros) = some (-28800000000) := by
    rw [hs]
    decide +kernel
  have hreturned :
      (s.answer (.calculateStartDate (.gear (.proper (.onTuesday 12))) (.proper (.int (-1))) none)).isOk = true := by
    rw [hs]
    decide +kernel
  obtain ⟨offset, hoffset, hmicros⟩ := Option.map_eq_some_iff.mp hnegative
  obtain ⟨fault, hrefused⟩ := hall s (.gear _) (.proper (.onTuesday 12)) (.proper (.int (-1))) none offset rfl
    (eq_ok_of_toOption hoffset) (by omega)
  rw [hrefused] at hreturned
  cases hreturned

end SupplyPlan
