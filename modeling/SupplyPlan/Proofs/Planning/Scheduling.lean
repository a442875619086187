import SupplyPlan.Proofs.Planning.MissingData

namespace SupplyPlan

namespace Planner

/-- What a planner schedules on once its fallback calendar is found. -/
def schedulerOn (p : Planner) (fallback : WorkingCalendar) : Scheduler :=
  { calendars := p.registry.subtract, fallback := fallback.subtract }

/-- Schedules a request on the calendars of the planner. -/
def schedule (p : Planner) (r : ScheduleRequest) : Logged Schedule := do (← p.scheduler).schedule r

/-- What is asked for when the tasks of a routing are scheduled. -/
def routingRequest (p : Planner) (routing : Routing) (completion : Moment) (quantity : Amount) (trailingOffset : Span) :
    ScheduleRequest where
  steps := routing.tasks.map fun task => .proper (task.step p.estimators)
  completion
  quantity
  trailingOffset

/-- What is asked for when a product is bought. -/
def supplyRequest (p : Planner) (order : ProposedOrder) (due : Moment) (offset : Duration) : ScheduleRequest where
  steps := [.proper (p.supplierStep order.product.id)]
  completion := due
  quantity := order.quantity
  trailingOffset := .proper offset

variable {p : Planner}

theorem scheduleRouting_eq (routing : Routing) (completion : Moment) (quantity : Amount) (trailingOffset : Span) :
    p.scheduleRouting routing completion quantity trailingOffset =
      p.schedule (p.routingRequest routing completion quantity trailingOffset) := rfl

theorem result_schedule (p : Planner) (r : ScheduleRequest) :
    (p.schedule r).result =
      p.fallbackCalendar.result >>= fun fallback => ((p.schedulerOn fallback).schedule r).result := by
  simp only [schedule, scheduler, schedulerOn, Logged.result_bind]
  cases p.fallbackCalendar.result <;> rfl

end Planner

/-- A request with proper steps and a proper offset that is that of a chain. -/
theorem Chain.eq_of_request {c : Chain} {r : ScheduleRequest} {steps : List Step} {offset : Duration}
    (h : r = c.request) (hsteps : r.steps = steps.map .proper) (hoffset : r.trailingOffset = .proper offset) :
    r.completion = .proper c.completion ∧ r.quantity = .proper c.quantity ∧ offset = c.trailingOffset ∧
      c.steps = steps := by
  subst h
  refine ⟨rfl, rfl, (Given.proper.inj hoffset).symm, ?_⟩
  exact List.map_injective_iff.mpr (fun _ _ => Given.proper.inj) hsteps

theorem ScheduleRequest.check_missesNothing (r : ScheduleRequest) : MissesNothing r.check := by
  have hsteps (seen : List (Option Text)) (given : List (Given Step)) : MissesNothing (checkSteps seen given) := by
    induction given generalizing seen with
    | nil => exact .ok _
    | cons first rest ih =>
      cases first with
      | other v => exact .error id
      | proper step =>
        rw [checkSteps]
        split
        · exact .error id
        · exact .map (ih _) _
  refine .bind ?_ fun completion => .bind ?_ fun quantity => .bind ?_ fun offset => .bind (hsteps _ _) fun _ => .ok _
  · unfold checkCompletion
    split
    · exact .ok _
    · exact .error id
    · exact .error id
  · unfold checkQuantity
    split
    · split
      · exact .error id
      · exact .ok _
    · exact .error id
  · unfold checkOffset
    split
    · split
      · exact .error id
      · exact .ok _
    · exact .error id

/-- A step lacks planning data if it is active and its estimate lacks it; its calendars never do. -/
theorem Scheduler.stops_lookup_iff {s : Scheduler} {quantity : Amount} {addition : Option Duration} {step : Step}
    {cursor : Instant} {subject : Option Text} {fault : LookupFault}
    (hcalendars : ∀ ref finish d, MissesNothing (s.calendars ref finish d))
    (hfallback : ∀ finish d, MissesNothing (s.fallback finish d))
    (hactivity : ∀ moment, MissesNothing (step.isActive moment)) (haddition : ∀ extra ∈ addition, 0 ≤ extra.micros) :
    s.Stops quantity addition step cursor (.lookupFailed subject fault) ↔
      step.isActive cursor = .ok true ∧ step.estimate quantity = .error (.lookupFailed subject fault) := by
  constructor
  · rintro (h | ⟨hactive, h⟩ | ⟨hactive, hd, h⟩)
    · exact absurd h ((hactivity cursor).ne_lookup _ _)
    · rcases Step.workingTime_eq_error h with ⟨⟨h⟩⟩ | h
      · exact ⟨hactive, h⟩
      · cases h
    · rcases result_place_eq_error (Step.workingTime_nonneg haddition hd) h with ⟨h, -⟩ | ⟨h, -⟩ | h
      · exact absurd h ((hcalendars _ _ _).ne_lookup _ _)
      · exact absurd h ((hfallback _ _).ne_lookup _ _)
      · cases h
  · rintro ⟨hactive, h⟩
    exact .time hactive (Step.workingTime_of_raised h addition)

namespace Planner

variable {p : Planner} {due : Moment} {r : Routing} {quantity : Amount} {offset : Duration} {subject : Option Text}
  {fault : LookupFault}

/-- The walk from the completion backwards reaches a task that is active there, but whose time is not known. All later
tasks are placed before. -/
def MissesTime (p : Planner) (r : Routing) (completion : Instant) (quantity : Amount) (offset : Duration)
    (subject : Option Text) (fault : LookupFault) : Prop :=
  ∃ fallback late task early ps reached, p.fallbackCalendar.result = .ok fallback ∧
    r.tasks.reverse = late ++ task :: early ∧
    (p.schedulerOn fallback).Run quantity (some offset) (late.map (·.step p.estimators)) completion ps reached ∧
    task.validity.isActive (some (.proper reached)) = .ok true ∧ task.LacksTime p.estimators quantity subject fault

theorem isActive_step_missesNothing (estimators : Estimators) (task : RoutingTask) (moment : Instant) :
    MissesNothing ((task.step estimators).isActive moment) := by
  intro e h
  obtain rfl := Validity.isActive_eq_error h
  exact id

/-- What passes the checks for a routing is the chain of its tasks. -/
theorem eq_of_check_routingRequest {c : Chain}
    (h : (p.routingRequest r due quantity (.proper offset)).check = .ok c) :
    due = .proper c.completion ∧ quantity = .proper c.quantity ∧ offset = c.trailingOffset ∧
      c.steps = r.tasks.map (·.step p.estimators) ∧ 0 ≤ offset.micros := by
  obtain ⟨hrequest, hvalid⟩ := ScheduleRequest.check_eq_ok_iff.mp h
  have hsteps : (p.routingRequest r due quantity (.proper offset)).steps =
      (r.tasks.map (·.step p.estimators)).map .proper := by
    rw [List.map_map]
    rfl
  obtain ⟨hdue, hquantity, hoffset, htasks⟩ := Chain.eq_of_request hrequest hsteps rfl
  exact ⟨hdue, hquantity, hoffset, htasks, hoffset ▸ hvalid.offset_nonneg⟩

theorem stopsWithin_lookup_iff {fallback : WorkingCalendar} {completion : Instant} (hoffset : 0 ≤ offset.micros) :
    (p.schedulerOn fallback).StopsWithin quantity (some offset) (r.tasks.map (·.step p.estimators)).reverse completion
        (.lookupFailed subject fault) ↔
      ∃ late task early ps reached, r.tasks.reverse = late ++ task :: early ∧
        (p.schedulerOn fallback).Run quantity (some offset) (late.map (·.step p.estimators)) completion ps reached ∧
        task.validity.isActive (some (.proper reached)) = .ok true ∧
        task.LacksTime p.estimators quantity subject fault := by
  have hstops {late : List Step} {task : RoutingTask} {reached : Instant} :
      (p.schedulerOn fallback).Stops quantity (if late.isEmpty then some offset else none) (task.step p.estimators)
          reached (.lookupFailed subject fault) ↔
        task.validity.isActive (some (.proper reached)) = .ok true ∧
          task.LacksTime p.estimators quantity subject fault := by
    rw [← RoutingTask.time_eq_lookup_iff]
    exact Scheduler.stops_lookup_iff p.registry.subtract_missesNothing fallback.subtract_missesNothing
      (isActive_step_missesNothing _ _) (Scheduler.nonneg_of_mem_left hoffset late)
  rw [← List.map_reverse]
  constructor
  · rintro ⟨late, step, early, ps, reached, hlist, hrun, h⟩
    obtain ⟨late, rest, htasks, rfl, hrest⟩ := List.map_eq_append_iff.mp hlist
    obtain ⟨task, early, rfl, rfl, -⟩ := List.map_eq_cons_iff.mp hrest
    exact ⟨late, task, early, ps, reached, htasks, hrun, hstops.mp h⟩
  · rintro ⟨late, task, early, ps, reached, htasks, hrun, h⟩
    refine ⟨late.map (·.step p.estimators), task.step p.estimators, early.map (·.step p.estimators), ps, reached, ?_,
      hrun, hstops.mpr h⟩
    rw [htasks, List.map_append, List.map_cons]

/-- The schedule of a routing lacks planning data exactly where its request passes and the walk reaches a task whose
time is not known. -/
theorem result_scheduleRouting_eq_lookup_iff :
    (p.scheduleRouting r due quantity (.proper offset)).result = .error (.lookupFailed subject fault) ↔
      ∃ c, (p.routingRequest r due quantity (.proper offset)).check = .ok c ∧
        p.MissesTime r c.completion quantity offset subject fault := by
  rw [scheduleRouting_eq, result_schedule, bind_eq_error_iff,
    or_iff_right (p.fallbackCalendar_missesNothing.ne_lookup _ _)]
  constructor
  · rintro ⟨fallback, hfallback, h⟩
    rcases Scheduler.result_schedule_eq_error_iff.mp h with hcheck | ⟨c, hcheck, h⟩
    · exact absurd hcheck ((ScheduleRequest.check_missesNothing _).ne_lookup _ _)
    · obtain ⟨-, hquantity, hoffset, hsteps, hnonneg⟩ := eq_of_check_routingRequest hcheck
      rw [← hquantity, ← hoffset, hsteps] at h
      obtain ⟨late, task, early, ps, reached, h⟩ := (stopsWithin_lookup_iff hnonneg).mp h
      exact ⟨c, hcheck, fallback, late, task, early, ps, reached, hfallback, h⟩
  · rintro ⟨c, hcheck, fallback, late, task, early, ps, reached, hfallback, h⟩
    refine ⟨fallback, hfallback, Scheduler.result_schedule_eq_error_iff.mpr (.inr ⟨c, hcheck, ?_⟩)⟩
    obtain ⟨-, hquantity, hoffset, hsteps, hnonneg⟩ := eq_of_check_routingRequest hcheck
    rw [← hquantity, ← hoffset, hsteps]
    exact (stopsWithin_lookup_iff hnonneg).mpr ⟨late, task, early, ps, reached, h⟩

end Planner

end SupplyPlan
