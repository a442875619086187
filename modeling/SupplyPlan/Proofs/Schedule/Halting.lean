import SupplyPlan.Proofs.Schedule.Run

namespace SupplyPlan

theorem Duration.add_eq_error {d extra : Duration} {e : PlanError} (h : d.add extra = .error e) : e = .outOfRange := by
  unfold add ofMicros at h
  split at h <;> cases h
  rfl

theorem Instant.minus_eq_error {t : Instant} {d : Duration} {e : PlanError} (h : t.minus d = .error e) :
    e = .outOfRange := by
  unfold minus ofMicros at h
  split at h <;> cases h
  rfl

/-- The estimate of a step is of no use: there is none, it is no duration, or it is negative. -/
inductive Step.FailsEstimate (step : Step) (quantity : Amount) : PlanError → Prop where
  | raised {e : PlanError} (h : step.estimate quantity = .error e) : FailsEstimate step quantity e
  | notDuration {v : Foreign} (h : step.estimate quantity = .ok (.other v)) :
      FailsEstimate step quantity .typeMismatch
  | negative {d : Duration} (h : step.estimate quantity = .ok (.proper d)) (hneg : d.micros < 0) :
      FailsEstimate step quantity (.invalidRequest (.negativeEstimate step.id d))

theorem Step.workingTime_of_raised {step : Step} {quantity : Amount} {e : PlanError}
    (h : step.estimate quantity = .error e) (addition : Option Duration) :
    step.workingTime quantity addition = .error e := by
  rw [workingTime, h]
  rfl

/-- There is no working time without an estimate, and none beyond the range of durations. -/
theorem Step.workingTime_eq_error {step : Step} {quantity : Amount} {addition : Option Duration} {e : PlanError}
    (h : step.workingTime quantity addition = .error e) : step.FailsEstimate quantity e ∨ e = .outOfRange := by
  rcases bind_eq_error_iff.mp h with hraised | ⟨given, hgiven, h⟩
  · exact .inl (.raised hraised)
  cases given with
  | other v =>
    cases h
    exact .inl (.notDuration hgiven)
  | proper d =>
    by_cases hneg : d.micros < 0
    · have hrefused : d.isNegative = true := decide_eq_true hneg
      simp only [Given.toExcept, bind, Except.bind, hrefused, if_true] at h
      cases h
      exact .inl (.negative hgiven hneg)
    · have hkept : d.isNegative = false := decide_eq_false hneg
      simp only [Given.toExcept, bind, Except.bind, hkept, Bool.false_eq_true, if_false] at h
      cases addition with
      | none => cases h
      | some extra => exact .inr (Duration.add_eq_error h)

namespace Scheduler

variable {s : Scheduler} {quantity : Amount} {e : PlanError}

/-- A step that cannot be placed on either calendar fails as the first of them that is not merely unavailable, or it
would start out of range. -/
theorem result_place_eq_error {step : Step} {finish : Instant} {d : Duration} (hd : 0 ≤ d.micros)
    (h : (s.place step finish d).result = .error e) :
    s.calendars step.calendar finish d = .error e ∧ ¬ IsUnavailable (s.calendars step.calendar finish d) ∨
      s.fallback finish d = .error e ∧ ¬ IsUnavailable (s.fallback finish d) ∨ e = .outOfRange := by
  by_cases hown : IsUnavailable (s.calendars step.calendar finish d)
  · rw [result_place_of_unavailable hown] at h
    by_cases hfallback : IsUnavailable (s.fallback finish d)
    · rw [result_placeOnFallback_of_unavailable hd hfallback] at h
      rcases bind_eq_error_iff.mp h with h | ⟨_, -, h⟩
      · exact .inr (.inr (Instant.minus_eq_error h))
      · cases h
    · rw [result_placeOnFallback_of_available hfallback] at h
      rcases bind_eq_error_iff.mp h with h | ⟨_, -, h⟩
      · exact .inr (.inl ⟨h, hfallback⟩)
      · cases h
  · rw [result_place_of_available hown] at h
    rcases bind_eq_error_iff.mp h with h | ⟨_, -, h⟩
    · exact .inl ⟨h, hown⟩
    · cases h

/-- The ways in which a step that the cursor has reached can fail. -/
inductive Stops (s : Scheduler) (quantity : Amount) (addition : Option Duration) (step : Step) (cursor : Instant)
    (e : PlanError) : Prop where
  | activity (h : step.isActive cursor = .error e)
  | time (hactive : step.isActive cursor = .ok true) (h : step.workingTime quantity addition = .error e)
  | calendar {d : Duration} (hactive : step.isActive cursor = .ok true)
      (hd : step.workingTime quantity addition = .ok d) (h : (s.place step cursor d).result = .error e)

/-- A run over steps, given from last to first, that gets as far as a step that fails. The addition goes to the last
step only. -/
def StopsWithin (s : Scheduler) (quantity : Amount) (addition : Option Duration) (steps : List Step) (cursor : Instant)
    (e : PlanError) : Prop :=
  ∃ late step early ps reached, steps = late ++ step :: early ∧ s.Run quantity addition late cursor ps reached ∧
    s.Stops quantity (if late.isEmpty then addition else none) step reached e

/-- What is left of an addition for a step behind other ones is not negative. -/
theorem nonneg_of_mem_left {addition : Duration} (h : 0 ≤ addition.micros) (late : List Step) :
    ∀ extra ∈ if late.isEmpty then some addition else none, 0 ≤ extra.micros := by
  intro extra hextra
  split at hextra
  · obtain rfl := Option.some.inj hextra
    exact h
  · cases hextra

theorem StopsWithin.head {addition : Option Duration} {step : Step} {cursor : Instant}
    (h : s.Stops quantity addition step cursor e) (early : List Step) :
    s.StopsWithin quantity addition (step :: early) cursor e :=
  ⟨[], step, early, [], cursor, rfl, .nil _ _, h⟩

theorem StopsWithin.skip {addition : Option Duration} {step : Step} {early : List Step} {cursor : Instant}
    (hactive : step.isActive cursor = .ok false) (h : s.StopsWithin quantity none early cursor e) :
    s.StopsWithin quantity addition (step :: early) cursor e := by
  obtain ⟨late, failing, earlier, ps, reached, rfl, hrun, hstops⟩ := h
  exact ⟨step :: late, failing, earlier, ps, reached, rfl, .skip hactive hrun, by simpa using hstops⟩

theorem StopsWithin.place {addition : Option Duration} {step : Step} {early : List Step} {cursor : Instant}
    {d : Duration} {p : Placement} (hactive : step.isActive cursor = .ok true)
    (hd : step.workingTime quantity addition = .ok d) (hp : s.Places step cursor d p)
    (h : s.StopsWithin quantity none early p.start e) : s.StopsWithin quantity addition (step :: early) cursor e := by
  obtain ⟨late, failing, earlier, ps, reached, rfl, hrun, hstops⟩ := h
  exact ⟨step :: late, failing, earlier, p :: ps, reached, rfl, .place hactive hd hp hrun, by simpa using hstops⟩

theorem result_placeAll_eq_error_iff {addition : Option Duration} {steps : List Step} {cursor : Instant}
    (haddition : ∀ extra ∈ addition, 0 ≤ extra.micros) :
    (s.placeAll quantity addition steps cursor).result = .error e ↔
      s.StopsWithin quantity addition steps cursor e := by
  constructor
  · intro h
    induction steps generalizing addition cursor with
    | nil => cases h
    | cons step earlier ih =>
      rw [result_placeAll_cons] at h
      rcases bind_eq_error_iff.mp h with h | ⟨active, hactive, h⟩
      · exact .head (.activity h) _
      cases active with
      | false => exact .skip hactive (ih (by simp) h)
      | true =>
        simp only [if_true] at h
        rcases bind_eq_error_iff.mp h with h | ⟨d, hd, h⟩
        · exact .head (.time hactive h) _
        rcases bind_eq_error_iff.mp h with h | ⟨p, hp, h⟩
        · exact .head (.calendar hactive hd h) _
        rcases bind_eq_error_iff.mp h with h | ⟨_, -, h⟩
        · have hplaces := (result_place_eq_ok_iff (Step.workingTime_nonneg haddition hd)).mp hp
          exact .place hactive hd hplaces (ih (by simp) h)
        · cases h
  · rintro ⟨late, step, early, ps, reached, rfl, hrun, hstops⟩
    induction hrun with
    | nil addition cursor =>
      rw [List.nil_append, result_placeAll_cons]
      rw [List.isEmpty_nil, if_pos rfl] at hstops
      cases hstops with
      | activity h => exact bind_eq_error_iff.mpr (.inl h)
      | time hactive h =>
        refine bind_eq_error_iff.mpr (.inr ⟨true, hactive, ?_⟩)
        exact bind_eq_error_iff.mpr (.inl h)
      | calendar hactive hd h =>
        refine bind_eq_error_iff.mpr (.inr ⟨true, hactive, ?_⟩)
        refine bind_eq_error_iff.mpr (.inr ⟨_, hd, ?_⟩)
        exact bind_eq_error_iff.mpr (.inl h)
    | skip hactive hrest ih =>
      rw [List.cons_append, result_placeAll_cons]
      exact bind_eq_error_iff.mpr (.inr ⟨false, hactive, ih (by simp) (by simpa using hstops)⟩)
    | place hactive hd hp hrest ih =>
      rw [List.cons_append, result_placeAll_cons]
      refine bind_eq_error_iff.mpr (.inr ⟨true, hactive, ?_⟩)
      refine bind_eq_error_iff.mpr (.inr ⟨_, hd, ?_⟩)
      have hplace := (result_place_eq_ok_iff (Step.workingTime_nonneg haddition hd)).mpr hp
      refine bind_eq_error_iff.mpr (.inr ⟨_, hplace, ?_⟩)
      exact bind_eq_error_iff.mpr (.inl (ih (by simp) (by simpa using hstops)))

/-- Scheduling fails with the first fault of the request, or else with what stops the run over its steps. -/
theorem result_schedule_eq_error_iff {r : ScheduleRequest} :
    (s.schedule r).result = .error e ↔ r.check = .error e ∨ ∃ c : Chain, r.check = .ok c ∧
      s.StopsWithin (.proper c.quantity) (some c.trailingOffset) c.steps.reverse c.completion e := by
  rw [schedule, Logged.result_bind, Logged.result_lift, bind_eq_error_iff]
  refine or_congr_right (exists_congr fun c => and_congr_right fun hcheck => ?_)
  have haddition : ∀ extra ∈ some c.trailingOffset, 0 ≤ extra.micros := by
    rintro extra ⟨⟩
    exact (ScheduleRequest.check_eq_ok_iff.mp hcheck).2.offset_nonneg
  rw [scheduleChain, Logged.result_bind, bind_eq_error_iff, result_placeAll_eq_error_iff haddition]
  refine or_iff_left ?_
  rintro ⟨_, -, h⟩
  cases h

end Scheduler

end SupplyPlan
