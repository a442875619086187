import SupplyPlan.Proofs.Calendar.Monotone
import SupplyPlan.Proofs.Schedule.Fallback
import SupplyPlan.Proofs.Schedule.Work

namespace SupplyPlan

/-- The first number is the second one, or it is less or equal in value. -/
def Quantity.AtMost (p q : Quantity) : Prop := p = q ∨ p.lt q = true ∨ p.same q = true

/-- Estimates that are durations are not negative, and they never decrease with the number of units. -/
structure Step.IsMonotone (step : Step) : Prop where
  nonneg : ∀ (q : Quantity) (d : Duration), q.isNegative = false → step.estimate (.proper q) = .ok (.proper d) →
    0 ≤ d.micros
  mono : ∀ (p q : Quantity) (d e : Duration), p.isNegative = false → p.AtMost q →
    step.estimate (.proper p) = .ok (.proper d) → step.estimate (.proper q) = .ok (.proper e) → d.micros ≤ e.micros

/-- Every step of the chain has an estimate for its number of units. -/
def Chain.IsEstimated (c : Chain) : Prop :=
  ∀ step ∈ c.steps, ∃ d : Duration, step.estimate (.proper c.quantity) = .ok (.proper d)

namespace Scheduler

variable {reg : CalendarRegistry} {fallback : WorkingTime} {step : Step} {calendar : WorkingCalendar}

theorem canPlace_of_isSteady (hresolve : reg.resolve step.calendar = .ok calendar) (hsteady : calendar.IsSteady) :
    CanPlace { calendars := reg.subtract, fallback } step := by
  intro finish d hd
  have hanswer := hsteady.subtract_proceeds finish hd
  rw [← CalendarRegistry.subtract_of_resolve hresolve] at hanswer
  rw [result_place_of_available hanswer.not_isUnavailable]
  exact hanswer.bind fun start hstart => .ok hstart

/-- A valid chain of active steps on steady calendars is scheduled, unless a range is left or its aware completion meets
shifts. The fallback is never asked. -/
theorem result_scheduleChain_proceeds_of_isSteady {c : Chain} (hvalid : c.IsValid) (hestimated : c.IsEstimated)
    (hactive : ∀ step ∈ c.steps, ∀ cursor, step.isActive cursor = .ok true)
    (hmonotone : ∀ step ∈ c.steps, step.IsMonotone)
    (hcalendars : ∀ step ∈ c.steps, ∃ calendar, reg.resolve step.calendar = .ok calendar ∧ calendar.IsSteady) :
    Proceeds c.completion (fun _ => True) (scheduleChain { calendars := reg.subtract, fallback } c).result := by
  refine result_scheduleChain_proceeds_of_canPlace ?_ ?_ hvalid.offset_nonneg
  · intro step hstep
    obtain ⟨calendar, hresolve, hsteady⟩ := hcalendars step hstep
    exact canPlace_of_isSteady hresolve hsteady
  · intro step hstep
    obtain ⟨d, hestimate⟩ := hestimated step hstep
    have hnonneg := (hmonotone step hstep).nonneg c.quantity d hvalid.quantity_nonneg hestimate
    exact ⟨fun cursor _ => ⟨true, hactive step hstep cursor⟩, d, hestimate, hnonneg⟩

/-- An active step on a steady calendar has as its entry the start that this calendar answers with. -/
theorem Visit.exists_subtract {sch : Schedule} {quantity : Amount} {addition : Option Duration}
    {cursor next : Instant} (hnodup : (sch.placements.map (·.step)).Nodup)
    (hvisit : Visit { calendars := reg.subtract, fallback } quantity sch.placements addition step cursor next)
    (hactive : step.isActive cursor = .ok true) (haddition : ∀ extra ∈ addition, 0 ≤ extra.micros)
    (hresolve : reg.resolve step.calendar = .ok calendar) (hsteady : calendar.IsSteady) :
    sch.start? step.id = some next ∧ ∃ estimate d : Duration, step.estimate quantity = .ok (.proper estimate) ∧
      d.micros = estimate.micros + addition.elim 0 (·.micros) ∧ 0 ≤ d.micros ∧
      calendar.subtract cursor d = .ok next := by
  rcases hvisit.entry_cases hnodup with ⟨hinactive, _, _⟩ | ⟨_, hentry, d, p, hd, hp, _, rfl⟩
  · rw [hactive] at hinactive
    cases hinactive
  · have hnonneg := Step.workingTime_nonneg haddition hd
    obtain ⟨estimate, hestimate, _, hmicros⟩ := Step.workingTime_eq_ok_iff.mp hd
    refine ⟨hentry, estimate, d, hestimate, hmicros, hnonneg, ?_⟩
    have havailable := (hsteady.subtract_proceeds cursor hnonneg).not_isUnavailable
    rw [← CalendarRegistry.subtract_of_resolve hresolve] at havailable ⊢
    cases hp with
    | own hown => exact hown
    | fallback hown _ => exact absurd hown havailable

/-- Two visits of a step for numbers of units that do not decrease: from cursors in order they lead to starts in order,
if the second one adds no less time and has the calendar of the first one, some dates perhaps taken out of it. -/
theorem Visit.notAfter {reg' : CalendarRegistry} {fallback' : WorkingTime} {sch sch' : Schedule} {p q : Quantity}
    {addition addition' : Option Duration} {cursor cursor' next next' : Instant}
    (hvisit : Visit { calendars := reg.subtract, fallback } (.proper p) sch.placements addition step cursor next)
    (hvisit' : Visit { calendars := reg'.subtract, fallback := fallback' } (.proper q) sch'.placements addition' step
      cursor' next')
    (hnodup : (sch.placements.map (·.step)).Nodup) (hnodup' : (sch'.placements.map (·.step)).Nodup)
    (hactive : ∀ cursor, step.isActive cursor = .ok true) (haddition : ∀ extra ∈ addition, 0 ≤ extra.micros)
    (haddition' : ∀ extra ∈ addition', 0 ≤ extra.micros)
    (hadditions : addition.elim 0 (·.micros) ≤ addition'.elim 0 (·.micros)) (hmonotone : step.IsMonotone)
    (hp : p.isNegative = false) (hquantity : p.AtMost q)
    (hcalendars : ∃ calendar rested : WorkingCalendar, reg.resolve step.calendar = .ok calendar ∧
      reg'.resolve step.calendar = .ok rested ∧ calendar.IsSteady ∧ rested.IsSteady ∧ calendar.AddsDaysOff rested)
    (hcursor : cursor'.NotAfter cursor) :
    sch.start? step.id = some next ∧ sch'.start? step.id = some next' ∧ next'.NotAfter next := by
  obtain ⟨calendar, rested, hresolve, hresolve', hsteady, hsteady', hdaysOff⟩ := hcalendars
  obtain ⟨hentry, estimate, d, hestimate, hd, hnonneg, hstart⟩ :=
    hvisit.exists_subtract hnodup (hactive cursor) haddition hresolve hsteady
  obtain ⟨hentry', estimate', d', hestimate', hd', _, hstart'⟩ :=
    hvisit'.exists_subtract hnodup' (hactive cursor') haddition' hresolve' hsteady'
  have hestimates := hmonotone.mono _ _ _ _ hp hquantity hestimate hestimate'
  have hle : d.micros ≤ d'.micros := by
    rw [hd, hd']
    exact Int.add_le_add hestimates hadditions
  exact ⟨hentry, hentry', hdaysOff.subtract_notAfter hsteady hsteady' hcursor hnonneg hle hstart hstart'⟩

end Scheduler

/-- Schedules are monotone. Take two requests for the same steps, which are always active, with estimates that do not
decrease, on calendars without breaks or with shifts as dense as their search needs. Let the second request have to be
complete no later, be for no fewer units and have no smaller offset, and let its calendars be those of the first one,
some dates perhaps taken out of them. Each request is scheduled if its steps have estimates, unless a range is left or
its aware completion meets shifts; and no step starts later in the second schedule than in the first. -/
theorem schedule_isMonotone {reg reg' : CalendarRegistry} {fallback fallback' : WorkingTime}
    {r r' : ScheduleRequest} {c c' : Chain} (hcheck : r.check = .ok c) (hcheck' : r'.check = .ok c')
    (hsteps : c'.steps = c.steps) (hactive : ∀ step ∈ c.steps, ∀ cursor, step.isActive cursor = .ok true)
    (hmonotone : ∀ step ∈ c.steps, step.IsMonotone)
    (hcalendars : ∀ step ∈ c.steps, ∃ calendar rested : WorkingCalendar,
      reg.resolve step.calendar = .ok calendar ∧ reg'.resolve step.calendar = .ok rested ∧
        calendar.IsSteady ∧ rested.IsSteady ∧ calendar.AddsDaysOff rested)
    (hcompletion : c'.completion.NotAfter c.completion) (hquantity : c.quantity.AtMost c'.quantity)
    (hoffset : c.trailingOffset.micros ≤ c'.trailingOffset.micros) :
    (c.IsEstimated → Proceeds c.completion (fun _ => True)
      (Scheduler.schedule { calendars := reg.subtract, fallback } r).result) ∧
    (c'.IsEstimated → Proceeds c'.completion (fun _ => True)
      (Scheduler.schedule { calendars := reg'.subtract, fallback := fallback' } r').result) ∧
    ∀ sch sch', (Scheduler.schedule { calendars := reg.subtract, fallback } r).result = .ok sch →
      (Scheduler.schedule { calendars := reg'.subtract, fallback := fallback' } r').result = .ok sch' →
      (∀ step ∈ c.steps, ∃ start start', sch.start? step.id = some start ∧ sch'.start? step.id = some start' ∧
        start'.NotAfter start) ∧ sch'.start.NotAfter sch.start := by
  obtain ⟨_, hvalid⟩ := ScheduleRequest.check_eq_ok_iff.mp hcheck
  obtain ⟨_, hvalid'⟩ := ScheduleRequest.check_eq_ok_iff.mp hcheck'
  rw [Scheduler.result_schedule_of_check hcheck, Scheduler.result_schedule_of_check hcheck']
  refine ⟨fun hestimated => ?_, fun hestimated => ?_, fun sch sch' hok hok' => ?_⟩
  · refine Scheduler.result_scheduleChain_proceeds_of_isSteady hvalid hestimated hactive hmonotone ?_
    intro step hstep
    obtain ⟨calendar, _, hresolve, _, hsteady, _⟩ := hcalendars step hstep
    exact ⟨calendar, hresolve, hsteady⟩
  · rw [← hsteps] at hactive hmonotone hcalendars
    refine Scheduler.result_scheduleChain_proceeds_of_isSteady hvalid' hestimated hactive hmonotone ?_
    intro step hstep
    obtain ⟨_, rested, _, hresolve', _, hsteady', _⟩ := hcalendars step hstep
    exact ⟨rested, hresolve', hsteady'⟩
  · obtain ⟨_, hrun⟩ := (Scheduler.result_scheduleChain_eq_ok_iff hvalid.offset_nonneg).mp hok
    obtain ⟨_, hrun'⟩ := (Scheduler.result_scheduleChain_eq_ok_iff hvalid'.offset_nonneg).mp hok'
    obtain ⟨hnodup, cursors, hbegin, hend, hvisits⟩ := hrun.exists_visits hvalid
    obtain ⟨hnodup', cursors', hbegin', hend', hvisits'⟩ := hrun'.exists_visits hvalid'
    rw [hsteps] at hend' hvisits'
    have hadditions (j : Nat) : (if j = 0 then some c.trailingOffset else none).elim 0 (·.micros) ≤
        (if j = 0 then some c'.trailingOffset else none).elim 0 (·.micros) := by
      split
      · exact hoffset
      · exact le_rfl
    -- One visit keeps the order of the two cursors, and by induction all visits do.
    have hvisit (j : Nat) (step : Step) (hstep : c.steps.reverse[j]? = some step)
        (hcursor : (cursors' j).NotAfter (cursors j)) :
        sch.start? step.id = some (cursors (j + 1)) ∧ sch'.start? step.id = some (cursors' (j + 1)) ∧
          (cursors' (j + 1)).NotAfter (cursors (j + 1)) := by
      have hmem : step ∈ c.steps := List.mem_reverse.mp (List.mem_of_getElem? hstep)
      exact (hvisits j step hstep).notAfter (hvisits' j step hstep) hnodup hnodup' (hactive step hmem)
        (hvalid.addition_nonneg j) (hvalid'.addition_nonneg j) (hadditions j) (hmonotone step hmem)
        hvalid.quantity_nonneg hquantity (hcalendars step hmem) hcursor
    have hcursors (j : Nat) (hj : j ≤ c.steps.length) : (cursors' j).NotAfter (cursors j) := by
      induction j with
      | zero => rwa [hbegin, hbegin']
      | succ j ih =>
        have hlt : j < c.steps.reverse.length := by
          rw [List.length_reverse]
          exact hj
        exact (hvisit j _ (List.getElem?_eq_getElem hlt) (ih (Nat.le_of_succ_le hj))).2.2
    refine ⟨fun step hstep => ?_, ?_⟩
    · obtain ⟨j, hj⟩ := List.mem_iff_getElem?.mp (List.mem_reverse.mpr hstep)
      obtain ⟨hlt, _⟩ := List.getElem?_eq_some_iff.mp hj
      rw [List.length_reverse] at hlt
      exact ⟨_, _, hvisit j step hj (hcursors j hlt.le)⟩
    · rw [← hend, ← hend']
      exact hcursors c.steps.length le_rfl

/-- An hour for every unit; only whole units are estimated. -/
def Step.hourly (id ref : Text) : Step where
  id := some id
  estimate
    | .proper (.int n) => .proper <$> Duration.ofMicros (n * 3600000000)
    | _ => .error .typeMismatch
  calendar := some ref
  isActive := fun _ => .ok true

theorem Quantity.le_of_atMost_int {m n : Int} (h : (int m).AtMost (.int n)) : m ≤ n := by
  rcases h with heq | hlt | hsame
  · obtain rfl := Quantity.int.inj heq
    exact le_rfl
  · rw [lt_int, decide_eq_true_eq] at hlt
    exact hlt.le
  · have hscale (k : Int) : k * Int.pow 2 0 = k := Int.mul_one k
    change decide (m * Int.pow 2 0 = n * Int.pow 2 0) = true at hsame
    rw [hscale, hscale, decide_eq_true_eq] at hsame
    exact hsame.le

theorem Step.hourly_estimate_eq_ok {id ref : Text} {q : Quantity} {d : Duration}
    (h : (hourly id ref).estimate (.proper q) = .ok (.proper d)) :
    ∃ n : Int, q = .int n ∧ d.micros = n * 3600000000 := by
  cases q with
  | float x => cases h
  | int n =>
    obtain ⟨d', hd', heq⟩ := map_eq_ok_iff.mp h
    cases heq
    exact ⟨n, rfl, Duration.ofMicros_eq_ok_iff.mp hd'⟩

theorem Step.hourly_isMonotone (id ref : Text) : (hourly id ref).IsMonotone where
  nonneg q d hq h := by
    obtain ⟨n, rfl, hd⟩ := hourly_estimate_eq_ok h
    rw [Quantity.isNegative, Quantity.lt_int, decide_eq_false_iff_not] at hq
    omega
  mono p q d e _ hle hd he := by
    obtain ⟨m, rfl, hd⟩ := hourly_estimate_eq_ok hd
    obtain ⟨n, rfl, he⟩ := hourly_estimate_eq_ok he
    have hunits := Quantity.le_of_atMost_int hle
    omega

/-- No shift begins on one more day; the night shift before it runs into that day. -/
def ShiftClock.aroundTheClockBut (day : Date) : ShiftClock :=
  { aroundTheClock with
    calendar := aroundTheClock.calendar.addNonWorkingDay day
    hasShifts := aroundTheClock.hasShifts }

/-- Two free dates are not next to each other, so the shifts are still dense enough. -/
theorem ShiftClock.aroundTheClockBut_hasShiftWithin :
    (aroundTheClockBut ⟨738599, by decide⟩).calendar.HasShiftWithin 2 := by
  have hcarries (day : Int) (hsunday : day ≠ 738597) (htuesday : day ≠ 738599) :
      (aroundTheClockBut ⟨738599, by decide⟩).calendar.CarriesShift day := by
    refine ⟨?_, .early, by simp [aroundTheClockBut, aroundTheClock, ShiftCalendar.addNonWorkingDay], ?_⟩
    · have hdays : (aroundTheClockBut ⟨738599, by decide⟩).calendar.nonWorkingDays.map (·.day) = [738597, 738599] := rfl
      simp only [ShiftCalendar.isWorkingDay, Bool.not_eq_true', List.any_eq_false, decide_eq_true_eq]
      intro d hd hday
      have hmem := List.mem_map_of_mem (f := Date.day) hd
      rw [hdays, hday] at hmem
      simp [hsunday, htuesday] at hmem
    · simp only [Shift.early, weekdayOf, List.mem_cons, List.not_mem_nil, or_false]
      omega
  intro first _ _
  by_cases hfree : first = 738597 ∨ first = 738599
  · exact ⟨first + 1, by omega, by omega, hcarries _ (by omega) (by omega)⟩
  · exact ⟨first, le_rfl, by omega, hcarries _ (by omega) (by omega)⟩

/-- A registry of time without breaks and one hall. -/
def CalendarRegistry.withHall (clock : ShiftClock) : CalendarRegistry where
  stored := .memory .empty
  bound := [("hall", .shifts clock), (continuousId, continuousTime)]
  lookback := .proper (.int defaultLookback)

/-- What is cut in the hall dries for as long as the cutting took. -/
def Chain.cutAndDry (completion : Instant) (units : Int) (trailingOffset : Duration) : Chain where
  steps := [.hourly "cut" "hall", .hourly "dry" continuousId]
  completion
  quantity := .int units
  trailingOffset

theorem Chain.cutAndDry_isValid {completion : Instant} {units : Int} {trailingOffset : Duration}
    (hunits : (Quantity.int units).isNegative = false) (hoffset : 0 ≤ trailingOffset.micros) :
    (cutAndDry completion units trailingOffset).IsValid where
  quantity_nonneg := hunits
  offset_nonneg := hoffset
  ids_nodup := by
    change [some ("cut" : Text), some "dry"].Nodup
    decide

/-- The schedule of such a chain. -/
def Schedule.cutAndDry (completion dried cut : Instant) : Schedule where
  completion
  start := cut
  placements := [⟨some "dry", dried, false⟩, ⟨some "cut", cut, false⟩]

/-- An hour earlier, one unit more, an hour on top and no early shift on Tuesday: cutting moves from the morning into
the night. -/
theorem schedule_isMonotone_cutAndDry :
    (Scheduler.schedule
        { calendars := (CalendarRegistry.withHall .aroundTheClock).subtract, fallback := continuousTime.subtract }
        (Chain.cutAndDry (.onTuesday 13) 2 .zero).request).result =
        .ok (.cutAndDry (.onTuesday 13) (.onTuesday 11) (.onTuesday 9)) ∧
      (Scheduler.schedule
        { calendars := (CalendarRegistry.withHall (.aroundTheClockBut ⟨738599, by decide⟩)).subtract
          fallback := continuousTime.subtract }
        (Chain.cutAndDry (.onTuesday 12) 3 (.minutes 60 (by decide))).request).result =
        .ok (.cutAndDry (.onTuesday 12) (.onTuesday 8) (.onTuesday 4)) ∧
      (Instant.onTuesday 8).NotAfter (.onTuesday 11) ∧ (Instant.onTuesday 4).NotAfter (.onTuesday 9) := by
  have hvalid : (Chain.cutAndDry (.onTuesday 13) 2 .zero).IsValid := Chain.cutAndDry_isValid (by decide) (by decide)
  have hvalid' : (Chain.cutAndDry (.onTuesday 12) 3 (.minutes 60 (by decide))).IsValid :=
    Chain.cutAndDry_isValid (by decide) (by decide)
  have hdry : continuousTime.subtract (.onTuesday 13) (.minutes 120 (by decide)) = .ok (.onTuesday 11) :=
    (WorkingCalendar.subtract_continuous (by decide)).trans (Instant.ofMicros_eq_ok_iff.mpr ⟨by decide, rfl⟩)
  have hdry' : continuousTime.subtract (.onTuesday 12) (.minutes 240 (by decide)) = .ok (.onTuesday 8) :=
    (WorkingCalendar.subtract_continuous (by decide)).trans (Instant.ofMicros_eq_ok_iff.mpr ⟨by decide, rfl⟩)
  have hcut : (WorkingCalendar.shifts .aroundTheClock).subtract (.onTuesday 11) (.minutes 120 (by decide)) =
      .ok (.onTuesday 9) := by
    have hearly : ShiftClock.aroundTheClock.calendar.latestWindow false (738599 * dayMicros + 39600000000)
        ShiftClock.aroundTheClock.lookback.toNat =
          .ok (some ⟨738599 * dayMicros + 18000000000, 738599 * dayMicros + 39600000000, by decide⟩) := rfl
    rw [WorkingCalendar.subtract_shifts (by decide)]
    change ShiftClock.walk _ none (738599 * dayMicros + 39600000000) 7200000000 = _
    rw [ShiftClock.walk_of_some none (by decide) hearly, ShiftClock.walk_of_nonpos none (by decide)]
    rfl
  have hcut' : (WorkingCalendar.shifts (.aroundTheClockBut ⟨738599, by decide⟩)).subtract (.onTuesday 8)
      (.minutes 180 (by decide)) = .ok (.onTuesday 4) := by
    have hnight : (ShiftClock.aroundTheClockBut ⟨738599, by decide⟩).calendar.latestWindow false
        (738599 * dayMicros + 28800000000) (ShiftClock.aroundTheClockBut ⟨738599, by decide⟩).lookback.toNat =
          .ok (some ⟨738598 * dayMicros + 75600000000, 738599 * dayMicros + 25200000000, by decide⟩) := rfl
    rw [WorkingCalendar.subtract_shifts (by decide)]
    change ShiftClock.walk _ none (738599 * dayMicros + 28800000000) 10800000000 = _
    rw [ShiftClock.walk_of_some none (by decide) hnight, ShiftClock.walk_of_nonpos none (by decide)]
    rfl
  have hresult : (Scheduler.schedule
      { calendars := (CalendarRegistry.withHall .aroundTheClock).subtract, fallback := continuousTime.subtract }
      (Chain.cutAndDry (.onTuesday 13) 2 .zero).request).result =
        .ok (.cutAndDry (.onTuesday 13) (.onTuesday 11) (.onTuesday 9)) :=
    Scheduler.result_schedule_eq_ok_iff.mpr
      ⟨_, rfl, hvalid, rfl, .place rfl rfl (.own hdry) (.place rfl rfl (.own hcut) (.nil _ _))⟩
  have hresult' : (Scheduler.schedule
      { calendars := (CalendarRegistry.withHall (.aroundTheClockBut ⟨738599, by decide⟩)).subtract
        fallback := continuousTime.subtract }
      (Chain.cutAndDry (.onTuesday 12) 3 (.minutes 60 (by decide))).request).result =
        .ok (.cutAndDry (.onTuesday 12) (.onTuesday 8) (.onTuesday 4)) :=
    Scheduler.result_schedule_eq_ok_iff.mpr
      ⟨_, rfl, hvalid', rfl, .place rfl rfl (.own hdry') (.place rfl rfl (.own hcut') (.nil _ _))⟩
  have hcalendars : ∀ step ∈ [Step.hourly "cut" "hall", Step.hourly "dry" continuousId],
      ∃ calendar rested : WorkingCalendar,
        (CalendarRegistry.withHall .aroundTheClock).resolve step.calendar = .ok calendar ∧
          (CalendarRegistry.withHall (.aroundTheClockBut ⟨738599, by decide⟩)).resolve step.calendar = .ok rested ∧
          calendar.IsSteady ∧ rested.IsSteady ∧ calendar.AddsDaysOff rested := by
    simp only [List.forall_mem_cons, List.not_mem_nil, false_imp_iff, implies_true, and_true]
    exact ⟨⟨.shifts .aroundTheClock, .shifts (.aroundTheClockBut ⟨738599, by decide⟩), rfl, rfl,
        ShiftClock.aroundTheClock_hasShiftWithin, ShiftClock.aroundTheClockBut_hasShiftWithin,
        .shifts [⟨738599, by decide⟩] rfl⟩,
      ⟨continuousTime, continuousTime, rfl, rfl, trivial, trivial, .continuous _⟩⟩
  have hmonotone : ∀ step ∈ [Step.hourly "cut" "hall", Step.hourly "dry" continuousId], step.IsMonotone := by
    simp only [List.forall_mem_cons, List.not_mem_nil, false_imp_iff, implies_true, and_true]
    exact ⟨Step.hourly_isMonotone _ _, Step.hourly_isMonotone _ _⟩
  have hactive : ∀ step ∈ [Step.hourly "cut" "hall", Step.hourly "dry" continuousId],
      ∀ cursor, step.isActive cursor = .ok true := by
    simp [Step.hourly]
  have hstarts := (schedule_isMonotone (ScheduleRequest.check_eq_ok_iff.mpr ⟨rfl, hvalid⟩)
    (ScheduleRequest.check_eq_ok_iff.mpr ⟨rfl, hvalid'⟩) rfl hactive hmonotone hcalendars (by decide)
    (.inr (.inl (by decide))) (by decide)).2.2 _ _ hresult hresult'
  refine ⟨hresult, hresult', ?_, hstarts.2⟩
  obtain ⟨start, start', hstart, hstart', hle⟩ := hstarts.1 (.hourly "dry" continuousId) (by simp [Chain.cutAndDry])
  cases hstart
  cases hstart'
  exact hle

end SupplyPlan
