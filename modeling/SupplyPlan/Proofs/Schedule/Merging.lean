import SupplyPlan.Proofs.Calendar.Elapsed
import SupplyPlan.Proofs.Schedule.Fallback
import SupplyPlan.Proofs.Schedule.Work

namespace SupplyPlan

namespace WorkingCalendar

variable {calendar : WorkingCalendar} {finish start : Instant} {done : Int}

/-- One piece of work of the given length that has to end at `finish` starts at `start`, if it can be asked for and does
not leave the range of dates. -/
structure LeadsTo (calendar : WorkingCalendar) (finish : Instant) (done : Int) (start : Instant) : Prop where
  done_nonneg : 0 ≤ done
  subtract_eq : ∀ total : Duration, total.micros = done →
    calendar.subtract finish total = .error .outOfRange ∨ calendar.subtract finish total = .ok start

theorem LeadsTo.refl (hplain : calendar.IsPlain) (finish : Instant) : calendar.LeadsTo finish 0 finish where
  done_nonneg := le_rfl
  subtract_eq _ htotal := .inr (hplain.subtract_of_eq_zero htotal finish)

/-- Work can be put before work that has been placed, as if both had been one from the beginning. -/
theorem LeadsTo.extend (hplain : calendar.IsPlain) {middle : Instant} {d : Duration} (hd : 0 ≤ d.micros)
    (h : calendar.LeadsTo finish done middle) (hstart : calendar.subtract middle d = .ok start) :
    calendar.LeadsTo finish (done + d.micros) start := by
  have hdone := h.done_nonneg
  refine ⟨by omega, fun total htotal => ?_⟩
  have hrange : -999999999 * dayMicros ≤ done ∧ done < 1000000000 * dayMicros := by
    have htotalRange := total.inRange
    unfold dayMicros at *
    omega
  let part : Duration := ⟨done, hrange⟩
  have hpart : part.micros = done := rfl
  rcases h.subtract_eq part hpart with hout | hmiddle
  · exact .inl (hplain.subtract_eq_outOfRange_of_le (by omega) (by omega) hout)
  · exact hplain.subtract_add (by omega) hd (by omega) hmiddle hstart

end WorkingCalendar

/-- The placements of a schedule without fallbacks are on the steps' own calendars. -/
theorem Scheduler.Places.own_of_fallbacks_eq_nil {s : Scheduler} {sch : Schedule} (h : sch.fallbacks = []) {step : Step}
    {cursor : Instant} {d : Duration} {p : Placement} (hplaces : s.Places step cursor d p) (hp : p ∈ sch.placements) :
    s.calendars step.calendar cursor d = .ok p.start := by
  cases hplaces with
  | own hown => exact hown
  | fallback hown hfallback =>
    have hreported := Schedule.mem_fallbacks_iff.mpr ⟨_, hp, rfl, rfl⟩
    rw [h] at hreported
    cases hreported

/-- A chain on one calendar is one merged step. Where no step had to leave that calendar, with shifts or without breaks,
the schedule starts where the calendar starts a single piece of work that has to end at the completion and that is as
long as all the scheduled steps together, with the offset if the last step of the chain is scheduled. The chain may
start anew in the middle of a window or at its edge, and steps may be left out or take no time. Only a length or a date
that does not exist is excluded. -/
theorem schedule_mergesSteps {reg : CalendarRegistry} {fallback : WorkingTime} {ref : Option Text}
    {calendar : WorkingCalendar} (hresolve : reg.resolve ref = .ok calendar) (hplain : calendar.IsPlain)
    {r : ScheduleRequest} {c : Chain} (hcheck : r.check = .ok c) (href : ∀ step ∈ c.steps, step.calendar = ref)
    {sch : Schedule} (h : (Scheduler.schedule { calendars := reg.subtract, fallback } r).result = .ok sch)
    (hfallbacks : sch.fallbacks = []) {total : Duration} (htotal : total.micros = c.workIn sch) :
    calendar.subtract c.completion total = .error .outOfRange ∨
      calendar.subtract c.completion total = .ok sch.start := by
  obtain ⟨_, hvalid⟩ := ScheduleRequest.check_eq_ok_iff.mp hcheck
  rw [Scheduler.result_schedule_of_check hcheck] at h
  obtain ⟨_, hrun⟩ := (Scheduler.result_scheduleChain_eq_ok_iff hvalid.offset_nonneg).mp h
  obtain ⟨hnodup, cursors, hbegin, hend, hvisits⟩ := hrun.exists_visits hvalid
  have hleads : calendar.LeadsTo c.completion (c.workIn sch) sch.start := by
    rw [← hend]
    refine Scheduler.Visits.workIn_induction hvalid hvisits hnodup ?_ ?_
    · rw [hbegin]
      exact .refl hplain c.completion
    · intro j step d p done hstep _ hd hplaces hp hdone
      have hown : reg.subtract step.calendar (cursors j) d = .ok p.start :=
        hplaces.own_of_fallbacks_eq_nil hfallbacks hp
      rw [href step (List.mem_reverse.mp (List.mem_of_getElem? hstep)),
        CalendarRegistry.subtract_of_resolve hresolve] at hown
      exact hdone.extend hplain hd hown
  exact hleads.subtract_eq total htotal

/-- A registry that knows one calendar, with shifts around the clock. -/
def CalendarRegistry.hall : CalendarRegistry where
  stored := .memory .empty
  bound := [("hall", .shifts .aroundTheClock)]
  lookback := .proper (.int defaultLookback)

/-- Three steps in one hall, of which the cleaning in the middle does not take place. -/
def Chain.inHall (completion : Instant) : Chain where
  steps :=
    [ { id := some "cut", estimate := fun _ => .ok (.proper (.minutes 240 (by decide)))
        calendar := some "hall", isActive := fun _ => .ok true },
      { id := some "clean", estimate := fun _ => .ok (.proper (.minutes 51 (by decide)))
        calendar := some "hall", isActive := fun _ => .ok false },
      { id := some "bend", estimate := fun _ => .ok (.proper (.minutes 262 (by decide)))
        calendar := some "hall", isActive := fun _ => .ok true } ]
  completion
  quantity := .int 5
  trailingOffset := .minutes 38 (by decide)

/-- The schedule of such a chain. -/
def Schedule.inHall (completion bent cut : Instant) : Schedule where
  completion
  start := cut
  placements := [⟨some "bend", bent, false⟩, ⟨some "cut", cut, false⟩]

/-- The bending takes up the early shift, and the cutting goes on before it at night; the nine hours in one piece cross
the same two shifts. -/
theorem schedule_mergesSteps_inHall :
    (Scheduler.schedule { calendars := CalendarRegistry.hall.subtract, fallback := continuousTime.subtract }
        (Chain.inHall (.onTuesday 10)).request).result =
        .ok (.inHall (.onTuesday 10) (.onTuesday 5) (.onTuesday 1)) ∧
      (Chain.inHall (.onTuesday 10)).workIn (.inHall (.onTuesday 10) (.onTuesday 5) (.onTuesday 1)) =
        9 * 3600000000 ∧
      (WorkingCalendar.shifts .aroundTheClock).subtract (.onTuesday 10) (.minutes 540 (by decide)) =
        .ok (.onTuesday 1) := by
  have hcheck : (Chain.inHall (.onTuesday 10)).request.check = .ok (.inHall (.onTuesday 10)) :=
    ScheduleRequest.check_eq_ok_iff.mpr ⟨rfl, by decide, by decide, by decide⟩
  have hbend : (WorkingCalendar.shifts .aroundTheClock).subtract (.onTuesday 10) (.minutes 300 (by decide)) =
      .ok (.onTuesday 5) := by
    rw [WorkingCalendar.subtract_shifts (by decide)]
    change ShiftClock.walk _ none (738599 * dayMicros + 36000000000) 18000000000 = _
    rw [ShiftClock.walk_of_some none (by decide) ShiftClock.latestWindow_aroundTheClock_early,
      ShiftClock.walk_of_nonpos none (by decide)]
    rfl
  have hcut : (WorkingCalendar.shifts .aroundTheClock).subtract (.onTuesday 5) (.minutes 240 (by decide)) =
      .ok (.onTuesday 1) := by
    rw [WorkingCalendar.subtract_shifts (by decide)]
    change ShiftClock.walk _ none (738599 * dayMicros + 18000000000) 14400000000 = _
    rw [ShiftClock.walk_of_some none (by decide) ShiftClock.latestWindow_aroundTheClock_night,
      ShiftClock.walk_of_nonpos none (by decide)]
    rfl
  have hschedule : (Scheduler.schedule
      { calendars := CalendarRegistry.hall.subtract, fallback := continuousTime.subtract }
      (Chain.inHall (.onTuesday 10)).request).result = .ok (.inHall (.onTuesday 10) (.onTuesday 5) (.onTuesday 1)) := by
    refine Scheduler.result_schedule_eq_ok_iff.mpr ⟨_, rfl, ⟨by decide, by decide, by decide⟩, rfl, ?_⟩
    exact .place rfl rfl (.own hbend) (.skip rfl (.place rfl rfl (.own hcut) (.nil _ _)))
  have hinRange : (WorkingCalendar.shifts .aroundTheClock).subtract (.onTuesday 10) (.minutes 540 (by decide)) ≠
      .error .outOfRange := by
    rw [WorkingCalendar.subtract_shifts (by decide)]
    change ShiftClock.walk _ none (738599 * dayMicros + 36000000000) 32400000000 ≠ _
    rw [ShiftClock.walk_of_some none (by decide) ShiftClock.latestWindow_aroundTheClock_early]
    change ShiftClock.walk _ none (738599 * dayMicros + 18000000000) 14400000000 ≠ _
    rw [ShiftClock.walk_of_some none (by decide) ShiftClock.latestWindow_aroundTheClock_night,
      ShiftClock.walk_of_nonpos none (by decide)]
    exact nofun
  have hwork : (Duration.minutes 540 (by decide)).micros =
      (Chain.inHall (.onTuesday 10)).workIn (.inHall (.onTuesday 10) (.onTuesday 5) (.onTuesday 1)) := by decide
  have hresolve : CalendarRegistry.hall.resolve (some "hall") = .ok (.shifts .aroundTheClock) := rfl
  have href : ∀ step ∈ (Chain.inHall (.onTuesday 10)).steps, step.calendar = some "hall" := by simp [Chain.inHall]
  have hmerged := schedule_mergesSteps hresolve trivial hcheck href hschedule rfl hwork
  exact ⟨hschedule, hwork.symm, hmerged.resolve_left hinRange⟩

end SupplyPlan
