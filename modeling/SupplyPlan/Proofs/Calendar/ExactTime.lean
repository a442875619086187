import SupplyPlan.Proofs.Calendar.Subtraction

namespace SupplyPlan

namespace ShiftCalendar

variable {c : ShiftCalendar} {aware : Bool} {cursor : Int} {lookback : Nat}

/-- Among any so many consecutive dates at least one carries a shift. -/
def HasShiftWithin (c : ShiftCalendar) (dates : Int) : Prop :=
  ∀ first, 0 ≤ first → first + dates ≤ dateCount →
    ∃ day, first ≤ day ∧ day < first + dates ∧ c.CarriesShift day

theorem latestWindow_inRange {found : Option Window} (h : c.latestWindow aware cursor lookback = .ok found) :
    0 ≤ cursor / dayMicros ∧ cursor / dayMicros + 2 < dateCount := by
  unfold latestWindow at h
  rw [latestFrom] at h
  by_cases hout : cursor / dayMicros < 0 ∨ dateCount ≤ cursor / dayMicros + 2
  · rw [if_pos (by simpa using hout)] at h
    cases h
  · omega

/-- The dates that the search covers completely, whatever the time of day, are those after the oldest one and before the
cursor's own. One shift on them outlasts every window beyond the horizon. -/
theorem HasShiftWithin.exists_isCut (hdense : c.HasShiftWithin (lookback - 1)) (cursor : Int)
    (hlow : 0 ≤ cursor / dayMicros - lookback + 1) (hhigh : cursor / dayMicros ≤ dateCount) :
    ∃ w, c.IsCut cursor (cursor / dayMicros - lookback) (cursor / dayMicros) w ∧
      (cursor / dayMicros - lookback + 1) * dayMicros < w.stop := by
  obtain ⟨day, hfirst, hlast, hcarries⟩ := hdense (cursor / dayMicros - lookback + 1) hlow (by omega)
  obtain ⟨v, hv⟩ := carriesShift_iff.mp hcarries
  obtain ⟨hlo, hhi, _⟩ := bounds_of_mem_windowsOn hv
  have hlt := v.start_lt_stop
  have hbefore : v.start < cursor := by
    unfold dayMicros at *
    omega
  refine ⟨⟨v.start, min v.stop cursor, by omega⟩, ⟨⟨day, by omega⟩, ?_, ?_, v, hv, ?_⟩, ?_⟩
  · show _ ≤ day
    omega
  · show day ≤ _
    omega
  · exact Window.before?_eq_some_iff.mpr ⟨hbefore, rfl, rfl⟩
  · show _ < min v.stop cursor
    unfold dayMicros at *
    omega

theorem HasShiftWithin.latestWindow_ne_none (hdense : c.HasShiftWithin (lookback - 1)) :
    c.latestWindow aware cursor lookback ≠ .ok none := by
  intro hnone
  obtain ⟨_, hhigh⟩ := latestWindow_inRange hnone
  have hlow := latestFrom_none hnone (Nat.succ_pos lookback)
  obtain ⟨w, hw, _⟩ := hdense.exists_isCut cursor (by omega) (by omega)
  exact latestWindow_isLatest hnone w hw

/-- No work is missed: from the end of the window that is found to the cursor nothing is covered. -/
theorem HasShiftWithin.not_covers_of_latestWindow (hdense : c.HasShiftWithin (lookback - 1)) {w : Window}
    (h : c.latestWindow aware cursor lookback = .ok (some w)) {t : Int} (hstop : w.stop ≤ t) (hcursor : t < cursor) :
    ¬ c.Covers t := by
  rintro ⟨d, v, hv, hlo, hhi⟩
  obtain ⟨hlowest, _, hhighest⟩ := bounds_of_mem_windowsOn hv
  obtain ⟨_, hhigh⟩ := latestWindow_inRange h
  obtain ⟨_, hlatest⟩ := latestWindow_isLatest h
  have hday := d.inRange
  by_cases hhorizon : cursor / dayMicros - lookback ≤ d.day
  · have hcut := hlatest ⟨v.start, min v.stop cursor, by omega⟩
      ⟨d, hhorizon, by unfold dayMicros at *; omega, v, hv,
        Window.before?_eq_some_iff.mpr ⟨by omega, rfl, rfl⟩⟩
    simp only at hcut
    omega
  · obtain ⟨u, hu, hend⟩ := hdense.exists_isCut cursor (by omega) (by omega)
    have hcut := hlatest u hu
    unfold dayMicros at *
    omega

end ShiftCalendar

/-- A walk that stays within the range of dates ends at the latest start for what remained. The induction is on the
rounds of the walk: each one puts an uninterrupted stretch of work before the rest of it. -/
theorem ShiftClock.walk_isLatestStart {clock : ShiftClock}
    (hdense : clock.calendar.HasShiftWithin (clock.lookback - 1)) (cursor remaining : Int)
    (hremaining : 0 ≤ remaining) :
    clock.walk none cursor remaining = .error .outOfRange ∨
      ∃ start, clock.walk none cursor remaining = .ok start ∧ start.offset = none ∧
        clock.calendar.IsLatestStart cursor remaining start.micros := by
  have hlookback : clock.lookback = clock.lookback.toNat := by
    have hpos := clock.lookback_pos
    omega
  rw [hlookback] at hdense
  fun_induction walk clock none cursor remaining with
  | case1 cursor remaining hpos e hsearch =>
    rcases ShiftCalendar.latestWindow_error hsearch with rfl | ⟨_, haware⟩
    · exact .inl rfl
    · cases haware
  | case2 cursor remaining hpos hsearch => exact absurd hsearch hdense.latestWindow_ne_none
  | case3 cursor remaining hpos w hsearch taken ih =>
    obtain ⟨hstop, hcovers⟩ := ShiftCalendar.covers_of_latestWindow hsearch
    have hwindow := w.start_lt_stop
    have htaken : taken = min (w.stop - w.start) remaining := rfl
    rcases ih (by omega) with hout | ⟨start, hwalk, hnaive, hlatest⟩
    · exact .inl hout
    · refine .inr ⟨start, hwalk, hnaive, hlatest.extend (by omega) hstop ?_ ?_⟩
      · intro t hlo hhi
        exact hcovers t ⟨by omega, hhi⟩
      · intro t hlo hhi
        exact hdense.not_covers_of_latestWindow hsearch hlo hhi
  | case4 cursor remaining hpos =>
    rcases Instant.ofMicros_cases cursor none with hout | ⟨t, ht, hmicros, hoffset⟩
    · exact .inl hout
    · have hzero : remaining = 0 := by omega
      refine .inr ⟨t, ht, hoffset, ?_⟩
      rw [hzero, hmicros]
      exact .refl cursor

/-- The start of a span of work, if it lies within the range of dates, is exact. Between it and the finish lies as much
working time as was asked for; it is covered itself, so that from any later moment on there is less. A calendar that
rests for too long for its horizon is excluded; one that does not is never unavailable, however its shifts overlap,
repeat or run past midnight. -/
theorem subtract_shifts_exact {clock : ShiftClock}
    (hdense : clock.calendar.HasShiftWithin (clock.lookback - 1)) {finish : Instant}
    (hnaive : finish.offset = none) {d : Duration} (hd : 0 ≤ d.micros) :
    (WorkingCalendar.shifts clock).subtract finish d = .error .outOfRange ∨
      ∃ start, (WorkingCalendar.shifts clock).subtract finish d = .ok start ∧ start.offset = none ∧
        start.micros ≤ finish.micros ∧
        clock.calendar.workingTime start.micros finish.micros = d.micros ∧
        (0 < d.micros → clock.calendar.Covers start.micros) ∧
        ∀ later, start.micros < later → later ≤ finish.micros →
          clock.calendar.workingTime later finish.micros < d.micros := by
  rw [WorkingCalendar.subtract_shifts hd, hnaive]
  rcases clock.walk_isLatestStart hdense finish.micros d.micros hd with hout | ⟨start, hwalk, hoffset, hlatest⟩
  · exact .inl hout
  · refine .inr ⟨start, hwalk, hoffset, hlatest.start_le, hlatest.workingTime_eq, hlatest.covers, ?_⟩
    intro later hlater hfinish
    exact hlatest.workingTime_lt hlater hfinish

/-- The full hours of a Tuesday. -/
def Instant.onTuesday (hour : Fin 24) : Instant := .combine ⟨738599, by decide⟩ (.hour hour hour.isLt)

/-- The morning of every day of the week. -/
def Shift.early : Shift where
  name := none
  startTime := .hour 5 (by decide)
  endTime := .hour 13 (by decide)
  weekdays := [0, 1, 2, 3, 4, 5, 6]
  hasWeekday := by decide
  inWeek := by decide
  notEmpty := by decide

/-- The nights after Mondays, Wednesdays and Fridays, which run into the next early shift. -/
def Shift.night : Shift where
  name := none
  startTime := .hour 21 (by decide)
  endTime := .hour 7 (by decide)
  weekdays := [0, 2, 4]
  hasWeekday := by decide
  inWeek := by decide
  notEmpty := by decide

/-- The early shift is listed twice, and a Sunday is free. The search goes back three dates. -/
def ShiftClock.aroundTheClock : ShiftClock where
  calendar := { id := none, name := none, shifts := [.night, .early, .early], nonWorkingDays := [⟨738597, by decide⟩] }
  lookback := 3
  given := .proper (.int 3)
  hasShifts := by decide
  lookback_pos := by decide

namespace ShiftClock

theorem aroundTheClock_hasShiftWithin :
    aroundTheClock.calendar.HasShiftWithin (aroundTheClock.lookback - 1) := by
  have hcarries (day : Int) (hfree : day ≠ 738597) : aroundTheClock.calendar.CarriesShift day := by
    refine ⟨?_, .early, by simp [aroundTheClock], ?_⟩
    · simp only [ShiftCalendar.isWorkingDay, aroundTheClock, List.any_cons, List.any_nil, Bool.or_false]
      simpa using Ne.symm hfree
    · simp only [Shift.early, weekdayOf, List.mem_cons, List.not_mem_nil, or_false]
      omega
  intro first _ _
  have hhorizon : aroundTheClock.lookback - 1 = 2 := rfl
  by_cases hfree : first = 738597
  · exact ⟨first + 1, by omega, by omega, hcarries _ (by omega)⟩
  · exact ⟨first, le_rfl, by omega, hcarries _ hfree⟩

/-- On a Tuesday at ten the early shift has been under way for five hours. -/
theorem latestWindow_aroundTheClock_early :
    aroundTheClock.calendar.latestWindow false (738599 * dayMicros + 36000000000) aroundTheClock.lookback.toNat =
      .ok (some ⟨738599 * dayMicros + 18000000000, 738599 * dayMicros + 36000000000, by decide⟩) := rfl

/-- Before that shift came the night shift from Monday, up to where the early one took over. -/
theorem latestWindow_aroundTheClock_night :
    aroundTheClock.calendar.latestWindow false (738599 * dayMicros + 18000000000) aroundTheClock.lookback.toNat =
      .ok (some ⟨738598 * dayMicros + 75600000000, 738599 * dayMicros + 18000000000, by decide⟩) := rfl

/-- Ten hours of work take up one shift and half of the other. -/
theorem subtract_aroundTheClock :
    (WorkingCalendar.shifts aroundTheClock).subtract (.onTuesday 10) (.minutes 600 (by decide)) =
      .ok (.onTuesday 0) := by
  rw [WorkingCalendar.subtract_shifts (by decide)]
  change aroundTheClock.walk none (738599 * dayMicros + 36000000000) 36000000000 = _
  rw [walk_of_some none (by decide) latestWindow_aroundTheClock_early]
  change aroundTheClock.walk none (738599 * dayMicros + 18000000000) 18000000000 = _
  rw [walk_of_some none (by decide) latestWindow_aroundTheClock_night, walk_of_nonpos none (by decide)]
  rfl

end ShiftClock

/-- Ten hours before a Tuesday at ten the night shift from Monday is under way: the two hours from five to seven, which
lie in two shifts, count once. -/
theorem subtract_shifts_exact_overnight :
    ShiftClock.aroundTheClock.calendar.HasShiftWithin (ShiftClock.aroundTheClock.lookback - 1) ∧
      ∃ start,
        (WorkingCalendar.shifts .aroundTheClock).subtract (.onTuesday 10) (.minutes 600 (by decide)) = .ok start ∧
        start = .onTuesday 0 ∧
        ShiftClock.aroundTheClock.calendar.workingTime start.micros (Instant.onTuesday 10).micros = 36000000000 ∧
        ShiftClock.aroundTheClock.calendar.Covers start.micros := by
  have hdense := ShiftClock.aroundTheClock_hasShiftWithin
  have hstart := ShiftClock.subtract_aroundTheClock
  refine ⟨hdense, ?_⟩
  have hnaive : (Instant.onTuesday 10).offset = none := rfl
  have hlength : 0 ≤ (Duration.minutes 600 (by decide)).micros := by decide
  rcases subtract_shifts_exact hdense hnaive hlength with hout | ⟨start, hok, _, _, htime, hcovers, _⟩
  · rw [hstart] at hout
    cases hout
  · refine ⟨start, hok, ?_, htime, hcovers (by decide)⟩
    rw [hstart] at hok
    exact (Except.ok.inj hok).symm

end SupplyPlan
