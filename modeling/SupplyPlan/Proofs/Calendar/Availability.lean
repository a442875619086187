import SupplyPlan.Proofs.Calendar.Horizon

namespace SupplyPlan

namespace ShiftCalendar

variable {c : ShiftCalendar} {aware : Bool} {cursor : Int} {lookback : Nat}

/-- Nobody works from one moment to another. -/
def IsFree (c : ShiftCalendar) (start stop : Int) : Prop := ∀ t, start ≤ t → t < stop → ¬ c.Covers t

/-- A search that finds nothing has seen each window that starts on its dates and before the cursor. -/
theorem day_lt_of_latestWindow_none (h : c.latestWindow aware cursor lookback = .ok none) {d : Date} {w : Window}
    (hw : w ∈ c.windowsOn d.day) (hstart : w.start < cursor) : d.day < cursor / dayMicros - lookback := by
  by_contra hseen
  obtain ⟨hlow, _, _⟩ := bounds_of_mem_windowsOn hw
  have hlast : d.day ≤ cursor / dayMicros := by
    unfold dayMicros at *
    omega
  have hlt := w.start_lt_stop
  exact latestWindow_isLatest h ⟨w.start, min w.stop cursor, by omega⟩
    ⟨d, not_lt.mp hseen, hlast, w, hw, Window.before?_eq_some_iff.mpr ⟨hstart, rfl, rfl⟩⟩

/-- So there is no work from the second of its dates on, because no window of an earlier one lasts that long. -/
theorem isFree_of_latestWindow_none (h : c.latestWindow aware cursor lookback = .ok none) :
    c.IsFree ((cursor / dayMicros - lookback + 1) * dayMicros) cursor := by
  rintro t hlo hhi ⟨d, w, hw, hstart, hstop⟩
  have hbeyond := day_lt_of_latestWindow_none h hw (by omega)
  obtain ⟨_, _, hend⟩ := bounds_of_mem_windowsOn hw
  unfold dayMicros at *
  omega

/-- On the first of its dates there may be: a window that starts on the date before can last beyond the cursor's time of
day. -/
theorem isFree_iff_of_latestWindow_none (hlookback : 1 ≤ lookback)
    (h : c.latestWindow aware cursor lookback = .ok none) :
    c.IsFree (cursor - lookback * dayMicros) cursor ↔
      ∀ d : Date, d.day = cursor / dayMicros - lookback - 1 →
        ∀ w ∈ c.windowsOn d.day, w.stop ≤ cursor - lookback * dayMicros := by
  constructor
  · intro hfree d hday w hw
    by_contra hlong
    obtain ⟨_, hstart, _⟩ := bounds_of_mem_windowsOn hw
    refine hfree (cursor - lookback * dayMicros) le_rfl ?_ ⟨d, w, hw, ?_, not_le.mp hlong⟩
    · unfold dayMicros
      omega
    · unfold dayMicros at *
      omega
  · rintro hends t hlo hhi ⟨d, w, hw, hstart, hstop⟩
    have hbeyond := day_lt_of_latestWindow_none h hw (by omega)
    obtain ⟨_, _, hend⟩ := bounds_of_mem_windowsOn hw
    have hday : d.day = cursor / dayMicros - lookback - 1 := by
      unfold dayMicros at *
      omega
    have hle := hends d hday w hw
    omega

/-- A shift that does not run past midnight leaves nothing to the next date. -/
theorem stop_le_of_sameDay (hshifts : ∀ s ∈ c.shifts, s.startTime.micros < s.endTime.micros) {day : Int} {w : Window}
    (hw : w ∈ c.windowsOn day) : w.stop ≤ (day + 1) * dayMicros := by
  obtain ⟨_, s, hs, _, rfl⟩ := mem_windowsOn.mp hw
  have htimes := hshifts s hs
  have hend := s.endTime.inRange
  rw [Shift.window, dif_neg (by omega)]
  unfold dayMicros at *
  simp only
  omega

theorem isFree_of_sameDay (hlookback : 1 ≤ lookback) (h : c.latestWindow aware cursor lookback = .ok none)
    (hshifts : ∀ s ∈ c.shifts, s.startTime.micros < s.endTime.micros) :
    c.IsFree (cursor - lookback * dayMicros) cursor := by
  refine (isFree_iff_of_latestWindow_none hlookback h).mpr fun d hday w hw => ?_
  have hstop := stop_le_of_sameDay hshifts hw
  unfold dayMicros at *
  omega

end ShiftCalendar

namespace ShiftClock

variable {clock : ShiftClock} {offset : Option Int} {cursor remaining : Int} {ref : Option Text}
  {fault : CalendarFault}

/-- A walk becomes unavailable only where a search finds nothing, and it names the instant that this search was for. -/
theorem exists_reached_of_walk
    (h : clock.walk offset cursor remaining = .error (.calendarUnavailable ref fault)) :
    ref = clock.calendar.id ∧ ∃ reached : Instant, fault = .noWindow clock.given reached ∧
      reached.micros ≤ cursor ∧
      clock.calendar.latestWindow offset.isSome reached.micros clock.lookback.toNat = .ok none := by
  fun_induction walk clock offset cursor remaining with
  | case1 cursor remaining _ e hsearch =>
    cases h
    rcases ShiftCalendar.latestWindow_error hsearch with hout | ⟨hmixed, _⟩
    · cases hout
    · cases hmixed
  | case2 cursor remaining _ hsearch =>
    rcases Instant.ofMicros_cases cursor offset with hout | ⟨reached, hreached, hmicros, _⟩
    · rw [hout] at h
      cases h
    · rw [hreached] at h
      cases h
      exact ⟨rfl, reached, rfl, hmicros.le, by rwa [hmicros]⟩
  | case3 cursor remaining _ w hsearch taken ih =>
    have hstop := (ShiftCalendar.covers_of_latestWindow hsearch).1
    have hwindow := w.start_lt_stop
    have htaken : taken = min (w.stop - w.start) remaining := rfl
    obtain ⟨hid, reached, hfault, hle, hnone⟩ := ih h
    exact ⟨hid, reached, hfault, by omega, hnone⟩
  | case4 cursor =>
    rcases Instant.ofMicros_cases cursor offset with hout | ⟨_, hreached, _⟩
    · rw [hout] at h
      cases h
    · rw [hreached] at h
      cases h

end ShiftClock

/-- Where a clock reports that it found no working time within its horizon before an instant, nobody works from the
second of the dates it searched up to that instant. In the time before, back to the same time of day on the first of
these dates, there is work exactly if a window of the date before lasts that long; so there is none if no shift runs
past midnight. -/
theorem isFree_of_subtract_shifts_unavailable {clock : ShiftClock} {finish : Instant} {d : Duration}
    {ref : Option Text} {fault : CalendarFault}
    (h : (WorkingCalendar.shifts clock).subtract finish d = .error (.calendarUnavailable ref fault)) :
    ref = clock.calendar.id ∧ ∃ reached : Instant, fault = .noWindow clock.given reached ∧
      reached.micros ≤ finish.micros ∧
      clock.calendar.IsFree ((reached.micros / dayMicros - clock.lookback + 1) * dayMicros) reached.micros ∧
      (clock.calendar.IsFree (reached.micros - clock.lookback * dayMicros) reached.micros ↔
        ∀ before : Date, before.day = reached.micros / dayMicros - clock.lookback - 1 →
          ∀ w ∈ clock.calendar.windowsOn before.day, w.stop ≤ reached.micros - clock.lookback * dayMicros) ∧
      ((∀ s ∈ clock.calendar.shifts, s.startTime.micros < s.endTime.micros) →
        clock.calendar.IsFree (reached.micros - clock.lookback * dayMicros) reached.micros) := by
  have hd : 0 ≤ d.micros := by
    by_contra hneg
    simp only [WorkingCalendar.subtract, WorkingCalendar.refuseNegative_eq_error (not_le.mp hneg)] at h
    cases h
  rw [WorkingCalendar.subtract_shifts hd] at h
  obtain ⟨hid, reached, hfault, hle, hnone⟩ := ShiftClock.exists_reached_of_walk h
  have hpos := clock.lookback_pos
  have hlookback : 1 ≤ clock.lookback.toNat := by omega
  have hhorizon : ((clock.lookback.toNat : Nat) : Int) = clock.lookback := by omega
  have hfree := ShiftCalendar.isFree_of_latestWindow_none hnone
  have hiff := ShiftCalendar.isFree_iff_of_latestWindow_none hlookback hnone
  have hsameDay := ShiftCalendar.isFree_of_sameDay hlookback hnone
  rw [hhorizon] at hfree hiff hsameDay
  exact ⟨hid, reached, hfault, hle, hfree, hiff, hsameDay⟩

/-- The night of every Friday, which runs late into the morning of Saturday. -/
def Shift.fridayNight : Shift where
  name := none
  startTime := .hour 18 (by decide)
  endTime := .hour 11 (by decide)
  weekdays := [4]
  hasWeekday := by decide
  inWeek := by decide
  notEmpty := by decide

/-- Nobody works but in that night. The search goes back two dates. -/
def ShiftClock.weekend : ShiftClock where
  calendar := { id := none, name := none, shifts := [.fridayNight], nonWorkingDays := [] }
  lookback := 2
  given := .proper (.int 2)
  hasShifts := by decide
  lookback_pos := by decide

/-- Ten o'clock on a Monday. -/
def Instant.mondayMorning : Instant := .combine ⟨738605, by decide⟩ (.hour 10 (by decide))

namespace ShiftClock

/-- Saturday's date is searched, and Saturday's work has begun on Friday. -/
theorem subtract_weekend : (WorkingCalendar.shifts weekend).subtract .mondayMorning (.minutes 30 (by decide)) =
    .error (.calendarUnavailable none (.noWindow (.proper (.int 2)) .mondayMorning)) := by
  have hsearch : weekend.calendar.latestWindow false (738605 * dayMicros + 36000000000)
      weekend.lookback.toNat = .ok none := rfl
  rw [WorkingCalendar.subtract_shifts (by decide)]
  change walk _ none (738605 * dayMicros + 36000000000) 1800000000 = _
  rw [walk_of_none none (by decide) hsearch]
  rfl

/-- The work on Saturday goes on for an hour of the two days before ten o'clock on Monday. -/
theorem weekend_covers : weekend.calendar.Covers (738603 * dayMicros + 37800000000) := by
  decide

end ShiftClock

/-- A calendar can be called unavailable although there is work within its horizon. -/
theorem not_isFree_of_unavailable : ¬ ∀ (clock : ShiftClock) (finish reached : Instant) (d : Duration)
    (ref : Option Text) (given : Amount), finish.offset = none →
      (WorkingCalendar.shifts clock).subtract finish d =
        .error (.calendarUnavailable ref (.noWindow given reached)) →
      clock.calendar.IsFree (reached.micros - clock.lookback * dayMicros) reached.micros := by
  intro hall
  have hfree := hall .weekend _ _ _ _ _ rfl ShiftClock.subtract_weekend
  exact hfree (738603 * dayMicros + 37800000000) (by decide) (by decide) ShiftClock.weekend_covers

/-- On that Monday the clock gives up. It is right about Sunday and about the morning, but not about Saturday. -/
theorem isFree_of_subtract_shifts_unavailable_weekend :
    (WorkingCalendar.shifts .weekend).subtract .mondayMorning (.minutes 30 (by decide)) =
        .error (.calendarUnavailable none (.noWindow (.proper (.int 2)) .mondayMorning)) ∧
      ShiftClock.weekend.calendar.IsFree (738604 * dayMicros) (738605 * dayMicros + 36000000000) ∧
      ¬ ShiftClock.weekend.calendar.IsFree (738603 * dayMicros + 36000000000)
        (738605 * dayMicros + 36000000000) := by
  have hunavailable := ShiftClock.subtract_weekend
  obtain ⟨_, reached, hfault, _, hfree, _⟩ := isFree_of_subtract_shifts_unavailable hunavailable
  cases hfault
  refine ⟨hunavailable, hfree, fun hnone => ?_⟩
  exact hnone (738603 * dayMicros + 37800000000) (by decide) (by decide) ShiftClock.weekend_covers

end SupplyPlan
