import SupplyPlan.Proofs.Calendar.Splitting

namespace SupplyPlan

namespace ShiftCalendar

variable {c : ShiftCalendar} {cursor : Int} {lookback further : Nat} {w v : Window}

/-- A longer search sees what a shorter one has found. -/
theorem latestWindow_of_le (hfurther : lookback ≤ further) {found : Option Window}
    (h : c.latestWindow false cursor lookback = .ok (some w))
    (hfound : c.latestWindow false cursor further = .ok found) : ∃ v, found = some v ∧ w.stop ≤ v.stop := by
  obtain ⟨⟨d, hfirst, hlast, u, hu, hcut⟩, _⟩ := latestWindow_isLatest h
  have hseen : c.IsCut cursor (cursor / dayMicros - further) (cursor / dayMicros) w :=
    ⟨d, by omega, hlast, u, hu, hcut⟩
  have hlatest := latestWindow_isLatest hfound
  cases found with
  | none => exact absurd hseen (hlatest w)
  | some v => exact ⟨v, rfl, hlatest.2 w hseen⟩

/-- If it finds one that ends later, that one comes from a date beyond the shorter horizon, and so it starts before
everything within that horizon. -/
theorem latestWindow_beyond (h : c.latestWindow false cursor lookback = .ok (some w))
    (hfound : c.latestWindow false cursor further = .ok (some v)) (hlater : w.stop < v.stop) :
    v.start < w.start ∧ ∃ d : Date, d.day < cursor / dayMicros - lookback ∧
      ∃ u ∈ c.windowsOn d.day, v.stop ≤ u.stop := by
  obtain ⟨⟨e, hfirst, _, z, hz, hcut⟩, hlatest⟩ := latestWindow_isLatest h
  obtain ⟨⟨d, _, hday, u, hu, hcut'⟩, _⟩ := latestWindow_isLatest hfound
  have hbeyond : d.day < cursor / dayMicros - lookback := by
    by_contra hnot
    have hle := hlatest v ⟨d, by omega, hday, u, hu, hcut'⟩
    omega
  obtain ⟨_, hstart, _⟩ := bounds_of_mem_windowsOn hu
  obtain ⟨hstart', _, _⟩ := bounds_of_mem_windowsOn hz
  obtain ⟨_, hw, _⟩ := Window.before?_eq_some_iff.mp hcut
  obtain ⟨_, hv, hv'⟩ := Window.before?_eq_some_iff.mp hcut'
  refine ⟨?_, d, hbeyond, u, hu, by omega⟩
  unfold dayMicros at *
  omega

/-- A search is complete if no longer one finds a window that ends later. -/
def IsCompleteSearch (c : ShiftCalendar) (lookback : Nat) : Prop :=
  ∀ further cursor w v, lookback ≤ further → c.latestWindow false cursor lookback = .ok (some w) →
    c.latestWindow false cursor further = .ok (some v) → v.stop ≤ w.stop

/-- Without shifts that run past midnight a window beyond the horizon ends before the dates within it begin. -/
theorem isCompleteSearch_of_sameDay (hshifts : ∀ s ∈ c.shifts, s.startTime.micros < s.endTime.micros)
    (lookback : Nat) : c.IsCompleteSearch lookback := by
  intro further cursor w v hfurther h hfound
  by_contra hlater
  obtain ⟨_, d, hbeyond, u, hu, hstop⟩ := latestWindow_beyond h hfound (not_le.mp hlater)
  obtain ⟨_, s, hs, _, rfl⟩ := mem_windowsOn.mp hu
  have htimes := hshifts s hs
  have hend := s.endTime.inRange
  obtain ⟨⟨e, hfirst, _, z, hz, hcut⟩, _⟩ := latestWindow_isLatest h
  obtain ⟨hstart, _, _⟩ := bounds_of_mem_windowsOn hz
  obtain ⟨_, hw, _⟩ := Window.before?_eq_some_iff.mp hcut
  have hwindow := w.start_lt_stop
  rw [Shift.window, dif_neg (by omega)] at hstop
  simp only at hstop
  unfold dayMicros at *
  omega

/-- A shift on the dates that the search covers completely outlasts every window beyond the horizon. -/
theorem HasShiftWithin.isCompleteSearch (hdense : c.HasShiftWithin (lookback - 1)) : c.IsCompleteSearch lookback := by
  intro further cursor w v hfurther h hfound
  by_contra hlater
  obtain ⟨_, d, hbeyond, u, hu, hstop⟩ := latestWindow_beyond h hfound (not_le.mp hlater)
  obtain ⟨_, _, hend⟩ := bounds_of_mem_windowsOn hu
  obtain ⟨_, hhigh⟩ := latestWindow_inRange h
  have hday := d.inRange
  obtain ⟨x, hx, hlong⟩ := hdense.exists_isCut cursor (by omega) (by omega)
  have hle := (latestWindow_isLatest h).2 x hx
  unfold dayMicros at *
  omega

/-- Uninterrupted work lies between two cursors, whichever of them is the later one. -/
def CoversBetween (c : ShiftCalendar) (cursor cursor' : Int) : Prop :=
  ∀ t, min cursor cursor' ≤ t → t < max cursor cursor' → c.Covers t

theorem CoversBetween.symm {cursor' : Int} (h : c.CoversBetween cursor cursor') : c.CoversBetween cursor' cursor := by
  intro t hlo hhi
  exact h t (by omega) (by omega)

/-- The later cursor may go back inside a window that ends there. -/
theorem CoversBetween.round {cursor' taken : Int} (h : c.CoversBetween cursor cursor') (hlater : cursor' ≤ cursor)
    (hwork : ∀ t, w.Covers t → c.Covers t) (hstop : w.stop = cursor) (hpos : 0 < taken)
    (htaken : taken ≤ w.stop - w.start) : c.CoversBetween (w.stop - taken) cursor' := by
  intro t hlo hhi
  by_cases hin : w.start ≤ t ∧ t < w.stop
  · exact hwork t hin
  · exact h t (by omega) (by omega)

end ShiftCalendar

namespace ShiftClock

theorem walk_micros_le {clock : ShiftClock} {offset : Option Int} {cursor remaining : Int} {start : Instant}
    (h : clock.walk offset cursor remaining = .ok start) : start.micros ≤ cursor := by
  fun_induction walk clock offset cursor remaining with
  | case1 => cases h
  | case2 cursor =>
    rcases Instant.ofMicros_cases cursor offset with hout | ⟨t, ht, _, _⟩
    · rw [hout] at h
      cases h
    · rw [ht] at h
      cases h
  | case3 cursor remaining hpos w hsearch taken ih =>
    have hstop := (ShiftCalendar.covers_of_latestWindow hsearch).1
    have hwindow := w.start_lt_stop
    have htaken : taken = min (w.stop - w.start) remaining := rfl
    have hle := ih h
    omega
  | case4 => exact (Instant.ofMicros_eq_ok_iff.mp h).1.le

/-- A walk that succeeds has found a window in its first round and has gone on behind it. -/
theorem exists_round {clock : ShiftClock} {cursor remaining : Int} {start : Instant}
    (h : clock.walk none cursor remaining = .ok start) (hpos : 0 < remaining) :
    ∃ w, clock.calendar.latestWindow false cursor clock.lookback.toNat = .ok (some w) ∧
      clock.walk none (w.stop - min (w.stop - w.start) remaining)
        (remaining - min (w.stop - w.start) remaining) = .ok start := by
  cases hsearch : clock.calendar.latestWindow false cursor clock.lookback.toNat with
  | error e =>
    rw [walk_of_error none hpos hsearch] at h
    cases h
  | ok found =>
    cases found with
    | none =>
      rw [walk, if_pos hpos, Option.isSome_none, hsearch] at h
      obtain ⟨_, _, h⟩ := bind_eq_ok_iff.mp h
      cases h
    | some w =>
      rw [walk_of_some none hpos hsearch] at h
      exact ⟨w, rfl, h⟩

/-- A walk keeps up with one that ends at `start` if it ends there or later, unless the range of dates is left. -/
def KeepsUp (start : Instant) (same : Prop) (answer : Except PlanError Instant) : Prop :=
  answer = .error .outOfRange ∨ ∃ later, answer = .ok later ∧ start.micros ≤ later.micros ∧ (same → later = start)

theorem KeepsUp.imp {start : Instant} {same same' : Prop} {answer : Except PlanError Instant}
    (h : KeepsUp start same answer) (himp : same' → same) : KeepsUp start same' answer := by
  rcases h with hout | ⟨later, hok, hle, hsame⟩
  · exact .inl hout
  · exact .inr ⟨later, hok, hle, fun h => hsame (himp h)⟩

section Further

variable {clock wider : ShiftClock} (hcalendar : wider.calendar = clock.calendar)
  (hfurther : clock.lookback ≤ wider.lookback)

include hcalendar hfurther

/-- A walk with a longer horizon keeps up with one with a shorter horizon. Between their cursors lies uninterrupted
work, and the longer one never has more left than the other and the way between them. The induction is on what remains
of both: the walk that is later takes its next round, whose window ends at its cursor because work goes on there, and
where the cursors meet both of them do. -/
theorem walk_keepsUp {cursor cursor' remaining remaining' : Int} {start : Instant} (hremaining : 0 ≤ remaining)
    (hremaining' : 0 ≤ remaining') (hpace : remaining' - cursor' ≤ remaining - cursor)
    (hcovered : clock.calendar.CoversBetween cursor cursor') (h : clock.walk none cursor remaining = .ok start) :
    KeepsUp start
      (remaining' - cursor' = remaining - cursor ∧ clock.calendar.IsCompleteSearch clock.lookback.toNat)
      (wider.walk none cursor' remaining') := by
  induction hmeasure : remaining.toNat + remaining'.toNat using Nat.strong_induction_on
    generalizing cursor cursor' remaining remaining' with
  | h n ih =>
    have hstart := walk_micros_le h
    by_cases hbehind : cursor' < cursor
    · obtain ⟨w, hsearch, hround⟩ := exists_round h (by omega)
      obtain ⟨_, hfound, hstop⟩ := exists_window_of_covers (hcovered (cursor - 1) (by omega) (by omega)) hsearch
      cases hfound
      have hwork := (ShiftCalendar.covers_of_latestWindow hsearch).2
      have hwindow := w.start_lt_stop
      have hleft : 0 ≤ remaining - min (w.stop - w.start) remaining := by omega
      have hbetween := hcovered.round hbehind.le hwork hstop
        (show 0 < min (w.stop - w.start) remaining by omega) (by omega)
      have hnext := ih _ (by omega) hleft hremaining' (by omega) hbetween hround rfl
      exact hnext.imp fun hsame => ⟨by omega, hsame.2⟩
    · by_cases hdone : remaining' ≤ 0
      · rw [walk_of_nonpos none hdone]
        rcases Instant.ofMicros_cases cursor' none with hout | ⟨t, ht, hmicros, _⟩
        · exact .inl hout
        · refine .inr ⟨t, ht, by omega, fun hsame => ?_⟩
          have hmeet : cursor = cursor' := by omega
          rw [walk_of_nonpos none (by omega), hmeet, ht] at h
          exact Except.ok.inj h
      · cases hsearch' : clock.calendar.latestWindow false cursor' wider.lookback.toNat with
        | error e =>
          rcases ShiftCalendar.latestWindow_error hsearch' with rfl | ⟨_, haware⟩
          · exact .inl (walk_of_error none (by omega) (hcalendar ▸ hsearch'))
          · cases haware
        | ok found =>
          by_cases hahead : cursor < cursor'
          · have hcovers := hcovered (cursor' - 1) (by omega) (by omega)
            obtain ⟨v, rfl, hstop⟩ := exists_window_of_covers (hcalendar ▸ hcovers) (hcalendar ▸ hsearch')
            have hwork := (ShiftCalendar.covers_of_latestWindow hsearch').2
            have hwindow := v.start_lt_stop
            rw [walk_of_some none (by omega) (hcalendar ▸ hsearch'), Window.length]
            have hleft : 0 ≤ remaining' - min (v.stop - v.start) remaining' := by omega
            have hbetween := hcovered.symm.round hahead.le hwork hstop
              (show 0 < min (v.stop - v.start) remaining' by omega) (by omega)
            have hnext := ih _ (by omega) hremaining hleft (by omega) hbetween.symm h rfl
            exact hnext.imp fun hsame => ⟨by omega, hsame.2⟩
          · have hmeet : cursor' = cursor := by omega
            subst hmeet
            obtain ⟨w, hsearch, hround⟩ := exists_round h (by omega)
            have hhorizon : clock.lookback.toNat ≤ wider.lookback.toNat := by omega
            obtain ⟨v, rfl, hstops⟩ := ShiftCalendar.latestWindow_of_le hhorizon hsearch hsearch'
            have hstarts (hlater : w.stop < v.stop) : v.start < w.start :=
              (ShiftCalendar.latestWindow_beyond hsearch hsearch' hlater).1
            have hwindow := w.start_lt_stop
            have hwindow' := v.start_lt_stop
            have hleft : 0 ≤ remaining - min (w.stop - w.start) remaining := by omega
            have hleft' : 0 ≤ remaining' - min (v.stop - v.start) remaining' := by omega
            have hbetween : clock.calendar.CoversBetween (w.stop - min (w.stop - w.start) remaining)
                (v.stop - min (v.stop - v.start) remaining') := by
              intro t hlo hhi
              by_cases hin : w.start ≤ t ∧ t < w.stop
              · exact (ShiftCalendar.covers_of_latestWindow hsearch).2 t hin
              · exact (ShiftCalendar.covers_of_latestWindow hsearch').2 t ⟨by omega, by omega⟩
            rw [walk_of_some none (by omega) (hcalendar ▸ hsearch'), Window.length]
            have hnext := ih _ (by omega) hleft hleft' (by omega) hbetween hround rfl
            refine hnext.imp fun hsame => ⟨?_, hsame.2⟩
            have hcomplete := hsame.2 _ _ _ _ hhorizon hsearch hsearch'
            omega

end Further

end ShiftClock

/-- The night of every Sunday, which runs into the morning of Monday. -/
def Shift.sundayNight : Shift where
  name := none
  startTime := .hour 20 (by decide)
  endTime := .hour 9 (by decide)
  weekdays := [6]
  hasWeekday := by decide
  inWeek := by decide
  notEmpty := by decide

/-- An hour of the same night, early on Monday. -/
def Shift.mondayRound : Shift where
  name := none
  startTime := .hour 3 (by decide)
  endTime := .hour 4 (by decide)
  weekdays := [0]
  hasWeekday := by decide
  inWeek := by decide
  notEmpty := by decide

/-- Nobody works but in one night of the week. The search goes back one date and some more. -/
def ShiftClock.oneNight (more : Nat) : ShiftClock where
  calendar := { id := none, name := none, shifts := [.sundayNight, .mondayRound], nonWorkingDays := [] }
  lookback := 1 + more
  given := .proper (.int (1 + more))
  hasShifts := by decide
  lookback_pos := by omega

namespace ShiftClock

/-- From Tuesday a horizon of one date reaches the hour on Monday, but not the night that began on Sunday. -/
theorem subtract_oneNight_zero :
    (WorkingCalendar.shifts (oneNight 0)).subtract (.onTuesday 1) (.minutes 30 (by decide)) =
      .ok ⟨738598 * dayMicros + 12600000000, none, by decide⟩ := by
  have hsearch : (oneNight 0).calendar.latestWindow false (738599 * dayMicros + 3600000000)
      (oneNight 0).lookback.toNat =
        .ok (some ⟨738598 * dayMicros + 10800000000, 738598 * dayMicros + 14400000000, by decide⟩) := rfl
  rw [WorkingCalendar.subtract_shifts (by decide)]
  change walk _ none (738599 * dayMicros + 3600000000) 1800000000 = _
  rw [walk_of_some none (by decide) hsearch, walk_of_nonpos none (by decide)]
  rfl

theorem subtract_oneNight_one :
    (WorkingCalendar.shifts (oneNight 1)).subtract (.onTuesday 1) (.minutes 30 (by decide)) =
      .ok ⟨738598 * dayMicros + 30600000000, none, by decide⟩ := by
  have hsearch : (oneNight 1).calendar.latestWindow false (738599 * dayMicros + 3600000000)
      (oneNight 1).lookback.toNat =
        .ok (some ⟨738597 * dayMicros + 72000000000, 738598 * dayMicros + 32400000000, by decide⟩) := rfl
  rw [WorkingCalendar.subtract_shifts (by decide)]
  change walk _ none (738599 * dayMicros + 3600000000) 1800000000 = _
  rw [walk_of_some none (by decide) hsearch, walk_of_nonpos none (by decide)]
  rfl

end ShiftClock

/-- Two horizons need not agree on the start: with one date the work is done by four on Monday, with two dates it is
found that work goes on until nine. -/
theorem not_subtract_shifts_eq_of_further : ¬ ∀ (clock wider : ShiftClock) (finish : Instant) (d : Duration)
    (start : Instant), wider.calendar = clock.calendar → clock.lookback ≤ wider.lookback → finish.offset = none →
      (WorkingCalendar.shifts clock).subtract finish d = .ok start →
        (WorkingCalendar.shifts wider).subtract finish d = .error .outOfRange ∨
          (WorkingCalendar.shifts wider).subtract finish d = .ok start := by
  intro hall
  have hstart := ShiftClock.subtract_oneNight_zero
  rcases hall (.oneNight 0) (.oneNight 1) _ _ _ rfl (by decide) rfl hstart with hout | hsame
  · rw [ShiftClock.subtract_oneNight_one] at hout
    cases hout
  · rw [ShiftClock.subtract_oneNight_one] at hsame
    cases hsame

/-- With a longer horizon a calendar that was available stays available and the work starts no earlier, within the range
of dates. It starts at the same time if no shift runs past midnight, or if no rest is as long as the shorter horizon:
then that one has found the last window already. -/
theorem subtract_shifts_of_further {clock wider : ShiftClock} (hcalendar : wider.calendar = clock.calendar)
    (hfurther : clock.lookback ≤ wider.lookback) {finish : Instant} (hnaive : finish.offset = none) {d : Duration}
    {start : Instant} (h : (WorkingCalendar.shifts clock).subtract finish d = .ok start) :
    (WorkingCalendar.shifts wider).subtract finish d = .error .outOfRange ∨
      ∃ later, (WorkingCalendar.shifts wider).subtract finish d = .ok later ∧ start.micros ≤ later.micros ∧
        ((∀ s ∈ clock.calendar.shifts, s.startTime.micros < s.endTime.micros) ∨
          clock.calendar.HasShiftWithin (clock.lookback - 1) → later = start) := by
  have hd : 0 ≤ d.micros := by
    obtain ⟨_, haccepted, _⟩ := bind_eq_ok_iff.mp h
    unfold WorkingCalendar.refuseNegative Duration.isNegative at haccepted
    by_contra hneg
    rw [if_pos (decide_eq_true (not_le.mp hneg))] at haccepted
    cases haccepted
  rw [WorkingCalendar.subtract_shifts hd, hnaive] at h ⊢
  have hnothing : clock.calendar.CoversBetween finish.micros finish.micros := by
    intro t hlo hhi
    omega
  refine (ShiftClock.walk_keepsUp hcalendar hfurther hd hd le_rfl hnothing h).imp fun hcomplete => ⟨rfl, ?_⟩
  rcases hcomplete with hsameDay | hdense
  · exact ShiftCalendar.isCompleteSearch_of_sameDay hsameDay _
  · have hhorizon : clock.lookback = clock.lookback.toNat := by
      have hpos := clock.lookback_pos
      omega
    rw [hhorizon] at hdense
    exact hdense.isCompleteSearch

/-- The longer horizon leads to the later of the two starts in the one night of the week. -/
theorem subtract_shifts_of_further_oneNight :
    (WorkingCalendar.shifts (.oneNight 0)).subtract (.onTuesday 1) (.minutes 30 (by decide)) =
        .ok ⟨738598 * dayMicros + 12600000000, none, by decide⟩ ∧
      ∃ later, (WorkingCalendar.shifts (.oneNight 1)).subtract (.onTuesday 1)
        (.minutes 30 (by decide)) = .ok later ∧ 738598 * dayMicros + 12600000000 ≤ later.micros := by
  have hstart := ShiftClock.subtract_oneNight_zero
  refine ⟨hstart, ?_⟩
  have hcalendar : (ShiftClock.oneNight 1).calendar = (ShiftClock.oneNight 0).calendar := rfl
  have hnaive : (Instant.onTuesday 1).offset = none := rfl
  rcases subtract_shifts_of_further hcalendar (by decide) hnaive hstart with hout | ⟨later, hok, hle, _⟩
  · rw [ShiftClock.subtract_oneNight_one] at hout
    cases hout
  · exact ⟨later, hok, hle⟩

end SupplyPlan
