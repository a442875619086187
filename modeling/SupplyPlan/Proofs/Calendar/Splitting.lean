import SupplyPlan.Proofs.Calendar.ExactTime
import SupplyPlan.Proofs.Result

namespace SupplyPlan

namespace ShiftClock

variable {clock : ShiftClock} {cursor remaining : Int}

/-- Out of covered time the search only ever finds windows that reach up to the cursor. -/
theorem exists_window_of_covers {aware : Bool} {found : Option Window}
    (hcovers : clock.calendar.Covers (cursor - 1))
    (h : clock.calendar.latestWindow aware cursor clock.lookback.toNat = .ok found) :
    ∃ w, found = some w ∧ w.stop = cursor := by
  have hpos := clock.lookback_pos
  have hlookback : 1 ≤ clock.lookback.toNat := by omega
  obtain ⟨v, hv, hstop⟩ := ShiftCalendar.isCut_of_covers hlookback hcovers
  have hlatest := ShiftCalendar.latestWindow_isLatest h
  cases found with
  | none => exact absurd hv (hlatest v)
  | some w =>
    have hle := (ShiftCalendar.covers_of_latestWindow h).1
    have hge := hlatest.2 v hv
    exact ⟨w, rfl, by omega⟩

/-- Two walks meet if uninterrupted work lies between their cursors and the later one has as much more left. The
induction is on what remains of the later one: its search finds a window that ends at its cursor, and either it crosses
that window and is still the later one, or it has overtaken the other. -/
theorem walk_eq_of_covered {cursor' remaining' : Int} (hpace : cursor - cursor' = remaining - remaining')
    (hle : cursor' ≤ cursor) (hremaining : 0 ≤ remaining')
    (hcovered : ∀ t, cursor' ≤ t → t < cursor → clock.calendar.Covers t)
    (hlater : clock.walk none cursor remaining ≠ .error .outOfRange)
    (hearlier : clock.walk none cursor' remaining' ≠ .error .outOfRange) :
    clock.walk none cursor remaining = clock.walk none cursor' remaining' := by
  induction hmeasure : remaining.toNat using Nat.strong_induction_on
    generalizing cursor remaining cursor' remaining' with
  | h n ih =>
    by_cases hsame : cursor' = cursor
    · have hsame' : remaining' = remaining := by omega
      rw [hsame, hsame']
    · have hpos : 0 < remaining := by omega
      cases hsearch : clock.calendar.latestWindow false cursor clock.lookback.toNat with
      | error e =>
        rcases ShiftCalendar.latestWindow_error hsearch with rfl | ⟨_, haware⟩
        · exact absurd (walk_of_error none hpos hsearch) hlater
        · cases haware
      | ok found =>
        obtain ⟨w, rfl, hstop⟩ := exists_window_of_covers (hcovered (cursor - 1) (by omega) (by omega)) hsearch
        have hinside := (ShiftCalendar.covers_of_latestWindow hsearch).2
        have hwindow := w.start_lt_stop
        have hround := walk_of_some none hpos hsearch
        unfold Window.length at hround
        rw [hround] at hlater ⊢
        by_cases hcrosses : cursor' ≤ w.stop - min (w.stop - w.start) remaining
        · exact ih _ (by omega) (by omega) hcrosses hremaining
            (fun t hlo hhi => hcovered t hlo (by omega)) hlater hearlier rfl
        · exact (ih _ (by omega) (by omega) (by omega) (by omega)
            (fun t hlo hhi => hinside t ⟨by omega, by omega⟩) hearlier hlater rfl).symm

/-- A walk over two amounts of work is a walk over the first and, from where it ends, one over the second. The walks run
in step until the first amount is used up inside a window; from there on uninterrupted work leads to where the undivided
walk gets in the same round. -/
theorem walk_add {first second : Int} (hfirst : 0 ≤ first) (hsecond : 0 ≤ second)
    (hwhole : clock.walk none cursor (first + second) ≠ .error .outOfRange)
    (hparts : (clock.walk none cursor first >>= fun t => clock.walk none t.micros second) ≠ .error .outOfRange) :
    clock.walk none cursor (first + second) =
      clock.walk none cursor first >>= fun t => clock.walk none t.micros second := by
  fun_induction walk clock none cursor first with
  | case1 cursor first hpos e hsearch =>
    rw [walk_of_error none (by omega) hsearch]
    rfl
  | case2 cursor first hpos hsearch =>
    rw [walk, if_pos (by omega), hsearch]
    cases Instant.ofMicros cursor none <;> rfl
  | case3 cursor first hpos w hsearch taken ih =>
    have hround := walk_of_some none (show 0 < first + second by omega) hsearch
    have htaken : taken = min w.length first := rfl
    rw [hround] at hwhole ⊢
    by_cases hcrosses : w.length ≤ first
    · have hsame : min w.length (first + second) = taken := by omega
      have hrest : first + second - taken = first - taken + second := by omega
      rw [hsame, hrest] at hwhole ⊢
      exact ih (by omega) hwhole hparts
    · have hdone : first - taken = 0 := by omega
      rw [hdone, walk_of_nonpos none le_rfl] at hparts ⊢
      rcases Instant.ofMicros_cases (w.stop - taken) none with hout | ⟨t, ht, hmicros, _⟩
      · exact absurd (by rw [hout]; rfl) hparts
      · rw [ht] at hparts ⊢
        change clock.walk none t.micros second ≠ _ at hparts
        change _ = clock.walk none t.micros second
        have hinside := (ShiftCalendar.covers_of_latestWindow hsearch).2
        have hwindow : w.length = w.stop - w.start := rfl
        refine (walk_eq_of_covered (by omega) (by omega) (by omega) (fun u hlo hhi => ?_) hparts hwhole).symm
        exact hinside u ⟨by omega, by omega⟩
  | case4 cursor first hpos =>
    have hzero : first = 0 := by omega
    rw [hzero, Int.zero_add] at hwhole ⊢
    rcases Instant.ofMicros_cases cursor none with hout | ⟨t, ht, hmicros, _⟩
    · exact absurd (by rw [hout]; rfl) hparts
    · rw [ht, ← hmicros]
      rfl

end ShiftClock

/-- As long as no part leaves the range of dates, taking time away is taking it away part by part. -/
theorem WorkingCalendar.subtract_shifts_eq_bind {clock : ShiftClock} {finish : Instant}
    (hnaive : finish.offset = none) {a b ab : Duration} (ha : 0 ≤ a.micros) (hb : 0 ≤ b.micros)
    (hab : a.add b = .ok ab) (hwhole : (shifts clock).subtract finish ab ≠ .error .outOfRange)
    (hfirst : (shifts clock).subtract finish a ≠ .error .outOfRange)
    (hsecond : ∀ middle, (shifts clock).subtract finish a = .ok middle →
      (shifts clock).subtract middle b ≠ .error .outOfRange) :
    (shifts clock).subtract finish ab =
      (shifts clock).subtract finish a >>= fun middle => (shifts clock).subtract middle b := by
  have hsum : ab.micros = a.micros + b.micros := Duration.ofMicros_eq_ok_iff.mp hab
  have hparts : ((shifts clock).subtract finish a >>= fun middle => (shifts clock).subtract middle b) ≠
      .error .outOfRange := by
    rw [ne_eq, bind_eq_error_iff, not_or, not_exists]
    exact ⟨hfirst, fun middle h => hsecond middle h.1 h.2⟩
  have hrest : ((shifts clock).subtract finish a >>= fun middle => (shifts clock).subtract middle b) =
      clock.walk none finish.micros a.micros >>= fun middle => clock.walk none middle.micros b.micros := by
    rw [subtract_shifts ha, hnaive]
    have hregular := clock.walk_isRegular finish finish.micros a.micros
    rw [hnaive] at hregular
    cases hmiddle : clock.walk none finish.micros a.micros with
    | error e => rfl
    | ok middle =>
      rw [hmiddle] at hregular
      rcases hregular with ⟨_, _, hunavailable⟩ | hok
      · cases hunavailable
      · cases hok with
        | ok hoffset =>
          change (shifts clock).subtract middle b = clock.walk none middle.micros b.micros
          rw [subtract_shifts hb, hoffset, hnaive]
  rw [hrest] at hparts ⊢
  rw [subtract_shifts (by omega), hnaive, hsum] at hwhole ⊢
  exact ShiftClock.walk_add ha hb hwhole hparts

/-- Working time can be split anywhere: work of length `ab = a + b` starts where work of length `b` starts that has to
be done by the start of work of length `a`, and the calendar is unavailable for it, at the same moment, where it is
unavailable for one of the two. The calendar may be any one, with any horizon. -/
theorem subtract_shifts_add {clock : ShiftClock} {finish : Instant} (hnaive : finish.offset = none)
    {a b ab : Duration} (ha : 0 ≤ a.micros) (hb : 0 ≤ b.micros) (hab : a.add b = .ok ab)
    (hwhole : (WorkingCalendar.shifts clock).subtract finish ab ≠ .error .outOfRange)
    (hfirst : (WorkingCalendar.shifts clock).subtract finish a ≠ .error .outOfRange)
    (hsecond : ∀ middle, (WorkingCalendar.shifts clock).subtract finish a = .ok middle →
      (WorkingCalendar.shifts clock).subtract middle b ≠ .error .outOfRange) :
    (∀ start, (WorkingCalendar.shifts clock).subtract finish ab = .ok start ↔
      ∃ middle, (WorkingCalendar.shifts clock).subtract finish a = .ok middle ∧
        (WorkingCalendar.shifts clock).subtract middle b = .ok start) ∧
    ∀ ref fault, (WorkingCalendar.shifts clock).subtract finish ab = .error (.calendarUnavailable ref fault) ↔
      (WorkingCalendar.shifts clock).subtract finish a = .error (.calendarUnavailable ref fault) ∨
        ∃ middle, (WorkingCalendar.shifts clock).subtract finish a = .ok middle ∧
          (WorkingCalendar.shifts clock).subtract middle b = .error (.calendarUnavailable ref fault) := by
  rw [WorkingCalendar.subtract_shifts_eq_bind hnaive ha hb hab hwhole hfirst hsecond]
  exact ⟨fun start => bind_eq_ok_iff, fun ref fault => bind_eq_error_iff⟩

/-- The ten hours before a Tuesday at ten, interrupted at half past six, where two shifts overlap. -/
theorem subtract_shifts_add_in_overlap :
    (WorkingCalendar.shifts .aroundTheClock).subtract (.onTuesday 10) (.minutes 600 (by decide)) =
        .ok (.onTuesday 0) ∧
      ∃ middle,
        (WorkingCalendar.shifts .aroundTheClock).subtract (.onTuesday 10) (.minutes 210 (by decide)) = .ok middle ∧
        (WorkingCalendar.shifts .aroundTheClock).subtract middle (.minutes 390 (by decide)) =
          .ok (.onTuesday 0) := by
  have hwhole := ShiftClock.subtract_aroundTheClock
  have hfirst : (WorkingCalendar.shifts .aroundTheClock).subtract (.onTuesday 10) (.minutes 210 (by decide)) =
      .ok ⟨738599 * dayMicros + 23400000000, none, by decide⟩ := by
    rw [WorkingCalendar.subtract_shifts (by decide)]
    change ShiftClock.walk _ none (738599 * dayMicros + 36000000000) 12600000000 = _
    rw [ShiftClock.walk_of_some none (by decide) ShiftClock.latestWindow_aroundTheClock_early,
      ShiftClock.walk_of_nonpos none (by decide)]
    rfl
  have hsecond : (WorkingCalendar.shifts .aroundTheClock).subtract
      ⟨738599 * dayMicros + 23400000000, none, by decide⟩ (.minutes 390 (by decide)) = .ok (.onTuesday 0) := by
    have hoverlap : ShiftClock.aroundTheClock.calendar.latestWindow false (738599 * dayMicros + 23400000000)
        ShiftClock.aroundTheClock.lookback.toNat =
          .ok (some ⟨738599 * dayMicros + 18000000000, 738599 * dayMicros + 23400000000, by decide⟩) := rfl
    rw [WorkingCalendar.subtract_shifts (by decide)]
    change ShiftClock.walk _ none (738599 * dayMicros + 23400000000) 23400000000 = _
    rw [ShiftClock.walk_of_some none (by decide) hoverlap]
    change ShiftClock.walk _ none (738599 * dayMicros + 18000000000) 18000000000 = _
    rw [ShiftClock.walk_of_some none (by decide) ShiftClock.latestWindow_aroundTheClock_night,
      ShiftClock.walk_of_nonpos none (by decide)]
    rfl
  have hsum : (Duration.minutes 210 (by decide)).add (.minutes 390 (by decide)) =
      .ok (.minutes 600 (by decide)) := Duration.ofMicros_eq_ok_iff.mpr rfl
  have hnaive : (Instant.onTuesday 10).offset = none := rfl
  refine ⟨hwhole, ((subtract_shifts_add hnaive (by decide) (by decide) hsum ?_ ?_ ?_).1 _).mp hwhole⟩
  · rw [hwhole]
    exact nofun
  · rw [hfirst]
    exact nofun
  · intro middle hmiddle
    rw [hfirst] at hmiddle
    cases hmiddle
    rw [hsecond]
    exact nofun

end SupplyPlan
