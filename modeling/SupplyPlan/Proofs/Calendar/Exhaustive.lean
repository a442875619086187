import SupplyPlan.Proofs.Calendar.Rounds
import SupplyPlan.Proofs.Calendar.SameWork

namespace SupplyPlan

namespace ShiftCalendar

variable {c : ShiftCalendar} {cursor day first last : Int} {dates : Nat}

/-- The search that takes the windows of all its dates into account, whatever it has found already. -/
def latestOfAll (c : ShiftCalendar) (cursor : Int) :
    Nat → Int → Option Window → Except PlanError (Option Window)
  | 0, _, best => .ok best
  | dates + 1, day, best =>
    if day < 0 || dateCount ≤ day + 2 then .error .outOfRange
    else latestOfAll c cursor dates (day - 1) (c.latestOn cursor day best)

/-- The windows among which a search has to choose start before its cursor and on one of its dates. -/
def IsCandidate (c : ShiftCalendar) (cursor first last : Int) (v : Window) : Prop :=
  v.start < cursor ∧ ∃ d : Date, first ≤ d.day ∧ d.day ≤ last ∧ v ∈ c.windowsOn d.day

theorem isCut_iff {w : Window} : c.IsCut cursor first last w ↔
    ∃ v, c.IsCandidate cursor first last v ∧ w.start = v.start ∧ w.stop = min v.stop cursor := by
  constructor
  · rintro ⟨d, hfirst, hlast, v, hv, hcut⟩
    obtain ⟨hbefore, hstart, hstop⟩ := Window.before?_eq_some_iff.mp hcut
    exact ⟨v, ⟨hbefore, d, hfirst, hlast, hv⟩, hstart, hstop⟩
  · rintro ⟨v, ⟨hbefore, d, hfirst, hlast, hv⟩, hstart, hstop⟩
    exact ⟨d, hfirst, hlast, v, hv, Window.before?_eq_some_iff.mpr ⟨hbefore, hstart, hstop⟩⟩

theorem IsCandidate.isCut {v : Window} (h : c.IsCandidate cursor first last v) :
    c.IsCut cursor first last ⟨v.start, min v.stop cursor, lt_min v.start_lt_stop h.1⟩ :=
  isCut_iff.mpr ⟨v, h, rfl, rfl⟩

/-- No window of the date ends after the second midnight that follows it. -/
theorem latestOn_of_reached {b : Window} (hstop : (day + 2) * dayMicros ≤ b.stop) :
    c.latestOn cursor day (some b) = some b := by
  rcases Window.foldl_later_cases ((c.windowsOn day).filterMap (·.before? cursor)) (some b) with
    hbest | ⟨v, hv, _, hlater⟩
  · exact hbest
  · obtain ⟨u, hu, hcut⟩ := List.mem_filterMap.mp hv
    obtain ⟨_, _, hend⟩ := bounds_of_mem_windowsOn hu
    obtain ⟨_, _, hcutEnd⟩ := Window.before?_eq_some_iff.mp hcut
    have hbefore := hlater b rfl
    omega

/-- Dates that are left when a search may stop early change nothing any more. -/
theorem latestOfAll_of_reached {b : Window} (hstop : (day + 2) * dayMicros ≤ b.stop) :
    c.latestOfAll cursor dates day (some b) = .error .outOfRange ∨
      c.latestOfAll cursor dates day (some b) = .ok (some b) := by
  induction dates generalizing day with
  | zero => exact .inr rfl
  | succ dates ih =>
    rw [latestOfAll, latestOn_of_reached hstop]
    split
    · exact .inl rfl
    · refine ih ?_
      unfold dayMicros at *
      omega

/-- To look at all dates is to leave the range, or to find what the search that stops early finds. -/
theorem latestOfAll_cases (c : ShiftCalendar) (cursor : Int) (dates : Nat) (day : Int) (best : Option Window) :
    c.latestOfAll cursor dates day best = .error .outOfRange ∨
      c.latestOfAll cursor dates day best = c.latestFrom false cursor dates day best := by
  induction dates generalizing day best with
  | zero => exact .inr rfl
  | succ dates ih =>
    by_cases houtside : day < 0 ∨ dateCount ≤ day + 2
    · exact .inl (if_pos (by simpa using houtside))
    · have hday : 0 ≤ day ∧ day + 2 < dateCount := by omega
      have hnext : c.latestOfAll cursor (dates + 1) day best =
          c.latestOfAll cursor dates (day - 1) (c.latestOn cursor day best) := if_neg (by simpa using houtside)
      by_cases hreached : ∃ b, best = some b ∧ (day + 2) * dayMicros ≤ b.stop
      · obtain ⟨b, rfl, hstop⟩ := hreached
        have hbefore : (day - 1 + 2) * dayMicros ≤ b.stop := by
          unfold dayMicros at *
          omega
        rw [hnext, latestOn_of_reached hstop, latestFrom_of_reached hday hstop]
        exact latestOfAll_of_reached hbefore
      · have hopen (b : Window) (hb : best = some b) : b.stop < (day + 2) * dayMicros :=
          not_le.mp fun hstop => hreached ⟨b, hb, hstop⟩
        rw [hnext, latestFrom_of_open hday hopen]
        exact ih (day - 1) (c.latestOn cursor day best)

/-- All dates exist, and all windows on them end within the range of dates, or the search for all of them fails. -/
theorem latestOfAll_eq_outOfRange_iff {best : Option Window} :
    c.latestOfAll cursor dates day best = .error .outOfRange ↔
      0 < dates ∧ (day - dates + 1 < 0 ∨ dateCount ≤ day + 2) := by
  induction dates generalizing day best with
  | zero => exact iff_of_false nofun (by omega)
  | succ dates ih =>
    rw [latestOfAll]
    by_cases houtside : day < 0 ∨ dateCount ≤ day + 2
    · rw [if_pos (by simpa using houtside)]
      exact iff_of_true rfl (by omega)
    · rw [if_neg (by simpa using houtside), ih]
      omega

/-- So a search that fails misses a date or the end of one. -/
theorem latestFrom_outside {best : Option Window} {e : PlanError}
    (h : c.latestFrom false cursor dates day best = .error e) :
    e = .outOfRange ∧ 0 < dates ∧ (day - dates + 1 < 0 ∨ dateCount ≤ day + 2) := by
  obtain rfl : e = .outOfRange := by
    rcases latestFrom_error h with hout | ⟨_, haware⟩
    · exact hout
    · cases haware
  have hall : c.latestOfAll cursor dates day best = .error .outOfRange := by
    rcases c.latestOfAll_cases cursor dates day best with hout | hsame
    · exact hout
    · exact hsame.trans h
  exact ⟨rfl, latestOfAll_eq_outOfRange_iff.mp hall⟩

/-- Where a search succeeds, looking at all dates fails only for dates before the first one. -/
theorem latestOfAll_of_latestFrom {best found : Option Window}
    (h : c.latestFrom false cursor dates day best = .ok found) :
    c.latestOfAll cursor dates day best = .ok found ∨
      c.latestOfAll cursor dates day best = .error .outOfRange ∧ day - dates + 1 < 0 := by
  rcases c.latestOfAll_cases cursor dates day best with hout | hsame
  · obtain ⟨hdates, hmissing⟩ := latestOfAll_eq_outOfRange_iff.mp hout
    refine .inr ⟨hout, hmissing.resolve_right fun hlast => ?_⟩
    obtain ⟨more, rfl⟩ := Nat.exists_eq_succ_of_ne_zero hdates.ne'
    rw [latestFrom_of_outside (.inr hlast)] at h
    cases h
  · exact .inl (hsame.trans h)

/-- The outcome in terms of the windows themselves. -/
theorem isLatest_isCut {found : Option Window} (h : IsLatest (c.IsCut cursor first last) found) :
    (found = none ↔ ∀ v, ¬ c.IsCandidate cursor first last v) ∧
      ∀ w, found = some w → w.start < w.stop ∧ w.stop ≤ cursor ∧
        (∃ v, c.IsCandidate cursor first last v ∧ w.start = v.start ∧ w.stop = min v.stop cursor) ∧
        ∀ v, c.IsCandidate cursor first last v → min v.stop cursor ≤ w.stop := by
  cases found with
  | none => exact ⟨iff_of_true rfl fun v hv => h _ hv.isCut, nofun⟩
  | some w =>
    obtain ⟨hcut, hmax⟩ := h
    obtain ⟨v, hv, hstart, hstop⟩ := isCut_iff.mp hcut
    refine ⟨iff_of_false nofun fun hnone => hnone v hv, fun w' hw' => ?_⟩
    obtain rfl := Option.some.inj hw'
    exact ⟨w.start_lt_stop, by omega, ⟨v, hv, hstart, hstop⟩, fun u hu => hmax _ hu.isCut⟩

/-- A look-back below zero allows no date at all. -/
theorem latestFrom_isLatest_of_lookback {aware : Bool} {lookback : Int} {found : Option Window}
    (h : c.latestFrom aware cursor (lookback + 1).toNat day none = .ok found) :
    IsLatest (c.IsCut cursor (day - lookback) day) found := by
  refine (latestFrom_isLatest h).congr fun w => ?_
  simp only [reduceCtorEq, false_or]
  by_cases hsome : 0 ≤ lookback + 1
  · have hfirst : day - ((lookback + 1).toNat : Int) + 1 = day - lookback := by omega
    rw [hfirst]
  · refine iff_of_false ?_ ?_
    · rintro ⟨d, hlow, hhigh, _⟩
      omega
    · rintro ⟨d, hlow, hhigh, _⟩
      omega

end ShiftCalendar

open ShiftCalendar in
/-- From a naive instant, the search over the dates that a look-back allows finds nothing exactly if no window starts on
them and before the instant. Else it finds the start of such a window and the end of its part before the instant, which
is the latest of all these ends, and a search that never stops early finds the same. It leaves the range of dates only
where a date of the look-back is missing, or the second date after the instant's own. So each round of a walk brings
down its cursor and the work that is left, and no walk goes on for ever. -/
theorem latestFrom_isExhaustive (c : ShiftCalendar) {reference : Instant} (hnaive : reference.offset = none)
    (lookback : Int) (clock : ShiftClock) :
    ((c.latestFrom reference.isAware reference.micros (lookback + 1).toNat reference.date.day none =
          .error .outOfRange ∧
        0 ≤ lookback ∧ (reference.date.day < lookback ∨ dateCount ≤ reference.date.day + 2)) ∨
      ∃ found,
        c.latestFrom reference.isAware reference.micros (lookback + 1).toNat reference.date.day none = .ok found ∧
        (found = none ↔
          ∀ v, ¬ c.IsCandidate reference.micros (reference.date.day - lookback) reference.date.day v) ∧
        (∀ w, found = some w → w.start < w.stop ∧ w.stop ≤ reference.micros ∧
          (∃ v, c.IsCandidate reference.micros (reference.date.day - lookback) reference.date.day v ∧
            w.start = v.start ∧ w.stop = min v.stop reference.micros) ∧
          ∀ v, c.IsCandidate reference.micros (reference.date.day - lookback) reference.date.day v →
            min v.stop reference.micros ≤ w.stop) ∧
        (c.latestOfAll reference.micros (lookback + 1).toNat reference.date.day none = .ok found ∨
          c.latestOfAll reference.micros (lookback + 1).toNat reference.date.day none = .error .outOfRange ∧
            reference.date.day < lookback)) ∧
    (∀ before after, clock.Round none before after →
      after.cursor < before.cursor ∧ 0 ≤ after.remaining ∧ after.remaining < before.remaining ∧
        clock.walk none before.cursor before.remaining = clock.walk none after.cursor after.remaining) ∧
    WellFounded fun after before => clock.Round none before after := by
  have hclock : reference.isAware = false := by
    rw [Instant.isAware, hnaive]
    rfl
  have hday := reference.date.inRange
  refine ⟨?_, fun before after hround => ?_, clock.wellFounded_round none⟩
  · rw [hclock]
    cases hsearch : c.latestFrom false reference.micros (lookback + 1).toNat reference.date.day none with
    | error e =>
      obtain ⟨rfl, hdates, hmissing⟩ := latestFrom_outside hsearch
      exact .inl ⟨rfl, by omega, by omega⟩
    | ok found =>
      obtain ⟨hnone, hsome⟩ := isLatest_isCut (latestFrom_isLatest_of_lookback hsearch)
      refine .inr ⟨found, rfl, hnone, hsome, ?_⟩
      rcases latestOfAll_of_latestFrom hsearch with hall | ⟨hout, hfirst⟩
      · exact .inl hall
      · exact .inr ⟨hout, by omega⟩
  · obtain ⟨hnonneg, hlt⟩ := hround.remaining_lt
    exact ⟨hround.cursor_lt, hnonneg, hlt, hround.walk_eq⟩

/-- This is the search of clocks, whose look-backs are never below zero. -/
example (c : ShiftCalendar) (reference : Instant) (lookback : Nat) :
    c.latestWindow reference.isAware reference.micros lookback =
      c.latestFrom reference.isAware reference.micros ((lookback : Int) + 1).toNat reference.date.day none := rfl

/-- On a Tuesday at ten the shifts of Sunday are not looked at, as the one that has begun at five ends last. Nothing
else would be found with them, and the first round of a walk from there leads to five. -/
theorem latestFrom_isExhaustive_aroundTheClock :
    (Instant.onTuesday 10).offset = none ∧
      ShiftClock.aroundTheClock.calendar.latestOfAll (Instant.onTuesday 10).micros 4 738599 none =
        .ok (some ⟨738599 * dayMicros + 18000000000, 738599 * dayMicros + 36000000000, by decide⟩) ∧
      ∃ after, ShiftClock.aroundTheClock.Round none ⟨(Instant.onTuesday 10).micros, 36000000000⟩ after ∧
        after.cursor < (Instant.onTuesday 10).micros ∧ after.remaining < 36000000000 := by
  have hnaive : (Instant.onTuesday 10).offset = none := rfl
  have hsearch := ShiftClock.latestWindow_aroundTheClock_early
  have hround : ShiftClock.aroundTheClock.Round none ⟨(Instant.onTuesday 10).micros, 36000000000⟩ _ :=
    .take (by decide) hsearch
  obtain ⟨hfinds, hrounds, _⟩ :=
    latestFrom_isExhaustive ShiftClock.aroundTheClock.calendar hnaive 3 .aroundTheClock
  obtain ⟨hlower, _, hless, _⟩ := hrounds _ _ hround
  refine ⟨hnaive, ?_, _, hround, hlower, hless⟩
  rcases hfinds with ⟨hout, _⟩ | ⟨found, hok, _, _, hall⟩
  · cases hsearch.symm.trans hout
  · obtain rfl := Except.ok.inj (hok.symm.trans hsearch)
    rcases hall with hsame | ⟨_, hfirst⟩
    · exact hsame
    · exact absurd hfirst (by decide)

end SupplyPlan
