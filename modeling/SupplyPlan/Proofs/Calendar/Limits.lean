import SupplyPlan.Proofs.Calendar.Exhaustive

namespace SupplyPlan

/-- The last date from which windows can be searched, as those of its date may end on the second date after it. -/
def Date.lastSearchable : Date := ⟨3652056, by decide⟩

example : Date.ofCivil? 9999 12 29 = some .lastSearchable := by decide

theorem Date.lastSearchable_day : lastSearchable.day + 3 = dateCount := rfl

theorem IsLatest.stop_lt_iff {P : Window → Prop} {found : Option Window} (h : IsLatest P found) (n : Int) :
    (∀ w, found = some w → w.stop < n) ↔ ∀ w, P w → w.stop < n := by
  cases found with
  | none => exact iff_of_true nofun fun w hw => absurd hw (h w)
  | some b =>
    obtain ⟨hkind, hlatest⟩ := h
    constructor
    · intro hfound w hw
      exact (hlatest w hw).trans_lt (hfound b rfl)
    · rintro hall w ⟨⟩
      exact hall b hkind

namespace ShiftCalendar

variable {c : ShiftCalendar} {cursor day : Int} {dates lookback : Nat}

theorem stop_of_isCut {first last : Int} {w : Window} (hw : c.IsCut cursor first last w) :
    w.stop < (last + 2) * dayMicros := by
  obtain ⟨d, _, hlast, v, hv, hcut⟩ := hw
  obtain ⟨_, _, hend⟩ := bounds_of_mem_windowsOn hv
  obtain ⟨_, _, hstop⟩ := Window.before?_eq_some_iff.mp hcut
  unfold dayMicros at *
  omega

/-- A search whose dates go back beyond the first one has to stop early, and the first date lets it do so only for a
window that ends after the next one. The induction follows the search. Whatever its dates so far have led to, the
windows of the dates from the first one on decide. -/
theorem latestFrom_eq_outOfRange_iff {best : Option Window} (hday : 0 ≤ day ∧ day + 2 < dateCount)
    (hbeyond : day - dates + 1 < 0) :
    c.latestFrom false cursor dates day best = .error .outOfRange ↔
      (∀ w, best = some w → w.stop < 2 * dayMicros) ∧ ∀ w, c.IsCut cursor 0 day w → w.stop < 2 * dayMicros := by
  induction dates generalizing day best with
  | zero => omega
  | succ dates ih =>
    by_cases hreached : ∃ b, best = some b ∧ (day + 2) * dayMicros ≤ b.stop
    · obtain ⟨b, rfl, hstop⟩ := hreached
      rw [latestFrom_of_reached hday hstop]
      refine iff_of_false nofun fun hearly => ?_
      have hbefore := hearly.1 b rfl
      unfold dayMicros at *
      omega
    · have hopen (b : Window) (hb : best = some b) : b.stop < (day + 2) * dayMicros :=
        not_le.mp fun hstop => hreached ⟨b, hb, hstop⟩
      have htoday := (latestOn_isLatest c cursor ⟨day, by omega⟩ best).stop_lt_iff (2 * dayMicros)
      simp only [or_imp, forall_and] at htoday
      rw [latestFrom_of_open hday hopen]
      rcases hday.1.eq_or_lt with rfl | hlater
      · obtain ⟨more, rfl⟩ : ∃ more, dates = more + 1 := ⟨dates - 1, by omega⟩
        rw [latestFrom_of_outside (.inl (by decide))]
        exact iff_of_true rfl ⟨hopen, fun w hw => stop_of_isCut hw⟩
      · have hsplit (w : Window) : c.IsCut cursor 0 day w ↔ c.IsCut cursor day day w ∨ c.IsCut cursor 0 (day - 1) w :=
          isCut_split hday.1 (by omega)
        simp only [hsplit, or_imp, forall_and]
        rw [ih (by omega) (by omega), htoday, and_assoc]

theorem latestWindow_eq_outOfRange_iff (hcursor : 0 ≤ cursor) :
    c.latestWindow false cursor lookback = .error .outOfRange ↔
      dateCount ≤ cursor / dayMicros + 2 ∨
        cursor / dayMicros < lookback ∧ ∀ w, c.IsCut cursor 0 (cursor / dayMicros) w → w.stop < 2 * dayMicros := by
  have hday : 0 ≤ cursor / dayMicros := Int.ediv_nonneg hcursor (by decide)
  unfold latestWindow
  by_cases hlate : dateCount ≤ cursor / dayMicros + 2
  · exact iff_of_true (latestFrom_of_outside (.inr hlate)) (.inl hlate)
  · rw [or_iff_right hlate]
    by_cases hnear : cursor / dayMicros < lookback
    · rw [latestFrom_eq_outOfRange_iff ⟨hday, not_le.mp hlate⟩ (by omega), and_iff_right hnear]
      exact and_iff_right nofun
    · refine iff_of_false (fun hout => ?_) fun hearly => hnear hearly.1
      obtain ⟨_, _, hmissing⟩ := latestFrom_outside hout
      omega

end ShiftCalendar

namespace ShiftClock

variable {clock : ShiftClock} {p : Progress}

theorem walk_of_lastSearchable_lt (hleft : 0 < p.remaining) (hdate : Date.lastSearchable.day < p.cursor / dayMicros) :
    clock.walk none p.cursor p.remaining = .error .outOfRange := by
  have hlast := Date.lastSearchable_day
  exact walk_of_isAtEdge hleft (.inr (by omega))

/-- A walk only gets to earlier dates. So the dates after its cursors exist if they do after the first of them. -/
theorem walk_eq_outOfRange_iff_of_le (hcursor : 0 ≤ p.cursor) (hdate : p.cursor / dayMicros ≤ Date.lastSearchable.day) :
    clock.walk none p.cursor p.remaining = .error .outOfRange ↔
      ∃ q, clock.Reaches none p q ∧ 0 < q.remaining ∧ q.cursor / dayMicros < clock.lookback ∧
        ∀ w, clock.calendar.IsCut q.cursor 0 (q.cursor / dayMicros) w → w.stop < 2 * dayMicros := by
  have hlookback := clock.lookback_pos
  have hlast := Date.lastSearchable_day
  rw [walk_eq_outOfRange_iff ⟨hcursor, by unfold dayMicros at *; omega⟩]
  refine exists_congr fun q => and_congr_right fun hreaches => and_congr_right fun _ => ?_
  have hlower := cursor_le_of_reaches hreaches
  have hlate : ¬ dateCount ≤ q.cursor / dayMicros + 2 := by
    unfold dayMicros at *
    omega
  rw [Option.isSome_none, ShiftCalendar.latestWindow_eq_outOfRange_iff (hreaches.cursor_nonneg hcursor),
    or_iff_right hlate]
  exact and_congr_left' (by omega)

end ShiftClock

/-- Work that ends at a naive instant on a date from which windows can be searched leaves the range of dates only where
its walk gets to a date closer to the first one than the clock looks back: there exactly if no window up to its cursor
ends after the first two dates. Work that ends on one of the two later dates always leaves the range,
whatever the shifts. -/
theorem subtract_shifts_eq_outOfRange_iff {clock : ShiftClock} {finish : Instant} (hnaive : finish.offset = none)
    {d : Duration} (hd : 0 < d.micros) :
    (finish.date.day ≤ Date.lastSearchable.day →
      ((WorkingCalendar.shifts clock).subtract finish d = .error .outOfRange ↔
        ∃ p, clock.Reaches none ⟨finish.micros, d.micros⟩ p ∧ 0 < p.remaining ∧
          p.cursor / dayMicros < clock.lookback ∧
          ∀ w, clock.calendar.IsCut p.cursor 0 (p.cursor / dayMicros) w → w.stop < 2 * dayMicros)) ∧
    (Date.lastSearchable.day < finish.date.day →
      (WorkingCalendar.shifts clock).subtract finish d = .error .outOfRange) := by
  rw [WorkingCalendar.subtract_shifts hd.le, hnaive]
  exact ⟨fun hdate => ShiftClock.walk_eq_outOfRange_iff_of_le (p := ⟨finish.micros, d.micros⟩) finish.inRange.1 hdate,
    fun hdate => ShiftClock.walk_of_lastSearchable_lt (p := ⟨finish.micros, d.micros⟩) hd hdate⟩

/-- On the third date at ten, five hours are found in the shift that has begun at five. For a sixth one the search
misses a date, although the shift of the day before would do. On the day before the last one not even a minute is found,
since a window that starts there might end on a date that does not exist. -/
theorem subtract_shifts_eq_outOfRange_atEdges :
    (WorkingCalendar.shifts .aroundTheClock).subtract (.combine ⟨2, by decide⟩ (.hour 10 (by decide)))
        (.minutes 360 (by decide)) = .error .outOfRange ∧
      (WorkingCalendar.shifts .aroundTheClock).subtract (.combine ⟨3652057, by decide⟩ (.hour 10 (by decide)))
        (.minutes 1 (by decide)) = .error .outOfRange := by
  constructor
  · have hnaive : (Instant.combine ⟨2, by decide⟩ (.hour 10 (by decide))).offset = none := rfl
    have hround : ShiftClock.aroundTheClock.Round none ⟨2 * dayMicros + 36000000000, 21600000000⟩
        ⟨2 * dayMicros + 18000000000, 3600000000⟩ :=
      .take (w := ⟨2 * dayMicros + 18000000000, 2 * dayMicros + 36000000000, by decide⟩) (by decide) rfl
    have hbefore : ShiftClock.aroundTheClock.calendar.latestWindow false (2 * dayMicros + 18000000000) 2 =
        .ok (some ⟨dayMicros + 18000000000, dayMicros + 46800000000, by decide⟩) := rfl
    have hlatest := (ShiftCalendar.latestWindow_isLatest hbefore).2
    exact ((subtract_shifts_eq_outOfRange_iff hnaive (by decide)).1 (by decide)).mpr
      ⟨_, .single hround, by decide, by decide, fun w hw => (hlatest w hw).trans_lt (by decide)⟩
  · have hnaive : (Instant.combine ⟨3652057, by decide⟩ (.hour 10 (by decide))).offset = none := rfl
    exact (subtract_shifts_eq_outOfRange_iff hnaive (by decide)).2 (by decide)

end SupplyPlan
