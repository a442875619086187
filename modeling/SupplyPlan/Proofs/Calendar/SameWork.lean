import SupplyPlan.Proofs.Calendar.Availability

namespace SupplyPlan

namespace Window

/-- Two searches find nothing, or windows that end together and start on the same date, but perhaps at different times
of it. -/
inductive Alike : Option Window → Option Window → Prop where
  | none : Alike none none
  | some {w v : Window} (hstop : w.stop = v.stop) (hday : w.start / dayMicros = v.start / dayMicros) :
      Alike (some w) (some v)

theorem Alike.symm {found found' : Option Window} (h : Alike found found') : Alike found' found := by
  cases h with
  | none => exact .none
  | some hstop hday => exact .some hstop.symm hday.symm

theorem later_cases (best : Option Window) (w : Window) :
    later best w = best ∨ later best w = some w ∧ ∀ b, best = some b → b.stop < w.stop := by
  cases best with
  | none => exact .inr ⟨rfl, nofun⟩
  | some b =>
    unfold later
    by_cases h : b.stop < w.stop
    · refine .inr ⟨if_pos h, fun b' hb' => ?_⟩
      cases hb'
      exact h
    · exact .inl (if_neg h)

/-- A search drops an earlier outcome only for a window that ends later. -/
theorem foldl_later_cases (windows : List Window) (best : Option Window) :
    windows.foldl later best = best ∨
      ∃ w ∈ windows, windows.foldl later best = some w ∧ ∀ b, best = some b → b.stop < w.stop := by
  induction windows generalizing best with
  | nil => exact .inl rfl
  | cons w rest ih =>
    rw [List.foldl_cons]
    rcases later_cases best w with hkept | ⟨hnew, hlater⟩
    · rw [hkept]
      rcases ih best with hbest | ⟨v, hv, hfound, hlater⟩
      · exact .inl hbest
      · exact .inr ⟨v, .tail w hv, hfound, hlater⟩
    · rw [hnew]
      rcases ih (some w) with hbest | ⟨v, hv, hfound, hlater'⟩
      · exact .inr ⟨w, .head rest, hbest, hlater⟩
      · exact .inr ⟨v, .tail w hv, hfound, fun b hb => (hlater b hb).trans (hlater' w rfl)⟩

end Window

namespace ShiftCalendar

variable {c c' : ShiftCalendar} {cursor day : Int} {lookback : Nat}

/-- Whatever date it is, the windows that start on it hold the same microseconds on both calendars. -/
def SameWork (c c' : ShiftCalendar) : Prop :=
  ∀ (d : Date) (t : Int), (∃ w ∈ c.windowsOn d.day, w.Covers t) ↔ ∃ w ∈ c'.windowsOn d.day, w.Covers t

theorem SameWork.symm (h : c.SameWork c') : c'.SameWork c := fun d t => (h d t).symm

/-- What ends on one calendar before the cursor has a counterpart on the other one that ends no earlier. -/
theorem SameWork.exists_isCut (hsame : c.SameWork c') {d : Date} {w : Window}
    (hw : c.IsCut cursor d.day d.day w) : ∃ v, c'.IsCut cursor d.day d.day v ∧ w.stop ≤ v.stop := by
  obtain ⟨e, hfirst, hlast, u, hu, hcut⟩ := hw
  obtain ⟨_, hstart, hstop⟩ := Window.before?_eq_some_iff.mp hcut
  have hwindow := w.start_lt_stop
  rw [le_antisymm hlast hfirst] at hu
  obtain ⟨v, hv, hlo, hhi⟩ := (hsame d (w.stop - 1)).mp ⟨u, hu, by omega, by omega⟩
  refine ⟨⟨v.start, min v.stop cursor, by omega⟩, ⟨d, le_rfl, le_rfl, v, hv, ?_⟩, ?_⟩
  · exact Window.before?_eq_some_iff.mpr ⟨by omega, rfl, rfl⟩
  · simp only
    omega

theorem day_of_isCut {d : Date} {w : Window} (hw : c.IsCut cursor d.day d.day w) : w.start / dayMicros = d.day := by
  obtain ⟨e, hfirst, hlast, u, hu, hcut⟩ := hw
  obtain ⟨_, hstart, _⟩ := Window.before?_eq_some_iff.mp hcut
  obtain ⟨hlo, hhi, _⟩ := bounds_of_mem_windowsOn hu
  unfold dayMicros at *
  omega

theorem latestOn_cases (c : ShiftCalendar) (cursor : Int) (d : Date) (best : Option Window) :
    c.latestOn cursor d.day best = best ∨ ∃ w, c.latestOn cursor d.day best = some w ∧
      c.IsCut cursor d.day d.day w ∧ ∀ b, best = some b → b.stop < w.stop := by
  rcases Window.foldl_later_cases ((c.windowsOn d.day).filterMap (·.before? cursor)) best with
    hbest | ⟨w, hw, hfound, hlater⟩
  · exact .inl hbest
  · obtain ⟨v, hv, hcut⟩ := List.mem_filterMap.mp hw
    exact .inr ⟨w, hfound, ⟨d, le_rfl, le_rfl, v, hv, hcut⟩, hlater⟩

/-- The windows of one date lead both calendars on to outcomes that end at the same time. -/
theorem SameWork.latestOn_stop (hsame : c.SameWork c') {d : Date} {best best' : Option Window}
    (hbest : Window.Alike best best') {w : Window} (hw : c.latestOn cursor d.day best = some w) :
    ∃ v, c'.latestOn cursor d.day best' = some v ∧ w.stop ≤ v.stop := by
  have hkind := latestOn_isLatest c cursor d best
  have hlatest := latestOn_isLatest c' cursor d best'
  rw [hw] at hkind
  have hcounterpart : ∃ u, (best' = some u ∨ c'.IsCut cursor d.day d.day u) ∧ w.stop ≤ u.stop := by
    rcases hkind.1 with rfl | hcut
    · cases hbest with
      | some hends _ => exact ⟨_, .inl rfl, hends.le⟩
    · obtain ⟨u, hu, hle⟩ := hsame.exists_isCut hcut
      exact ⟨u, .inr hu, hle⟩
  obtain ⟨u, hu, hle⟩ := hcounterpart
  cases hfound : c'.latestOn cursor d.day best' with
  | none =>
    rw [hfound] at hlatest
    exact absurd hu (hlatest u)
  | some v =>
    rw [hfound] at hlatest
    exact ⟨v, rfl, hle.trans (hlatest.2 u hu)⟩

/-- If one of them keeps its earlier outcome, the other one finds nothing later either. -/
theorem SameWork.latestOn_kept (hsame : c.SameWork c') {d : Date} {best best' : Option Window}
    (hbest : Window.Alike best best') (hkept : c.latestOn cursor d.day best = best) :
    c'.latestOn cursor d.day best' = best' := by
  rcases latestOn_cases c' cursor d best' with hkept' | ⟨v, hv, _, hlater⟩
  · exact hkept'
  · obtain ⟨w, hw, hstop⟩ := hsame.symm.latestOn_stop hbest.symm hv
    rw [hkept] at hw
    cases hw
    cases hbest with
    | some hends _ =>
      have hbefore := hlater _ rfl
      omega

/-- Outcomes alike go on to outcomes alike: both are kept, or both are replaced by windows that start on the date. -/
theorem SameWork.latestOn (hsame : c.SameWork c') (cursor : Int) (d : Date) {best best' : Option Window}
    (hbest : Window.Alike best best') :
    Window.Alike (c.latestOn cursor d.day best) (c'.latestOn cursor d.day best') := by
  rcases latestOn_cases c cursor d best with hkept | ⟨w, hw, hcut, _⟩
  · rwa [hkept, hsame.latestOn_kept hbest hkept]
  · rcases latestOn_cases c' cursor d best' with hkept' | ⟨v, hv, hcut', _⟩
    · rwa [hsame.symm.latestOn_kept hbest.symm hkept', hkept']
    · obtain ⟨v', hv', hle⟩ := hsame.latestOn_stop hbest hw
      obtain ⟨w', hw', hge⟩ := hsame.symm.latestOn_stop hbest.symm hv
      obtain rfl := Option.some.inj (hv.symm.trans hv')
      obtain rfl := Option.some.inj (hw.symm.trans hw')
      rw [hw, hv]
      exact .some (le_antisymm hle hge) ((day_of_isCut hcut).trans (day_of_isCut hcut').symm)

section Steps

variable {dates : Nat} {best : Option Window}

theorem latestFrom_of_outside (hday : day < 0 ∨ dateCount ≤ day + 2) :
    c.latestFrom false cursor (dates + 1) day best = .error .outOfRange := by
  rw [ShiftCalendar.latestFrom, if_pos (by simpa using hday)]

/-- A window that no earlier date can outlast ends the search. -/
theorem latestFrom_of_reached {b : Window} (hday : 0 ≤ day ∧ day + 2 < dateCount)
    (hstop : (day + 2) * dayMicros ≤ b.stop) :
    c.latestFrom false cursor (dates + 1) day (some b) = .ok (some b) := by
  rw [ShiftCalendar.latestFrom, if_neg (by simpa using hday), if_pos (by simpa using hstop)]

theorem latestFrom_of_open (hday : 0 ≤ day ∧ day + 2 < dateCount)
    (hopen : ∀ b, best = some b → b.stop < (day + 2) * dayMicros) :
    c.latestFrom false cursor (dates + 1) day best =
      c.latestFrom false cursor dates (day - 1) (c.latestOn cursor day best) := by
  have hstop : ¬ (best.any fun b => (day + 2) * dayMicros ≤ b.stop) = true := by
    cases best with
    | none => simp
    | some b => simpa using hopen b rfl
  rw [ShiftCalendar.latestFrom, if_neg (by simpa using hday), if_neg hstop, if_neg (by simp)]

theorem latestFrom_of_none (hday : 0 ≤ day ∧ day + 2 < dateCount) :
    c.latestFrom false cursor (dates + 1) day none =
      c.latestFrom false cursor dates (day - 1) (c.latestOn cursor day none) :=
  latestFrom_of_open hday nofun

end Steps

/-- Searches that go on from outcomes alike leave the range of dates together, and end with outcomes alike. They even
stop early on the same date, because that depends on ends only. -/
theorem SameWork.latestFrom (hsame : c.SameWork c') {dates : Nat} {best best' : Option Window}
    (hbest : Window.Alike best best') :
    (∃ e, c.latestFrom false cursor dates day best = .error e ∧
      c'.latestFrom false cursor dates day best' = .error e) ∨
    ∃ found found', c.latestFrom false cursor dates day best = .ok found ∧
      c'.latestFrom false cursor dates day best' = .ok found' ∧ Window.Alike found found' := by
  induction dates generalizing day best best' with
  | zero => exact .inr ⟨best, best', rfl, rfl, hbest⟩
  | succ dates ih =>
    by_cases houtside : day < 0 ∨ dateCount ≤ day + 2
    · exact .inl ⟨_, latestFrom_of_outside houtside, latestFrom_of_outside houtside⟩
    · have hday : 0 ≤ day ∧ day + 2 < dateCount := by omega
      have hnext := @ih (day - 1) _ _ (hsame.latestOn cursor ⟨day, by omega⟩ hbest)
      cases hbest with
      | none =>
        rw [latestFrom_of_none hday, latestFrom_of_none hday]
        exact hnext
      | @some w v hstop hdate =>
        by_cases hreached : (day + 2) * dayMicros ≤ w.stop
        · exact .inr ⟨_, _, latestFrom_of_reached hday hreached, latestFrom_of_reached hday (hstop ▸ hreached),
            .some hstop hdate⟩
        · have hopen (b : Window) (hb : some w = some b) : b.stop < (day + 2) * dayMicros := by
            cases hb
            exact not_le.mp hreached
          have hopen' (b : Window) (hb : some v = some b) : b.stop < (day + 2) * dayMicros := by
            cases hb
            omega
          rw [latestFrom_of_open hday hopen, latestFrom_of_open hday hopen']
          exact hnext

theorem SameWork.latestWindow (hsame : c.SameWork c') (cursor : Int) (lookback : Nat) :
    (∃ e, c.latestWindow false cursor lookback = .error e ∧ c'.latestWindow false cursor lookback = .error e) ∨
    ∃ found found', c.latestWindow false cursor lookback = .ok found ∧
      c'.latestWindow false cursor lookback = .ok found' ∧ Window.Alike found found' :=
  hsame.latestFrom .none

/-- The date is so near to the first or the last date that a search from it has to leave the range of dates. -/
def IsAtEdge (lookback : Nat) (day : Int) : Prop := day < min lookback 2 ∨ dateCount ≤ day + 2

/-- A search that succeeds has looked at all its dates, or it has stopped early at a window that ends after the second
midnight of the calendar. -/
theorem latestFrom_ok {aware : Bool} {dates : Nat} {best found : Option Window}
    (h : c.latestFrom aware cursor dates day best = .ok found) (hdates : 0 < dates) :
    0 ≤ day - dates + 1 ∨ ∃ b, found = some b ∧ 2 * dayMicros ≤ b.stop := by
  fun_induction latestFrom c aware cursor dates day best with
  | case1 => omega
  | case2 => cases h
  | case3 dates day best hrange hstop =>
    obtain rfl : best = found := Except.ok.inj h
    simp only [Bool.or_eq_true, decide_eq_true_eq, not_or, not_lt, not_le] at hrange
    cases best with
    | none => simp at hstop
    | some b =>
      simp only [Option.any_some, decide_eq_true_eq] at hstop
      refine .inr ⟨b, rfl, ?_⟩
      unfold dayMicros at *
      omega
  | case4 => cases h
  | case5 dates day best hrange _ _ ih =>
    simp only [Bool.or_eq_true, decide_eq_true_eq, not_or, not_lt, not_le] at hrange
    by_cases hmore : 0 < dates
    · rcases ih h hmore with hall | hearly
      · exact .inl (by omega)
      · exact .inr hearly
    · exact .inl (by omega)

theorem latestWindow_of_isAtEdge (hedge : IsAtEdge lookback (cursor / dayMicros)) :
    c.latestWindow false cursor lookback = .error .outOfRange := by
  cases hsearch : c.latestWindow false cursor lookback with
  | error e =>
    rcases latestWindow_error hsearch with rfl | ⟨_, haware⟩
    · rfl
    · cases haware
  | ok found =>
    exfalso
    obtain ⟨hlow, hhigh⟩ := latestWindow_inRange hsearch
    rcases hedge with hfirst | hlast
    · rcases latestFrom_ok hsearch (Nat.succ_pos lookback) with hall | ⟨b, rfl, hstop⟩
      · omega
      · have hle := (covers_of_latestWindow hsearch).1
        unfold dayMicros at *
        omega
    · omega

/-- Nothing ends later than at the cursor. -/
theorem latestOn_of_stop_eq {w : Window} (hstop : w.stop = cursor) :
    c.latestOn cursor day (some w) = some w := by
  rcases Window.foldl_later_cases ((c.windowsOn day).filterMap (·.before? cursor)) (some w) with
    hbest | ⟨v, hv, _, hlater⟩
  · exact hbest
  · obtain ⟨u, _, hcut⟩ := List.mem_filterMap.mp hv
    obtain ⟨_, _, hend⟩ := Window.before?_eq_some_iff.mp hcut
    have hbefore := hlater w rfl
    omega

/-- Work that began on the date and goes on at the cursor is found there. -/
theorem latestOn_of_covered (d : Date) (hcovered : ∃ v ∈ c.windowsOn d.day, v.Covers (cursor - 1)) :
    ∃ w, c.latestOn cursor d.day none = some w ∧ w.stop = cursor ∧
      ∀ t, w.Covers t → ∃ v ∈ c.windowsOn d.day, v.Covers t := by
  obtain ⟨v, hv, hlo, hhi⟩ := hcovered
  have hlatest := latestOn_isLatest c cursor d none
  have hcut : c.IsCut cursor d.day d.day ⟨v.start, min v.stop cursor, by omega⟩ :=
    ⟨d, le_rfl, le_rfl, v, hv, Window.before?_eq_some_iff.mpr ⟨by omega, rfl, rfl⟩⟩
  cases hfound : c.latestOn cursor d.day none with
  | none =>
    rw [hfound] at hlatest
    exact absurd (.inr hcut) (hlatest _)
  | some w =>
    rw [hfound] at hlatest
    obtain ⟨hnone | ⟨e, hfirst, hlast, u, hu, hcut'⟩, hmax⟩ := hlatest
    · cases hnone
    · obtain ⟨_, hstart, hstop⟩ := Window.before?_eq_some_iff.mp hcut'
      have hle : min v.stop cursor ≤ w.stop := hmax _ (.inr hcut)
      rw [le_antisymm hlast hfirst] at hu
      refine ⟨w, rfl, by omega, fun t ht => ⟨u, hu, ?_⟩⟩
      obtain ⟨hlo', hhi'⟩ := ht
      exact ⟨by omega, by omega⟩

/-- A window that ends at the cursor ends the search. Only the date before is looked at in vain. -/
theorem latestWindow_of_latestOn (hlookback : 1 ≤ lookback) (hedge : ¬ IsAtEdge lookback day)
    (hcursor : cursor / dayMicros = day) {w : Window} (hfound : c.latestOn cursor day none = some w)
    (hstop : w.stop = cursor) : c.latestWindow false cursor lookback = .ok (some w) := by
  unfold IsAtEdge at hedge
  obtain ⟨more, rfl⟩ : ∃ more, lookback = more + 1 := ⟨lookback - 1, by omega⟩
  have hopen (b : Window) (hb : some w = some b) : b.stop < (day - 1 + 2) * dayMicros := by
    cases hb
    unfold dayMicros at *
    omega
  rw [latestWindow, hcursor, latestFrom_of_none (by omega), hfound, latestFrom_of_open (by omega) hopen,
    latestOn_of_stop_eq hstop]
  cases more with
  | zero => rfl
  | succ more =>
    refine latestFrom_of_reached (by omega) ?_
    unfold dayMicros at *
    omega

/-- What a search finds is work that began on one date. -/
theorem exists_date_of_latestWindow {w : Window} (h : c.latestWindow false cursor lookback = .ok (some w)) :
    ∃ d : Date, w.start / dayMicros = d.day ∧ ∀ t, w.Covers t → ∃ v ∈ c.windowsOn d.day, v.Covers t := by
  obtain ⟨⟨d, _, _, v, hv, hcut⟩, _⟩ := latestWindow_isLatest h
  obtain ⟨_, hstart, hstop⟩ := Window.before?_eq_some_iff.mp hcut
  have hday := day_of_isCut ⟨d, le_rfl, le_rfl, v, hv, hcut⟩
  refine ⟨d, hday, fun t ht => ⟨v, hv, ?_⟩⟩
  obtain ⟨hlo, hhi⟩ := ht
  exact ⟨by omega, by omega⟩

end ShiftCalendar

/-- Two answers agree, unless one of them leaves the range of dates. -/
def AgreeInRange (answer answer' : Except PlanError Instant) : Prop :=
  answer = .error .outOfRange ∨ answer' = .error .outOfRange ∨ answer = answer'

theorem AgreeInRange.symm {answer answer' : Except PlanError Instant} (h : AgreeInRange answer answer') :
    AgreeInRange answer' answer := by
  rcases h with hout | hout | heq
  · exact .inr (.inl hout)
  · exact .inl hout
  · exact .inr (.inr heq.symm)

namespace ShiftClock

open ShiftCalendar

variable {clock clock' : ShiftClock} {cursor cursor' remaining : Int}

theorem walk_of_isAtEdge (hpos : 0 < remaining) (hedge : IsAtEdge clock.lookback.toNat (cursor / dayMicros)) :
    clock.walk none cursor remaining = .error .outOfRange :=
  walk_of_error none hpos (latestWindow_of_isAtEdge hedge)

/-- A walk through uninterrupted work that began on one date may as well be started further back in it. Other than in
`walk_eq_of_covered` it need not be supposed that both walks stay within the range of dates, because no search from a
date away from the edges leaves it. The induction is on what remains: the next cursor either has not come as far as the
other one, or it has overtaken it inside a window of the same date. -/
theorem walk_eq_of_date (d : Date) (hedge : ¬ IsAtEdge clock.lookback.toNat d.day)
    (hcursor : cursor / dayMicros = d.day) (hcursor' : cursor' / dayMicros = d.day) (hle : cursor' ≤ cursor)
    (hremaining : cursor - cursor' ≤ remaining)
    (hcovered : ∀ t, cursor' ≤ t → t < cursor → ∃ v ∈ clock.calendar.windowsOn d.day, v.Covers t) :
    clock.walk none cursor remaining = clock.walk none cursor' (remaining - (cursor - cursor')) := by
  induction hmeasure : remaining.toNat using Nat.strong_induction_on
    generalizing cursor cursor' remaining with
  | h n ih =>
    by_cases hmeet : cursor' = cursor
    · rw [hmeet, Int.sub_self, Int.sub_zero]
    · have hpos := clock.lookback_pos
      have hlast := hcovered (cursor - 1) (by omega) (by omega)
      obtain ⟨w, hfound, hstop, hinside⟩ := latestOn_of_covered d hlast
      have hsearch := latestWindow_of_latestOn (by omega) hedge hcursor hfound hstop
      have hwindow := w.start_lt_stop
      have hlength : w.length = w.stop - w.start := rfl
      rw [walk_of_some none (by omega) hsearch]
      by_cases hcrosses : cursor' ≤ w.stop - min w.length remaining
      · have hday : (w.stop - min w.length remaining) / dayMicros = d.day := by
          unfold dayMicros at *
          omega
        have hrest : remaining - min w.length remaining - (w.stop - min w.length remaining - cursor') =
            remaining - (cursor - cursor') := by omega
        rw [← hrest]
        exact ih _ (by omega) hday hcursor' hcrosses (by omega)
          (fun t hlo hhi => hcovered t hlo (by omega)) rfl
      · have hinside' (t : Int) (hlo : w.stop - min w.length remaining ≤ t) (hhi : t < cursor') :=
          hinside t ⟨by omega, by omega⟩
        have hday : (w.stop - min w.length remaining) / dayMicros = d.day := by
          obtain ⟨v, hv, hstart, _⟩ := hinside' _ le_rfl (not_le.mp hcrosses)
          obtain ⟨hmidnight, _, _⟩ := bounds_of_mem_windowsOn hv
          unfold dayMicros at *
          omega
        have hrest : remaining - (cursor - cursor') - (cursor' - (w.stop - min w.length remaining)) =
            remaining - min w.length remaining := by omega
        rw [← hrest]
        exact (ih _ (by omega) hcursor' hday (by omega) (by omega) hinside' rfl).symm

/-- Two walks take a round to the same end, one of them by a longer window. The other one gets through the rest of that
window too, if the work there began on the same date, and where it has got as far both go on from the same cursor. -/
theorem agreeInRange_of_round {w w' : Window} (hpos : 0 < remaining) (hstop : w.stop = w'.stop)
    (hstart : w.start ≤ w'.start) (d : Date) (hday : w.start / dayMicros = d.day)
    (hday' : w'.start / dayMicros = d.day)
    (hcovered : ∀ t, w.start ≤ t → t < w'.start → ∃ v ∈ clock'.calendar.windowsOn d.day, v.Covers t)
    (hless : ∀ cursor left, 0 ≤ left → left < remaining →
      AgreeInRange (clock.walk none cursor left) (clock'.walk none cursor left)) :
    AgreeInRange (clock.walk none (w.stop - min w.length remaining) (remaining - min w.length remaining))
      (clock'.walk none (w'.stop - min w'.length remaining) (remaining - min w'.length remaining)) := by
  have hwindow' := w'.start_lt_stop
  have hlength : w.length = w.stop - w.start := rfl
  have hlength' : w'.length = w'.stop - w'.start := rfl
  have hagree := hless (w.stop - min w.length remaining) (remaining - min w.length remaining) (by omega) (by omega)
  by_cases hdone : remaining ≤ w'.length
  · have htaken : min w.length remaining = min w'.length remaining := by omega
    rw [← htaken, ← hstop]
    exact hagree
  · have hcursor' : w'.stop - min w'.length remaining = w'.start := by omega
    rw [hcursor']
    by_cases hedge : IsAtEdge clock'.lookback.toNat d.day
    · exact .inr (.inl (walk_of_isAtEdge (by omega) (hday' ▸ hedge)))
    · have hrest : remaining - min w'.length remaining - (w'.start - (w.stop - min w.length remaining)) =
          remaining - min w.length remaining := by omega
      have hcursor : (w.stop - min w.length remaining) / dayMicros = d.day := by
        unfold dayMicros at *
        omega
      rw [walk_eq_of_date d hedge hday' hcursor (by omega) (by omega) (fun t hlo hhi => hcovered t (by omega) hhi),
        hrest]
      exact hagree

/-- Walks on calendars with the same work agree. The induction is on what remains: a round takes both of them to the
same end, and whichever of the two windows is the longer one, `agreeInRange_of_round` leads the walks together again. -/
theorem walk_agreeInRange (hid : clock'.calendar.id = clock.calendar.id) (hlookback : clock'.lookback = clock.lookback)
    (hgiven : clock'.given = clock.given) (hsame : clock.calendar.SameWork clock'.calendar)
    (hremaining : 0 ≤ remaining) :
    AgreeInRange (clock.walk none cursor remaining) (clock'.walk none cursor remaining) := by
  induction hmeasure : remaining.toNat using Nat.strong_induction_on generalizing cursor remaining with
  | h n ih =>
    by_cases hdone : remaining ≤ 0
    · rw [walk_of_nonpos none hdone, walk_of_nonpos none hdone]
      exact .inr (.inr rfl)
    · have hpos := not_le.mp hdone
      have hless (cursor left : Int) (hleft : 0 ≤ left) (hlt : left < remaining) :
          AgreeInRange (clock.walk none cursor left) (clock'.walk none cursor left) :=
        ih _ (by omega) hleft rfl
      rcases hsame.latestWindow cursor clock.lookback.toNat with ⟨e, hsearch, hsearch'⟩ |
        ⟨found, found', hsearch, hsearch', halike⟩
      · rw [walk_of_error none hpos hsearch, walk_of_error none hpos (hlookback ▸ hsearch')]
        exact .inr (.inr rfl)
      · cases halike with
        | none =>
          rw [walk_of_none none hpos hsearch, walk_of_none none hpos (hlookback ▸ hsearch'), hid, hgiven]
          exact .inr (.inr rfl)
        | @some w w' hstop hday =>
          rw [walk_of_some none hpos hsearch, walk_of_some none hpos (hlookback ▸ hsearch')]
          obtain ⟨d, hdate, hinside⟩ := exists_date_of_latestWindow hsearch
          obtain ⟨d', hdate', hinside'⟩ := exists_date_of_latestWindow hsearch'
          have hwindow := w.start_lt_stop
          have hwindow' := w'.start_lt_stop
          rcases Int.le_total w.start w'.start with hlonger | hshorter
          · exact agreeInRange_of_round hpos hstop hlonger d hdate (hday ▸ hdate)
              (fun t hlo hhi => (hsame d t).mp (hinside t ⟨hlo, by omega⟩)) hless
          · exact (agreeInRange_of_round hpos hstop.symm hshorter d' hdate' (hday ▸ hdate')
              (fun t hlo hhi => (hsame d' t).mpr (hinside' t ⟨hlo, by omega⟩))
              (fun cursor left hleft hlt => (hless cursor left hleft hlt).symm)).symm

/-- A walk from a naive instant ends at a start or where no window is found, unless it leaves the range of dates. -/
theorem walk_cases (clock : ShiftClock) (cursor remaining : Int) :
    clock.walk none cursor remaining = .error .outOfRange ∨
      (∃ start, clock.walk none cursor remaining = .ok start) ∨
      ∃ reached, clock.walk none cursor remaining =
        .error (.calendarUnavailable clock.calendar.id (.noWindow clock.given reached)) := by
  fun_induction walk clock none cursor remaining with
  | case1 cursor remaining _ e hsearch =>
    rcases latestWindow_error hsearch with rfl | ⟨_, haware⟩
    · exact .inl rfl
    · cases haware
  | case2 cursor =>
    rcases Instant.ofMicros_cases cursor none with hout | ⟨reached, hreached, _, _⟩
    · exact .inl (by rw [hout]; rfl)
    · exact .inr (.inr ⟨reached, by rw [hreached]; rfl⟩)
  | case3 _ _ _ _ _ _ ih => exact ih
  | case4 cursor =>
    rcases Instant.ofMicros_cases cursor none with hout | ⟨start, hstart, _, _⟩
    · exact .inl hout
    · exact .inr (.inl ⟨start, hstart⟩)

/-- The same search on another calendar. -/
def on (clock : ShiftClock) (c : ShiftCalendar) (hasShifts : c.shifts ≠ []) : ShiftClock :=
  { clock with calendar := c, hasShifts }

end ShiftClock

theorem WorkingCalendar.subtract_shifts_negative {clock : ShiftClock} {finish : Instant} {d : Duration}
    (hd : d.micros < 0) :
    (shifts clock).subtract finish d = .error (.invalidRequest (.negativeWorkingTime d)) := by
  simp only [subtract, refuseNegative_eq_error hd]
  rfl

/-- The evening of every Tuesday, which is over an hour after midnight. -/
def Shift.tuesdayEvening : Shift where
  name := none
  startTime := .hour 17 (by decide)
  endTime := .hour 1 (by decide)
  weekdays := [1]
  hasWeekday := by decide
  inWeek := by decide
  notEmpty := by decide

/-- The part of the evening before midnight, but for the last hour. -/
def Shift.firstPart : Shift := { Shift.tuesdayEvening with endTime := .hour 23 (by decide), notEmpty := by decide }

/-- The end of the evening and two hours before midnight. -/
def Shift.lastPart : Shift := { Shift.tuesdayEvening with startTime := .hour 19 (by decide), notEmpty := by decide }

/-- A calendar of shifts of the evening, searched four dates back. -/
def ShiftClock.evening (shifts : List Shift) (hasShifts : shifts ≠ []) : ShiftClock where
  calendar := { id := none, name := none, shifts, nonWorkingDays := [] }
  lookback := 4
  given := .proper (.int 4)
  hasShifts := hasShifts
  lookback_pos := by decide

namespace ShiftClock

def undivided : ShiftClock := evening [.tuesdayEvening] (by decide)

def divided : ShiftClock := evening [.lastPart, .firstPart] (by decide)

theorem evening_covers {shifts : List Shift} {hasShifts : shifts ≠ []} (htuesdays : ∀ s ∈ shifts, s.weekdays = [1])
    (day t : Int) : (∃ w ∈ (evening shifts hasShifts).calendar.windowsOn day, w.Covers t) ↔
      weekdayOf day = 1 ∧ ∃ s ∈ shifts, (s.window day).Covers t := by
  constructor
  · rintro ⟨w, hw, ht⟩
    obtain ⟨_, s, hs, hweekday, rfl⟩ := ShiftCalendar.mem_windowsOn.mp hw
    rw [htuesdays s hs, List.mem_singleton] at hweekday
    exact ⟨hweekday, s, hs, ht⟩
  · rintro ⟨hweekday, s, hs, ht⟩
    refine ⟨s.window day, ShiftCalendar.mem_windowsOn.mpr ⟨rfl, s, hs, ?_, rfl⟩, ht⟩
    rw [htuesdays s hs, List.mem_singleton]
    exact hweekday

theorem evening_sameWork : undivided.calendar.SameWork divided.calendar := by
  intro d t
  rw [undivided, divided, evening_covers (by simp [Shift.tuesdayEvening]),
    evening_covers (by simp [Shift.lastPart, Shift.firstPart, Shift.tuesdayEvening])]
  refine and_congr_right fun _ => ?_
  have hwhole : (Shift.tuesdayEvening.window d.day).Covers t ↔
      d.day * dayMicros + 61200000000 ≤ t ∧ t < (d.day + 1) * dayMicros + 3600000000 := Iff.rfl
  have hfirst : (Shift.firstPart.window d.day).Covers t ↔
      d.day * dayMicros + 61200000000 ≤ t ∧ t < d.day * dayMicros + 82800000000 := Iff.rfl
  have hlast : (Shift.lastPart.window d.day).Covers t ↔
      d.day * dayMicros + 68400000000 ≤ t ∧ t < (d.day + 1) * dayMicros + 3600000000 := Iff.rfl
  simp only [List.mem_cons, List.not_mem_nil, or_false, exists_eq_or_imp, exists_eq_left, hwhole, hfirst, hlast]
  unfold dayMicros
  omega

/-- Half past six is four and a half hours before eleven, in the undivided evening. -/
theorem subtract_evening :
    (WorkingCalendar.shifts undivided).subtract (.onTuesday 23) (.minutes 270 (by decide)) =
      .ok ⟨738599 * dayMicros + 66600000000, none, by decide⟩ := by
  have hsearch : undivided.calendar.latestWindow false (738599 * dayMicros + 82800000000)
      undivided.lookback.toNat =
        .ok (some ⟨738599 * dayMicros + 61200000000, 738599 * dayMicros + 82800000000, by decide⟩) := rfl
  rw [WorkingCalendar.subtract_shifts (by decide)]
  change walk _ none (738599 * dayMicros + 82800000000) 16200000000 = _
  rw [walk_of_some none (by decide) hsearch, walk_of_nonpos none (by decide)]
  rfl

/-- In its parts the same takes two rounds. -/
theorem subtract_evening_parts :
    (WorkingCalendar.shifts divided).subtract (.onTuesday 23) (.minutes 270 (by decide)) =
      .ok ⟨738599 * dayMicros + 66600000000, none, by decide⟩ := by
  have hsearch : divided.calendar.latestWindow false (738599 * dayMicros + 82800000000)
      divided.lookback.toNat =
        .ok (some ⟨738599 * dayMicros + 68400000000, 738599 * dayMicros + 82800000000, by decide⟩) := rfl
  have hsearch' : divided.calendar.latestWindow false (738599 * dayMicros + 68400000000)
      divided.lookback.toNat =
        .ok (some ⟨738599 * dayMicros + 61200000000, 738599 * dayMicros + 68400000000, by decide⟩) := rfl
  rw [WorkingCalendar.subtract_shifts (by decide)]
  change walk _ none (738599 * dayMicros + 82800000000) 16200000000 = _
  rw [walk_of_some none (by decide) hsearch]
  change walk _ none (738599 * dayMicros + 68400000000) 1800000000 = _
  rw [walk_of_some none (by decide) hsearch', walk_of_nonpos none (by decide)]
  rfl

end ShiftClock

/-- A negative span of work is placed nowhere, and that is not the calendar's fault. -/
theorem not_subtract_shifts_eq_of_sameWork : ¬ ∀ (clock : ShiftClock) (c : ShiftCalendar) (hasShifts : c.shifts ≠ [])
    (finish : Instant) (d : Duration), c.id = clock.calendar.id → clock.calendar.SameWork c → finish.offset = none →
      (WorkingCalendar.shifts clock).subtract finish d = .error .outOfRange ∨
      (WorkingCalendar.shifts (clock.on c hasShifts)).subtract finish d = .error .outOfRange ∨
      (∃ start, (WorkingCalendar.shifts clock).subtract finish d = .ok start ∧
        (WorkingCalendar.shifts (clock.on c hasShifts)).subtract finish d = .ok start) ∨
      ∃ ref fault, (WorkingCalendar.shifts clock).subtract finish d = .error (.calendarUnavailable ref fault) ∧
        (WorkingCalendar.shifts (clock.on c hasShifts)).subtract finish d =
          .error (.calendarUnavailable ref fault) := by
  intro hall
  have hnegative : Duration.micros ⟨-1800000000, by decide⟩ < 0 := by decide
  have hsame : ShiftClock.undivided.calendar.SameWork ShiftClock.undivided.calendar := fun _ _ => Iff.rfl
  have hclaim := hall .undivided _ (by decide) (.onTuesday 23) ⟨-1800000000, by decide⟩ rfl hsame rfl
  rw [WorkingCalendar.subtract_shifts_negative hnegative, WorkingCalendar.subtract_shifts_negative hnegative] at hclaim
  rcases hclaim with hout | hout | ⟨_, hok, _⟩ | ⟨_, _, hunavailable, _⟩
  · cases hout
  · cases hout
  · cases hok
  · cases hunavailable

/-- Work only depends on when people work, and not on how their shifts are put down. On two calendars with the same
name and the same work on each date, a span of work starts at the same time, or both report that from the same moment
on they found no working time; a negative span is refused by both. An end of the range of dates may be met by one of
them only. -/
theorem subtract_shifts_of_sameWork {clock : ShiftClock} {c : ShiftCalendar} (hasShifts : c.shifts ≠ [])
    (hid : c.id = clock.calendar.id) (hsame : clock.calendar.SameWork c) {finish : Instant}
    (hnaive : finish.offset = none) (d : Duration) :
    (WorkingCalendar.shifts clock).subtract finish d = .error .outOfRange ∨
    (WorkingCalendar.shifts (clock.on c hasShifts)).subtract finish d = .error .outOfRange ∨
    ∃ answer, (WorkingCalendar.shifts clock).subtract finish d = answer ∧
      (WorkingCalendar.shifts (clock.on c hasShifts)).subtract finish d = answer ∧
      (0 ≤ d.micros → (∃ start, answer = .ok start) ∨
        ∃ reached, answer = .error (.calendarUnavailable clock.calendar.id (.noWindow clock.given reached))) ∧
      (d.micros < 0 → answer = .error (.invalidRequest (.negativeWorkingTime d))) := by
  by_cases hd : 0 ≤ d.micros
  · rw [WorkingCalendar.subtract_shifts hd, WorkingCalendar.subtract_shifts hd, hnaive]
    have hagree : AgreeInRange (clock.walk none finish.micros d.micros)
        ((clock.on c hasShifts).walk none finish.micros d.micros) :=
      ShiftClock.walk_agreeInRange hid rfl rfl hsame hd
    rcases hagree with hout | hout | heq
    · exact .inl hout
    · exact .inr (.inl hout)
    · rcases clock.walk_cases finish.micros d.micros with hout | hanswer
      · exact .inl hout
      · exact .inr (.inr ⟨_, rfl, heq.symm, fun _ => hanswer, fun hneg => absurd hd (not_le.mpr hneg)⟩)
  · have hneg := not_le.mp hd
    exact .inr (.inr ⟨_, WorkingCalendar.subtract_shifts_negative hneg, WorkingCalendar.subtract_shifts_negative hneg,
      fun hnonneg => absurd hnonneg hd, fun _ => rfl⟩)

/-- Half past six is four and a half hours before eleven in the evening. On the undivided evening a walk gets there in
one round, on the parts it takes two. -/
theorem subtract_shifts_of_sameWork_evening :
    ShiftClock.undivided.calendar.SameWork ShiftClock.divided.calendar ∧
      ∃ answer,
        (WorkingCalendar.shifts .undivided).subtract (.onTuesday 23) (.minutes 270 (by decide)) = answer ∧
        (WorkingCalendar.shifts .divided).subtract (.onTuesday 23) (.minutes 270 (by decide)) = answer ∧
        answer = .ok ⟨738599 * dayMicros + 66600000000, none, by decide⟩ := by
  have hsame := ShiftClock.evening_sameWork
  have hnaive : (Instant.onTuesday 23).offset = none := rfl
  have hid : ShiftClock.divided.calendar.id = ShiftClock.undivided.calendar.id := rfl
  have hasShifts : ShiftClock.divided.calendar.shifts ≠ [] := by decide
  refine ⟨hsame, ?_⟩
  rcases subtract_shifts_of_sameWork hasShifts hid hsame hnaive (.minutes 270 (by decide)) with
    hout | hout | ⟨answer, hwhole, hparts, _⟩
  · rw [ShiftClock.subtract_evening] at hout
    cases hout
  · change (WorkingCalendar.shifts .divided).subtract _ _ = _ at hout
    rw [ShiftClock.subtract_evening_parts] at hout
    cases hout
  · exact ⟨answer, hwhole, hparts, hwhole.symm.trans ShiftClock.subtract_evening⟩

end SupplyPlan
