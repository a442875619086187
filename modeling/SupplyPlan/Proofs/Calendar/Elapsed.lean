import SupplyPlan.Proofs.Calendar.Registry
import SupplyPlan.Proofs.Calendar.Splitting

namespace SupplyPlan

namespace Instant

variable {t u v : Instant}

theorem ofMicros_self (t : Instant) : ofMicros t.micros t.offset = .ok t := ofMicros_eq_ok_iff.mpr ⟨rfl, rfl⟩

/-- The first instant can be compared with the second one and is not later. -/
def NotAfter (t u : Instant) : Prop := u.lt t = .ok false

theorem notAfter_iff : t.NotAfter u ↔ t.isAware = u.isAware ∧ t.onCommonClock ≤ u.onCommonClock := by
  unfold NotAfter lt
  by_cases h : u.isAware = t.isAware
  · simp [h]
  · simp [h, Ne.symm h]

instance (t u : Instant) : Decidable (t.NotAfter u) := decidable_of_iff _ notAfter_iff.symm

theorem notAfter_iff_of_offset_eq (h : t.offset = u.offset) : t.NotAfter u ↔ t.micros ≤ u.micros := by
  rw [notAfter_iff]
  simp [isAware, onCommonClock, h]

theorem NotAfter.refl (t : Instant) : t.NotAfter t := notAfter_iff.mpr ⟨rfl, le_rfl⟩

theorem NotAfter.trans (htu : t.NotAfter u) (huv : u.NotAfter v) : t.NotAfter v := by
  obtain ⟨haware, hle⟩ := notAfter_iff.mp htu
  obtain ⟨haware', hle'⟩ := notAfter_iff.mp huv
  exact notAfter_iff.mpr ⟨haware.trans haware', hle.trans hle'⟩

end Instant

namespace ShiftCalendar

variable {c : ShiftCalendar} {cursor : Int} {lookback : Nat}

/-- An aware search fails at the first window it meets, so one that does not fail has met none. -/
theorem latestFrom_aware {day : Int} {dates : Nat} {best found : Option Window}
    (h : c.latestFrom true cursor dates day best = .ok found) : found = best := by
  fun_induction latestFrom c true cursor dates day best with
  | case1 => exact (Except.ok.inj h).symm
  | case2 => cases h
  | case3 => exact (Except.ok.inj h).symm
  | case4 => cases h
  | case5 dates day best _ _ hmixed ih =>
    have hnone : c.windowsOn day = [] := by simpa using hmixed
    rw [ih h, latestOn, hnone]
    rfl

theorem latestWindow_aware_ne_some (w : Window) : c.latestWindow true cursor lookback ≠ .ok (some w) := by
  intro h
  cases latestFrom_aware h

/-- No window starts before the first date. -/
theorem start_nonneg_of_latestWindow {aware : Bool} {w : Window}
    (h : c.latestWindow aware cursor lookback = .ok (some w)) : 0 ≤ w.start := by
  obtain ⟨⟨d, _, _, v, hv, hcut⟩, _⟩ := latestWindow_isLatest h
  obtain ⟨hlowest, _, _⟩ := bounds_of_mem_windowsOn hv
  obtain ⟨_, hstart, _⟩ := Window.before?_eq_some_iff.mp hcut
  have hday := d.inRange
  unfold dayMicros at *
  omega

end ShiftCalendar

namespace ShiftClock

variable {clock : ShiftClock} {offset : Option Int} {cursor remaining : Int} {start : Instant}

/-- A walk that finds nothing to work in fails, whatever the cursor. -/
theorem walk_ne_ok_of_none (h : 0 < remaining)
    (hsearch : clock.calendar.latestWindow offset.isSome cursor clock.lookback.toNat = .ok none) (t : Instant) :
    clock.walk offset cursor remaining ≠ .ok t := by
  rw [walk_of_none offset h hsearch]
  intro hok
  obtain ⟨_, _, hfault⟩ := bind_eq_ok_iff.mp hok
  cases hfault

/-- A walk takes at least as long as the work it takes away, and stays on its clock. Each round crosses no more of a
window than it takes away, and the gap before the window comes on top. -/
theorem walk_passes (hremaining : 0 ≤ remaining) (h : clock.walk offset cursor remaining = .ok start) :
    start.offset = offset ∧ start.micros + remaining ≤ cursor := by
  fun_induction walk clock offset cursor remaining with
  | case1 => cases h
  | case2 cursor remaining hpos hsearch =>
    obtain ⟨_, _, hfault⟩ := bind_eq_ok_iff.mp h
    cases hfault
  | case3 cursor remaining hpos w hsearch taken ih =>
    have htaken : taken = min w.length remaining := rfl
    obtain ⟨hstop, _⟩ := ShiftCalendar.covers_of_latestWindow hsearch
    obtain ⟨hoffset, hpassed⟩ := ih (by omega) h
    exact ⟨hoffset, by omega⟩
  | case4 cursor remaining hpos =>
    obtain ⟨hmicros, hoffset⟩ := Instant.ofMicros_eq_ok_iff.mp h
    exact ⟨hoffset, by omega⟩

/-- Only a walk with nothing to take away gets along with an aware cursor. -/
theorem remaining_nonpos_of_aware (haware : offset.isSome) (h : clock.walk offset cursor remaining = .ok start) :
    remaining ≤ 0 := by
  by_contra hnot
  have hpos : 0 < remaining := not_le.mp hnot
  cases hsearch : clock.calendar.latestWindow offset.isSome cursor clock.lookback.toNat with
  | error e =>
    rw [walk_of_error offset hpos hsearch] at h
    cases h
  | ok found =>
    cases found with
    | none => exact walk_ne_ok_of_none hpos hsearch start h
    | some w =>
      rw [haware] at hsearch
      exact ShiftCalendar.latestWindow_aware_ne_some w hsearch

/-- A walk that leaves the range of dates leaves it with more work too. -/
theorem walk_add_eq_outOfRange {extra : Int} (hcursor : 0 ≤ cursor ∧ cursor < dateCount * dayMicros)
    (hremaining : 0 ≤ remaining) (hextra : 0 ≤ extra) (h : clock.walk offset cursor remaining = .error .outOfRange) :
    clock.walk offset cursor (remaining + extra) = .error .outOfRange := by
  have hexists {n : Int} (hn : 0 ≤ n ∧ n < dateCount * dayMicros) : Instant.ofMicros n offset ≠ .error .outOfRange := by
    have hok : Instant.ofMicros n offset = .ok ⟨n, offset, hn⟩ := Instant.ofMicros_eq_ok_iff.mpr ⟨rfl, rfl⟩
    rw [hok]
    exact nofun
  fun_induction walk clock offset cursor remaining with
  | case1 cursor remaining hpos e hsearch =>
    obtain rfl := Except.error.inj h
    exact walk_of_error offset (by omega) hsearch
  | case2 cursor remaining hpos hsearch =>
    rw [walk, if_pos (by omega), hsearch]
    exact h
  | case3 cursor remaining hpos w hsearch taken ih =>
    have htaken : taken = min w.length remaining := rfl
    have hlength : w.length = w.stop - w.start := rfl
    have hwindow := w.start_lt_stop
    have hstart := ShiftCalendar.start_nonneg_of_latestWindow hsearch
    obtain ⟨hstop, _⟩ := ShiftCalendar.covers_of_latestWindow hsearch
    have hround := walk_of_some offset (show 0 < remaining + extra by omega) hsearch
    by_cases hcrosses : w.length ≤ remaining
    · have hsame : min w.length (remaining + extra) = taken := by omega
      have hrest : remaining + extra - taken = remaining - taken + extra := by omega
      rw [hround, hsame, hrest]
      exact ih (by omega) (by omega) h
    · -- the first work ends inside the window, and every moment of a window exists
      rw [walk_of_nonpos offset (by omega)] at h
      exact absurd h (hexists (by omega))
  | case4 cursor remaining hpos => exact absurd h (hexists hcursor)

end ShiftClock

namespace WorkingCalendar

variable {calendar : WorkingCalendar} {finish start : Instant}

theorem subtract_unsearchable_eq_ok {shifts : ShiftCalendar} {d : Duration} (hd : 0 ≤ d.micros)
    (h : (unsearchable shifts).subtract finish d = .ok start) : d.micros = 0 ∧ start = finish := by
  simp only [subtract, refuseNegative_eq_ok hd, bind, Except.bind] at h
  by_cases hpos : 0 < d.micros
  · simp [hpos] at h
  · rw [if_neg hpos] at h
    exact ⟨by omega, (Except.ok.inj h).symm⟩

theorem IsPlain.subtract_of_eq_zero (hplain : calendar.IsPlain) {d : Duration} (hd : d.micros = 0)
    (finish : Instant) : calendar.subtract finish d = .ok finish := by
  cases calendar with
  | continuous id =>
    rw [subtract_continuous hd.ge]
    exact Instant.ofMicros_eq_ok_iff.mpr ⟨by omega, rfl⟩
  | shifts clock =>
    rw [subtract_shifts hd.ge, ShiftClock.walk_of_nonpos _ hd.le]
    exact finish.ofMicros_self
  | unsearchable | stretched | closed | rule => exact hplain.elim

/-- On a plain calendar no work is done in less time than it takes. -/
theorem IsPlain.subtract_passes (hplain : calendar.IsPlain) {d : Duration} (hd : 0 ≤ d.micros)
    (h : calendar.subtract finish d = .ok start) :
    start.offset = finish.offset ∧ start.micros + d.micros ≤ finish.micros := by
  cases calendar with
  | continuous id =>
    rw [subtract_continuous hd] at h
    obtain ⟨hmicros, hoffset⟩ := Instant.ofMicros_eq_ok_iff.mp h
    exact ⟨hoffset, by omega⟩
  | shifts clock =>
    rw [subtract_shifts hd] at h
    exact ShiftClock.walk_passes hd h
  | unsearchable | stretched | closed | rule => exact hplain.elim

theorem IsPlain.subtract_eq_outOfRange_of_le (hplain : calendar.IsPlain) {d more : Duration} (hd : 0 ≤ d.micros)
    (hmore : d.micros ≤ more.micros) (h : calendar.subtract finish d = .error .outOfRange) :
    calendar.subtract finish more = .error .outOfRange := by
  cases calendar with
  | continuous id =>
    rw [subtract_continuous hd] at h
    rw [subtract_continuous (by omega)]
    rcases Instant.ofMicros_cases (finish.micros - more.micros) finish.offset with hout | ⟨t, _, ht, _⟩
    · exact hout
    · have hfinish := finish.inRange
      have hstart := t.inRange
      have hok : finish.minus d = .ok ⟨finish.micros - d.micros, finish.offset, by omega⟩ :=
        Instant.ofMicros_eq_ok_iff.mpr ⟨rfl, rfl⟩
      rw [hok] at h
      cases h
  | shifts clock =>
    have hsum : more.micros = d.micros + (more.micros - d.micros) := by omega
    rw [subtract_shifts hd] at h
    rw [subtract_shifts (by omega), hsum]
    exact ShiftClock.walk_add_eq_outOfRange finish.inRange hd (by omega) h
  | unsearchable | stretched | closed | rule => exact hplain.elim

/-- On a plain calendar work of length `b` that has to end where work of length `a` starts begins where work of length
`ab = a + b` does, unless that leaves the range of dates. Instants that are aware are no exception: where there are
shifts, they leave no work to be done. -/
theorem IsPlain.subtract_add (hplain : calendar.IsPlain) {middle : Instant} {a b ab : Duration} (ha : 0 ≤ a.micros)
    (hb : 0 ≤ b.micros) (hab : ab.micros = a.micros + b.micros) (hfirst : calendar.subtract finish a = .ok middle)
    (hsecond : calendar.subtract middle b = .ok start) :
    calendar.subtract finish ab = .error .outOfRange ∨ calendar.subtract finish ab = .ok start := by
  cases calendar with
  | continuous id =>
    rw [subtract_continuous ha] at hfirst
    rw [subtract_continuous hb] at hsecond
    obtain ⟨hmiddle, hclock⟩ := Instant.ofMicros_eq_ok_iff.mp hfirst
    obtain ⟨hstart, hclock'⟩ := Instant.ofMicros_eq_ok_iff.mp hsecond
    rw [subtract_continuous (by omega)]
    exact .inr (Instant.ofMicros_eq_ok_iff.mpr ⟨by omega, hclock'.trans hclock⟩)
  | shifts clock =>
    cases hoffset : finish.offset with
    | none =>
      by_cases hwhole : (shifts clock).subtract finish ab = .error .outOfRange
      · exact .inl hwhole
      · refine .inr ?_
        rw [subtract_shifts_eq_bind hoffset ha hb (Duration.ofMicros_eq_ok_iff.mpr hab) hwhole]
        · exact bind_eq_ok_iff.mpr ⟨middle, hfirst, hsecond⟩
        · rw [hfirst]
          exact nofun
        · intro other hother
          obtain rfl := Except.ok.inj (hfirst.symm.trans hother)
          rw [hsecond]
          exact nofun
    | some minutes =>
      rw [subtract_shifts ha] at hfirst
      have hnone := ShiftClock.remaining_nonpos_of_aware (by rw [hoffset]; rfl) hfirst
      rw [ShiftClock.walk_of_nonpos _ hnone] at hfirst
      obtain rfl := Except.ok.inj (finish.ofMicros_self.symm.trans hfirst)
      obtain rfl : ab = b := Duration.ext_micros (by omega)
      exact .inr hsecond
  | unsearchable | stretched | closed | rule => exact hplain.elim

end WorkingCalendar

end SupplyPlan
