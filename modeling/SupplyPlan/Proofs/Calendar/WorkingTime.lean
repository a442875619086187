import Mathlib.Data.Nat.Count
import SupplyPlan.Calendar.Shift

namespace SupplyPlan

/-- A window starts on its date and ends before the second midnight after it. -/
theorem Shift.window_bounds (s : Shift) (day : Int) :
    day * dayMicros ≤ (s.window day).start ∧ (s.window day).start < (day + 1) * dayMicros ∧
      (s.window day).stop < (day + 2) * dayMicros := by
  have hstart := s.startTime.inRange
  have hend := s.endTime.inRange
  unfold dayMicros at *
  unfold Shift.window
  split
  · simp only [dayMicros]
    omega
  · simp only [dayMicros]
    omega

namespace Window

/-- The window holds the microsecond that begins at `t`. -/
def Covers (w : Window) (t : Int) : Prop := w.start ≤ t ∧ t < w.stop

instance (w : Window) : DecidablePred w.Covers := fun _ => inferInstanceAs (Decidable (_ ∧ _))

theorem before?_eq_some_iff {w v : Window} {limit : Int} :
    w.before? limit = some v ↔ w.start < limit ∧ v.start = w.start ∧ v.stop = min w.stop limit := by
  unfold before?
  by_cases h : w.start < limit
  · rw [dif_pos h]
    cases v
    simp only [Option.some.injEq, mk.injEq, h, true_and]
    constructor <;> rintro ⟨hstart, hstop⟩ <;> exact ⟨hstart.symm, hstop.symm⟩
  · simp [h]

end Window

namespace ShiftCalendar

variable {c : ShiftCalendar}

theorem bounds_of_mem_windowsOn {day : Int} {w : Window} (h : w ∈ c.windowsOn day) :
    day * dayMicros ≤ w.start ∧ w.start < (day + 1) * dayMicros ∧ w.stop < (day + 2) * dayMicros := by
  obtain ⟨_, s, _, _, rfl⟩ := mem_windowsOn.mp h
  exact s.window_bounds day

/-- A shift starts on the date: its weekday is in some shift and it is not a non-working day. -/
def CarriesShift (c : ShiftCalendar) (day : Int) : Prop :=
  c.isWorkingDay day ∧ ∃ s ∈ c.shifts, weekdayOf day ∈ s.weekdays

theorem carriesShift_iff {day : Int} : c.CarriesShift day ↔ ∃ w, w ∈ c.windowsOn day := by
  constructor
  · rintro ⟨hday, s, hs, hweekday⟩
    exact ⟨s.window day, mem_windowsOn.mpr ⟨hday, s, hs, hweekday, rfl⟩⟩
  · rintro ⟨w, hw⟩
    obtain ⟨hday, s, hs, hweekday, _⟩ := mem_windowsOn.mp hw
    exact ⟨hday, s, hs, hweekday⟩

/-- The microsecond that begins at `t` is working time: a window that starts on some date holds it. -/
def Covers (c : ShiftCalendar) (t : Int) : Prop := ∃ d : Date, ∃ w ∈ c.windowsOn d.day, w.Covers t

/-- Whatever covers a moment starts on its date or on the date before. -/
theorem day_of_covers {day t : Int} {w : Window} (hw : w ∈ c.windowsOn day) (ht : w.Covers t) :
    day = t / dayMicros ∨ day = t / dayMicros - 1 := by
  obtain ⟨hstart, _, hstop⟩ := bounds_of_mem_windowsOn hw
  obtain ⟨hle, hlt⟩ := ht
  unfold dayMicros at *
  omega

theorem covers_iff {t : Int} :
    c.Covers t ↔ ∃ day ∈ [t / dayMicros, t / dayMicros - 1],
      (0 ≤ day ∧ day < dateCount) ∧ ∃ w ∈ c.windowsOn day, w.Covers t := by
  constructor
  · rintro ⟨d, w, hw, ht⟩
    refine ⟨d.day, ?_, d.inRange, w, hw, ht⟩
    simpa using day_of_covers hw ht
  · rintro ⟨day, _, hday, w, hw, ht⟩
    exact ⟨⟨day, hday⟩, w, hw, ht⟩

instance (c : ShiftCalendar) : DecidablePred c.Covers := fun _ => decidable_of_iff _ covers_iff.symm

/-- Microseconds of working time from one moment to another. What several windows cover counts once. -/
def workingTime (c : ShiftCalendar) (start stop : Int) : Int :=
  Nat.count (fun k => c.Covers (start + k)) (stop - start).toNat

/-- Working time adds up over adjoining spans. -/
theorem workingTime_add {start middle stop : Int} (hstart : start ≤ middle) (hstop : middle ≤ stop) :
    c.workingTime start middle + c.workingTime middle stop = c.workingTime start stop := by
  have hlength : (stop - start).toNat = (middle - start).toNat + (stop - middle).toNat := by omega
  have hshift (k : Nat) : start + ((middle - start).toNat + k : Nat) = middle + k := by omega
  unfold workingTime
  rw [hlength, Nat.count_add, Int.natCast_add]
  simp only [hshift]

theorem workingTime_nonneg (c : ShiftCalendar) (start stop : Int) : 0 ≤ c.workingTime start stop :=
  Int.natCast_nonneg _

theorem workingTime_of_covered {start stop : Int} (hle : start ≤ stop)
    (hcovered : ∀ t, start ≤ t → t < stop → c.Covers t) : c.workingTime start stop = stop - start := by
  have hall := Nat.count_iff_forall.mpr fun k (hk : k < (stop - start).toNat) =>
    hcovered (start + k) (by omega) (by omega)
  unfold workingTime
  rw [hall]
  omega

theorem workingTime_of_uncovered {start stop : Int}
    (huncovered : ∀ t, start ≤ t → t < stop → ¬ c.Covers t) : c.workingTime start stop = 0 := by
  have hnone := Nat.count_iff_forall_not.mpr fun k (hk : k < (stop - start).toNat) =>
    huncovered (start + k) (by omega) (by omega)
  unfold workingTime
  rw [hnone]
  rfl

theorem workingTime_self (t : Int) : c.workingTime t t = 0 :=
  workingTime_of_uncovered fun u hlo hhi => absurd hlo (by omega)

/-- Moving a start forward from a covered moment loses working time. -/
theorem workingTime_lt_of_covers {start later stop : Int} (hcovers : c.Covers start) (hlater : start < later)
    (hstop : later ≤ stop) : c.workingTime later stop < c.workingTime start stop := by
  have hfirst : c.workingTime start (start + 1) = 1 := by
    rw [workingTime_of_covered (by omega)]
    · omega
    · intro t hlo hhi
      have heq : t = start := by omega
      rwa [heq]
  have hsplit := workingTime_add (c := c) (show start ≤ start + 1 by omega) (show start + 1 ≤ later by omega)
  have hwhole := workingTime_add (c := c) hlater.le hstop
  have hrest := c.workingTime_nonneg (start + 1) later
  omega

/-- Work of the given length that has to be done by `finish` has to begin at `start` and no later. -/
structure IsLatestStart (c : ShiftCalendar) (finish length start : Int) : Prop where
  start_le : start ≤ finish
  workingTime_eq : c.workingTime start finish = length
  covers_of_lt : start < finish → c.Covers start

namespace IsLatestStart

variable {finish length start : Int}

theorem refl (finish : Int) : c.IsLatestStart finish 0 finish :=
  ⟨le_rfl, workingTime_self finish, fun h => absurd h (lt_irrefl finish)⟩

theorem covers (h : c.IsLatestStart finish length start) (hlength : 0 < length) : c.Covers start := by
  apply h.covers_of_lt
  by_contra hnot
  have heq : start = finish := le_antisymm h.start_le (not_lt.mp hnot)
  have hnone := h.workingTime_eq
  rw [heq, workingTime_self] at hnone
  omega

/-- From any later moment on there is less working time left. -/
theorem workingTime_lt (h : c.IsLatestStart finish length start) {later : Int} (hlater : start < later)
    (hfinish : later ≤ finish) : c.workingTime later finish < length := by
  rw [← h.workingTime_eq]
  exact workingTime_lt_of_covers (h.covers_of_lt (by omega)) hlater hfinish

theorem unique (h : c.IsLatestStart finish length start) {other : Int}
    (hother : c.IsLatestStart finish length other) : start = other := by
  rcases lt_trichotomy start other with hlt | heq | hgt
  · have hless := h.workingTime_lt hlt hother.start_le
    exact absurd hother.workingTime_eq (by omega)
  · exact heq
  · have hless := hother.workingTime_lt hgt h.start_le
    exact absurd h.workingTime_eq (by omega)

/-- One round of a walk into the past: after a gap without work comes an uninterrupted stretch of it. -/
theorem extend {stop taken : Int} (h : c.IsLatestStart (stop - taken) (length - taken) start)
    (htaken : 0 < taken) (hstop : stop ≤ finish)
    (hwork : ∀ t, stop - taken ≤ t → t < stop → c.Covers t)
    (hgap : ∀ t, stop ≤ t → t < finish → ¬ c.Covers t) : c.IsLatestStart finish length start := by
  have hle := h.start_le
  have hwork' := workingTime_of_covered (c := c) (by omega) hwork
  have hgap' := workingTime_of_uncovered (c := c) hgap
  have hinner := workingTime_add (c := c) hle (show stop - taken ≤ stop by omega)
  have houter := workingTime_add (c := c) (show start ≤ stop by omega) hstop
  have heq := h.workingTime_eq
  refine ⟨by omega, by omega, fun _ => ?_⟩
  by_cases hlt : start < stop - taken
  · exact h.covers_of_lt hlt
  · exact hwork start (by omega) (by omega)

end IsLatestStart

end ShiftCalendar

end SupplyPlan
