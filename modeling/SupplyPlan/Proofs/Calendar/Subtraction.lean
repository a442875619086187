import SupplyPlan.Calendar.Clock
import SupplyPlan.Proofs.Calendar.Search

namespace SupplyPlan

theorem Instant.ofMicros_cases (n : Int) (offset : Option Int) :
    ofMicros n offset = .error .outOfRange ∨
      ∃ t, ofMicros n offset = .ok t ∧ t.micros = n ∧ t.offset = offset := by
  cases h : ofMicros n offset with
  | ok t => exact .inr ⟨t, rfl, ofMicros_eq_ok_iff.mp h⟩
  | error e =>
    unfold ofMicros at h
    split at h
    · cases h
    · cases h
      exact .inl rfl

/-- The answer of a calendar that cannot be used. -/
def IsUnavailable (answer : Except PlanError Instant) : Prop :=
  ∃ ref fault, answer = .error (.calendarUnavailable ref fault)

theorem IsUnavailable.ne_ok {answer : Except PlanError Instant} (h : IsUnavailable answer) (t : Instant) :
    answer ≠ .ok t := by
  obtain ⟨_, _, rfl⟩ := h
  exact nofun

theorem not_isUnavailable_of_eq_ok {answer : Except PlanError Instant} {t : Instant} (h : answer = .ok t) :
    ¬ IsUnavailable answer := fun hunavailable => hunavailable.ne_ok t h

/-- A result that is as expected, unless the range of dates or durations is left, or an instant that is aware meets the
naive windows of a calendar. -/
inductive Proceeds {α : Type} (finish : Instant) (P : α → Prop) : Except PlanError α → Prop where
  | ok {a : α} (ha : P a) : Proceeds finish P (.ok a)
  | outOfRange : Proceeds finish P (.error .outOfRange)
  | aware (haware : finish.isAware) : Proceeds finish P (.error .typeMismatch)

theorem Proceeds.bind {α β : Type} {finish : Instant} {P : α → Prop} {Q : β → Prop} {x : Except PlanError α}
    {f : α → Except PlanError β} (hx : Proceeds finish P x) (hf : ∀ a, P a → Proceeds finish Q (f a)) :
    Proceeds finish Q (x >>= f) := by
  cases hx with
  | ok ha => exact hf _ ha
  | outOfRange => exact .outOfRange
  | aware haware => exact .aware haware

theorem Proceeds.of_ok {α : Type} {finish : Instant} {P Q : α → Prop} {x : Except PlanError α}
    (hx : Proceeds finish P x) (hQ : ∀ a, x = .ok a → Q a) : Proceeds finish Q x := by
  cases hx with
  | ok _ => exact .ok (hQ _ rfl)
  | outOfRange => exact .outOfRange
  | aware haware => exact .aware haware

/-- Only the clock of the instant matters. -/
theorem Proceeds.of_offset_eq {α : Type} {finish finish' : Instant} {P : α → Prop} {x : Except PlanError α}
    (hx : Proceeds finish P x) (hoffset : finish.offset = finish'.offset) : Proceeds finish' P x := by
  cases hx with
  | ok ha => exact .ok ha
  | outOfRange => exact .outOfRange
  | aware haware =>
    refine .aware ?_
    rwa [Instant.isAware, ← hoffset]

theorem Proceeds.not_isUnavailable {finish : Instant} {P : Instant → Prop} {answer : Except PlanError Instant}
    (h : Proceeds finish P answer) : ¬ IsUnavailable answer := by
  rintro ⟨_, _, rfl⟩
  cases h

theorem Instant.ofMicros_proceeds (finish : Instant) (n : Int) :
    Proceeds finish (fun t : Instant => t.offset = finish.offset) (ofMicros n finish.offset) := by
  rcases ofMicros_cases n finish.offset with hout | ⟨t, ht, _, hoffset⟩
  · rw [hout]
    exact .outOfRange
  · rw [ht]
    exact .ok hoffset

/-- An answer of no unusual kind to work that has to end at `finish`: the calendar is unavailable, or it proceeds to an
instant of the same clock. -/
def IsRegular (finish : Instant) (answer : Except PlanError Instant) : Prop :=
  IsUnavailable answer ∨ Proceeds finish (fun t : Instant => t.offset = finish.offset) answer

namespace ShiftClock

variable {clock : ShiftClock} {cursor remaining : Int}

theorem walk_of_nonpos (offset : Option Int) (h : remaining ≤ 0) :
    clock.walk offset cursor remaining = Instant.ofMicros cursor offset := by
  rw [walk, if_neg (not_lt.mpr h)]

theorem walk_of_error (offset : Option Int) {e : PlanError} (h : 0 < remaining)
    (hsearch : clock.calendar.latestWindow offset.isSome cursor clock.lookback.toNat = .error e) :
    clock.walk offset cursor remaining = .error e := by
  rw [walk, if_pos h, hsearch]

theorem walk_of_none (offset : Option Int) (h : 0 < remaining)
    (hsearch : clock.calendar.latestWindow offset.isSome cursor clock.lookback.toNat = .ok none) :
    clock.walk offset cursor remaining = Instant.ofMicros cursor offset >>= fun reached =>
      .error (.calendarUnavailable clock.calendar.id (.noWindow clock.given reached)) := by
  rw [walk, if_pos h, hsearch]

/-- One round of the walk: to the start of the window that is found, or as far as work remains. -/
theorem walk_of_some (offset : Option Int) {w : Window} (h : 0 < remaining)
    (hsearch : clock.calendar.latestWindow offset.isSome cursor clock.lookback.toNat = .ok (some w)) :
    clock.walk offset cursor remaining =
      clock.walk offset (w.stop - min w.length remaining) (remaining - min w.length remaining) := by
  rw [walk, if_pos h, hsearch]

theorem walk_isRegular (clock : ShiftClock) (finish : Instant) (cursor remaining : Int) :
    IsRegular finish (clock.walk finish.offset cursor remaining) := by
  fun_induction walk clock finish.offset cursor remaining with
  | case1 cursor remaining _ e hsearch =>
    rcases ShiftCalendar.latestWindow_error hsearch with rfl | ⟨rfl, haware⟩
    · exact .inr .outOfRange
    · exact .inr (.aware haware)
  | case2 cursor remaining =>
    rcases Instant.ofMicros_cases cursor finish.offset with hout | ⟨t, ht, _, _⟩
    · rw [hout]
      exact .inr .outOfRange
    · rw [ht]
      exact .inl ⟨_, _, rfl⟩
  | case3 _ _ _ _ _ _ ih => exact ih
  | case4 cursor => exact .inr (finish.ofMicros_proceeds cursor)

end ShiftClock

namespace WorkingCalendar

theorem refuseNegative_eq_ok {d : Duration} (hd : 0 ≤ d.micros) : refuseNegative d = .ok () := by
  unfold refuseNegative Duration.isNegative
  rw [if_neg (by simpa using hd)]

theorem refuseNegative_eq_error {d : Duration} (hd : d.micros < 0) :
    refuseNegative d = .error (.invalidRequest (.negativeWorkingTime d)) := by
  unfold refuseNegative Duration.isNegative
  rw [if_pos (decide_eq_true hd)]

theorem subtract_continuous {id : Option Text} {finish : Instant} {d : Duration} (hd : 0 ≤ d.micros) :
    (continuous id).subtract finish d = finish.minus d := by
  simp only [subtract, refuseNegative_eq_ok hd]
  rfl

theorem subtract_shifts {clock : ShiftClock} {finish : Instant} {d : Duration} (hd : 0 ≤ d.micros) :
    (shifts clock).subtract finish d = clock.walk finish.offset finish.micros d.micros := by
  simp only [subtract, refuseNegative_eq_ok hd]
  rfl

/-- A calendar with shifts or without breaks, and none of another kind. -/
def IsPlain : WorkingCalendar → Prop
  | continuous _ | shifts _ => True
  | unsearchable _ | stretched _ | closed .. | rule _ => False

/-- No other failure can come from a plain calendar: where work is not negative it is not refused either. -/
theorem IsPlain.subtract_isRegular {calendar : WorkingCalendar} (h : calendar.IsPlain) (finish : Instant)
    {d : Duration} (hd : 0 ≤ d.micros) : IsRegular finish (calendar.subtract finish d) := by
  cases calendar with
  | continuous id =>
    rw [subtract_continuous hd]
    exact .inr (finish.ofMicros_proceeds _)
  | shifts clock =>
    rw [subtract_shifts hd]
    exact clock.walk_isRegular finish _ _
  | unsearchable | stretched | closed | rule => exact h.elim

end WorkingCalendar

end SupplyPlan
