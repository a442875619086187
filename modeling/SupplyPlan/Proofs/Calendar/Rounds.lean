import Mathlib.Logic.Relation
import SupplyPlan.Proofs.Calendar.Elapsed

namespace SupplyPlan

/-- How far a walk has come: its cursor, and the work that is left. -/
structure Progress where
  cursor : Int
  remaining : Int

namespace ShiftClock

/-- One round takes work away inside the window that the search finds before the cursor. -/
inductive Round (clock : ShiftClock) (offset : Option Int) (p : Progress) : Progress → Prop where
  | take {w : Window} (hleft : 0 < p.remaining)
      (hsearch : clock.calendar.latestWindow offset.isSome p.cursor clock.lookback.toNat = .ok (some w)) :
      Round clock offset p ⟨w.stop - min w.length p.remaining, p.remaining - min w.length p.remaining⟩

/-- The walk gets from one point to another, in any number of rounds. -/
def Reaches (clock : ShiftClock) (offset : Option Int) : Progress → Progress → Prop :=
  Relation.ReflTransGen (clock.Round offset)

variable {clock : ShiftClock} {offset : Option Int} {p q : Progress}

namespace Round

theorem cursor_lt (h : clock.Round offset p q) : q.cursor < p.cursor := by
  cases h with
  | @take w hleft hsearch =>
    obtain ⟨hstop, _⟩ := ShiftCalendar.covers_of_latestWindow hsearch
    have hwindow := w.start_lt_stop
    have hlength : w.length = w.stop - w.start := rfl
    simp only
    omega

theorem remaining_lt (h : clock.Round offset p q) : 0 ≤ q.remaining ∧ q.remaining < p.remaining := by
  cases h with
  | @take w hleft hsearch =>
    have hwindow := w.start_lt_stop
    have hlength : w.length = w.stop - w.start := rfl
    simp only
    omega

/-- A round ends inside a window, and no window starts before the first date. -/
theorem cursor_nonneg (h : clock.Round offset p q) : 0 ≤ q.cursor := by
  cases h with
  | @take w hleft hsearch =>
    have hstart := ShiftCalendar.start_nonneg_of_latestWindow hsearch
    have hlength : w.length = w.stop - w.start := rfl
    simp only
    omega

theorem walk_eq (h : clock.Round offset p q) :
    clock.walk offset p.cursor p.remaining = clock.walk offset q.cursor q.remaining := by
  cases h with
  | take hleft hsearch => exact walk_of_some offset hleft hsearch

end Round

/-- Work runs out, so no walk goes on for ever. -/
theorem wellFounded_round (clock : ShiftClock) (offset : Option Int) :
    WellFounded fun after before => clock.Round offset before after := by
  refine Subrelation.wf (fun {after before} hround => ?_) (measure fun p : Progress => p.remaining.toNat).wf
  obtain ⟨hnonneg, hlt⟩ := hround.remaining_lt
  show after.remaining.toNat < before.remaining.toNat
  omega

theorem walk_eq_of_reaches (h : clock.Reaches offset p q) :
    clock.walk offset p.cursor p.remaining = clock.walk offset q.cursor q.remaining := by
  induction h with
  | refl => rfl
  | tail _ hround ih => exact ih.trans hround.walk_eq

theorem cursor_le_of_reaches (h : clock.Reaches offset p q) : q.cursor ≤ p.cursor := by
  induction h with
  | refl => exact le_rfl
  | tail _ hround ih => exact hround.cursor_lt.le.trans ih

theorem Reaches.cursor_nonneg (h : clock.Reaches offset p q) (hcursor : 0 ≤ p.cursor) : 0 ≤ q.cursor := by
  induction h with
  | refl => exact hcursor
  | tail _ hround _ => exact hround.cursor_nonneg

/-- The instants that a walk gets to exist, so only a search can leave the range of dates. -/
theorem walk_eq_outOfRange_iff (hcursor : 0 ≤ p.cursor ∧ p.cursor < dateCount * dayMicros) :
    clock.walk offset p.cursor p.remaining = .error .outOfRange ↔
      ∃ q, clock.Reaches offset p q ∧ 0 < q.remaining ∧
        clock.calendar.latestWindow offset.isSome q.cursor clock.lookback.toNat = .error .outOfRange := by
  constructor
  · intro h
    induction p using (wellFounded_round clock offset).induction with
    | _ p ih =>
      have hreached : Instant.ofMicros p.cursor offset = .ok ⟨p.cursor, offset, hcursor⟩ :=
        Instant.ofMicros_eq_ok_iff.mpr ⟨rfl, rfl⟩
      by_cases hleft : 0 < p.remaining
      · cases hsearch : clock.calendar.latestWindow offset.isSome p.cursor clock.lookback.toNat with
        | error e =>
          rw [walk_of_error offset hleft hsearch] at h
          obtain rfl := Except.error.inj h
          exact ⟨p, .refl, hleft, hsearch⟩
        | ok found =>
          cases found with
          | none =>
            rw [walk_of_none offset hleft hsearch, hreached] at h
            cases h
          | some w =>
            have hround := Round.take hleft hsearch
            have hlower := hround.cursor_lt
            obtain ⟨q, hreaches, hfails⟩ := ih _ hround ⟨hround.cursor_nonneg, by omega⟩ (hround.walk_eq ▸ h)
            exact ⟨q, .head hround hreaches, hfails⟩
      · rw [walk_of_nonpos offset (not_lt.mp hleft), hreached] at h
        cases h
  · rintro ⟨q, hreaches, hleft, hsearch⟩
    rw [walk_eq_of_reaches hreaches]
    exact walk_of_error offset hleft hsearch

end ShiftClock

end SupplyPlan
