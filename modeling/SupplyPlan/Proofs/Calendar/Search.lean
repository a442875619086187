import SupplyPlan.Calendar.Search
import SupplyPlan.Proofs.Calendar.WorkingTime

namespace SupplyPlan

/-- The outcome of a search among the windows of a kind: there is none, or none ends later. -/
def IsLatest (P : Window → Prop) : Option Window → Prop
  | none => ∀ w, ¬ P w
  | some w => P w ∧ ∀ v, P v → v.stop ≤ w.stop

namespace IsLatest

variable {P Q : Window → Prop}

theorem congr (h : ∀ w, P w ↔ Q w) {found : Option Window} (hfound : IsLatest P found) : IsLatest Q found := by
  have heq : P = Q := funext fun w => propext (h w)
  rwa [← heq]

/-- A search may go on from the outcome of an earlier one. -/
theorem trans {first found : Option Window} (hfirst : IsLatest P first)
    (hfound : IsLatest (fun w => first = some w ∨ Q w) found) : IsLatest (fun w => P w ∨ Q w) found := by
  cases found with
  | none =>
    intro w hw
    rcases hw with hp | hq
    · cases first with
      | none => exact hfirst w hp
      | some u => exact hfound u (.inl rfl)
    · exact hfound w (.inr hq)
  | some w =>
    obtain ⟨hkind, hlatest⟩ := hfound
    refine ⟨?_, fun v hv => ?_⟩
    · rcases hkind with rfl | hq
      · exact .inl hfirst.1
      · exact .inr hq
    · rcases hv with hp | hq
      · cases first with
        | none => exact absurd hp (hfirst v)
        | some u => exact (hfirst.2 v hp).trans (hlatest u (.inl rfl))
      · exact hlatest v (.inr hq)

/-- A window that outlasts all others of a kind stays the outcome. -/
theorem self {best : Option Window} (h : ∀ v, Q v → ∃ b, best = some b ∧ v.stop ≤ b.stop) :
    IsLatest (fun w => best = some w ∨ Q w) best := by
  cases best with
  | none =>
    rintro v (hv | hv)
    · cases hv
    · obtain ⟨b, hb, _⟩ := h v hv
      cases hb
  | some b =>
    refine ⟨.inl rfl, ?_⟩
    rintro v (hv | hv)
    · cases hv
      exact le_rfl
    · obtain ⟨u, hu, hle⟩ := h v hv
      cases hu
      exact hle

end IsLatest

namespace Window

theorem later_isLatest (best : Option Window) (w : Window) :
    IsLatest (fun v => best = some v ∨ v = w) (later best w) := by
  cases best with
  | none => exact ⟨.inr rfl, fun v hv => by rcases hv with h | rfl <;> simp_all⟩
  | some b =>
    unfold later
    by_cases h : b.stop < w.stop
    · simp only [if_pos h]
      refine ⟨.inr rfl, fun v hv => ?_⟩
      rcases hv with hv | rfl
      · cases hv
        exact h.le
      · exact le_rfl
    · simp only [if_neg h]
      refine ⟨.inl rfl, fun v hv => ?_⟩
      rcases hv with hv | rfl
      · cases hv
        exact le_rfl
      · exact not_lt.mp h

theorem foldl_later_isLatest (windows : List Window) (best : Option Window) :
    IsLatest (fun v => best = some v ∨ v ∈ windows) (windows.foldl later best) := by
  induction windows generalizing best with
  | nil => cases best <;> simp [IsLatest]
  | cons w rest ih =>
    refine ((later_isLatest best w).trans (ih (later best w))).congr fun v => ?_
    rw [or_assoc, List.mem_cons]

end Window

namespace ShiftCalendar

variable {c : ShiftCalendar}

/-- The part before the cursor of a window that starts on one of the dates from `first` to `last`. -/
def IsCut (c : ShiftCalendar) (cursor first last : Int) (w : Window) : Prop :=
  ∃ d : Date, first ≤ d.day ∧ d.day ≤ last ∧ ∃ v ∈ c.windowsOn d.day, v.before? cursor = some w

theorem latestOn_isLatest (c : ShiftCalendar) (cursor : Int) (d : Date) (best : Option Window) :
    IsLatest (fun w => best = some w ∨ c.IsCut cursor d.day d.day w) (c.latestOn cursor d.day best) := by
  refine (Window.foldl_later_isLatest _ best).congr fun w => or_congr_right ?_
  rw [List.mem_filterMap]
  constructor
  · rintro ⟨v, hv, hcut⟩
    exact ⟨d, le_rfl, le_rfl, v, hv, hcut⟩
  · rintro ⟨e, hfirst, hlast, v, hv, hcut⟩
    rw [le_antisymm hlast hfirst] at hv
    exact ⟨v, hv, hcut⟩

theorem isCut_split {cursor first middle last : Int} (hfirst : first ≤ middle) (hlast : middle ≤ last + 1)
    {w : Window} : c.IsCut cursor first last w ↔
      c.IsCut cursor middle last w ∨ c.IsCut cursor first (middle - 1) w := by
  constructor
  · rintro ⟨d, hlo, hhi, hw⟩
    by_cases h : middle ≤ d.day
    · exact .inl ⟨d, h, hhi, hw⟩
    · exact .inr ⟨d, hlo, by omega, hw⟩
  · rintro (⟨d, hlo, hhi, hw⟩ | ⟨d, hlo, hhi, hw⟩)
    · exact ⟨d, by omega, hhi, hw⟩
    · exact ⟨d, hlo, by omega, hw⟩

/-- The search stops early only where no date that is left can carry a window that ends later. -/
theorem latestFrom_isLatest {aware : Bool} {cursor day : Int} {dates : Nat} {best found : Option Window}
    (h : c.latestFrom aware cursor dates day best = .ok found) :
    IsLatest (fun w => best = some w ∨ c.IsCut cursor (day - dates + 1) day w) found := by
  fun_induction latestFrom c aware cursor dates day best with
  | case1 day best =>
    obtain rfl : best = found := Except.ok.inj h
    refine .self fun v hv => ?_
    obtain ⟨d, hfirst, hlast, _⟩ := hv
    omega
  | case2 => cases h
  | case3 dates day best _ hstop =>
    obtain rfl : best = found := Except.ok.inj h
    cases best with
    | none => simp at hstop
    | some b =>
      simp only [Option.any_some, decide_eq_true_eq] at hstop
      refine .self fun v hv => ⟨b, rfl, ?_⟩
      obtain ⟨d, _, hlast, w, hw, hcut⟩ := hv
      obtain ⟨_, _, hend⟩ := bounds_of_mem_windowsOn hw
      obtain ⟨_, _, hcutEnd⟩ := Window.before?_eq_some_iff.mp hcut
      unfold dayMicros at *
      omega
  | case4 => cases h
  | case5 dates day best hrange _ _ ih =>
    simp only [Bool.or_eq_true, decide_eq_true_eq, not_or, not_lt, not_le] at hrange
    have htoday := latestOn_isLatest c cursor ⟨day, hrange.1, by omega⟩ best
    have hfirst : day - 1 - dates + 1 = day - (dates.succ : Nat) + 1 := by
      omega
    have hle : day - (dates.succ : Nat) + 1 ≤ day := by
      omega
    refine (htoday.trans (ih h)).congr fun w => ?_
    rw [or_assoc, hfirst]
    exact or_congr_right (isCut_split hle (show day ≤ day + 1 by omega)).symm

/-- A search fails where it leaves the range of dates, or where it compares a window with an aware cursor. -/
theorem latestFrom_error {aware : Bool} {cursor day : Int} {dates : Nat} {best : Option Window} {e : PlanError}
    (h : c.latestFrom aware cursor dates day best = .error e) :
    e = .outOfRange ∨ e = .typeMismatch ∧ aware = true := by
  fun_induction latestFrom c aware cursor dates day best with
  | case1 => cases h
  | case2 => exact .inl (Except.error.inj h).symm
  | case3 => cases h
  | case4 _ _ _ _ _ hmixed =>
    rw [Bool.and_eq_true] at hmixed
    exact .inr ⟨(Except.error.inj h).symm, hmixed.1⟩
  | case5 _ _ _ _ _ _ ih => exact ih h

/-- A search that finds nothing has looked at every date of its horizon, so all of them exist. -/
theorem latestFrom_none {aware : Bool} {cursor day : Int} {dates : Nat} {best : Option Window}
    (h : c.latestFrom aware cursor dates day best = .ok none) (hdates : 0 < dates) : 0 ≤ day - dates + 1 := by
  fun_induction latestFrom c aware cursor dates day best with
  | case1 => omega
  | case2 => cases h
  | case3 _ _ _ _ hstop =>
    cases h
    simp at hstop
  | case4 => cases h
  | case5 dates day _ hrange _ _ ih =>
    simp only [Bool.or_eq_true, decide_eq_true_eq, not_or, not_lt, not_le] at hrange
    by_cases hmore : 0 < dates
    · have hrest := ih h hmore
      omega
    · omega

theorem latestWindow_isLatest {aware : Bool} {cursor : Int} {lookback : Nat} {found : Option Window}
    (h : c.latestWindow aware cursor lookback = .ok found) :
    IsLatest (c.IsCut cursor (cursor / dayMicros - lookback) (cursor / dayMicros)) found := by
  refine (latestFrom_isLatest h).congr fun w => ?_
  have hfirst : cursor / dayMicros - ((lookback + 1 : Nat) : Int) + 1 = cursor / dayMicros - lookback := by
    omega
  rw [hfirst]
  simp

theorem latestWindow_error {aware : Bool} {cursor : Int} {lookback : Nat} {e : PlanError}
    (h : c.latestWindow aware cursor lookback = .error e) : e = .outOfRange ∨ e = .typeMismatch ∧ aware = true :=
  latestFrom_error h

/-- What the search finds is working time that ends at the cursor or before. -/
theorem covers_of_latestWindow {aware : Bool} {cursor : Int} {lookback : Nat} {w : Window}
    (h : c.latestWindow aware cursor lookback = .ok (some w)) :
    w.stop ≤ cursor ∧ ∀ t, w.Covers t → c.Covers t := by
  obtain ⟨⟨d, _, _, v, hv, hcut⟩, _⟩ := latestWindow_isLatest h
  obtain ⟨_, hstart, hstop⟩ := Window.before?_eq_some_iff.mp hcut
  refine ⟨by omega, fun t ht => ⟨d, v, hv, ?_⟩⟩
  obtain ⟨hlo, hhi⟩ := ht
  exact ⟨by omega, by omega⟩

/-- A window that covers the microsecond before the cursor lies within the horizon of every search. -/
theorem isCut_of_covers {cursor : Int} {lookback : Nat} (hlookback : 1 ≤ lookback) (h : c.Covers (cursor - 1)) :
    ∃ w, c.IsCut cursor (cursor / dayMicros - lookback) (cursor / dayMicros) w ∧ w.stop = cursor := by
  obtain ⟨d, v, hv, hlo, hhi⟩ := h
  obtain ⟨hfirst, _, hlast⟩ := bounds_of_mem_windowsOn hv
  have hcursor := v.start_lt_stop
  refine ⟨⟨v.start, min v.stop cursor, by omega⟩, ⟨d, ?_, ?_, v, hv, ?_⟩, ?_⟩
  · unfold dayMicros at *
    omega
  · unfold dayMicros at *
    omega
  · exact Window.before?_eq_some_iff.mpr ⟨by omega, rfl, rfl⟩
  · simp only
    omega

end ShiftCalendar

end SupplyPlan
