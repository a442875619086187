import Mathlib.Algebra.Order.Field.Power
import Mathlib.Algebra.Order.Field.Rat
import Mathlib.Order.WithBot
import SupplyPlan.Json.Basic

namespace SupplyPlan

/-- The rational line with an end below and an end above. -/
abbrev Place := WithBot (WithTop ℚ)

namespace Exact

def place : Exact → Place
  | below => ⊥
  | dyadic n q => ((n * 2 ^ q : ℚ) : WithTop ℚ)
  | above => ((⊤ : WithTop ℚ) : Place)

/-- Two dyadic numbers are brought to a common unit before they are compared. -/
theorem exists_unit (q q' : Int) : ∃ unit : ℚ, 0 < unit ∧
    (2 : ℚ) ^ q = 2 ^ (q - q').toNat * unit ∧ (2 : ℚ) ^ q' = 2 ^ (q' - q).toNat * unit := by
  refine ⟨2 ^ min q q', zpow_pos two_pos _, ?_, ?_⟩
  · rw [← zpow_natCast, ← zpow_add₀ two_ne_zero]
    congr 1
    omega
  · rw [← zpow_natCast, ← zpow_add₀ two_ne_zero]
    congr 1
    omega

theorem dyadic_lt_iff {n n' q q' : Int} :
    n * Int.pow 2 (q - q').toNat < n' * Int.pow 2 (q' - q).toNat ↔ (n * 2 ^ q : ℚ) < n' * 2 ^ q' := by
  obtain ⟨unit, hpos, hq, hq'⟩ := exists_unit q q'
  rw [hq, hq', ← mul_assoc, ← mul_assoc, mul_lt_mul_iff_left₀ hpos]
  exact_mod_cast Iff.rfl

theorem dyadic_eq_iff {n n' q q' : Int} :
    n * Int.pow 2 (q - q').toNat = n' * Int.pow 2 (q' - q).toNat ↔ (n * 2 ^ q : ℚ) = n' * 2 ^ q' := by
  obtain ⟨unit, hpos, hq, hq'⟩ := exists_unit q q'
  rw [hq, hq', ← mul_assoc, ← mul_assoc, mul_left_inj' hpos.ne']
  exact_mod_cast Iff.rfl

theorem lt_iff {x y : Exact} : x.lt y = true ↔ x.place < y.place := by
  cases x <;> cases y
  case dyadic.dyadic =>
    simp only [lt, place, decide_eq_true_eq, dyadic_lt_iff, WithBot.coe_lt_coe, WithTop.coe_lt_coe]
  -- The comparison is settled once an end is among the two.
  case below.dyadic => exact iff_of_true rfl (WithBot.bot_lt_coe _)
  case below.above => exact iff_of_true rfl (WithBot.bot_lt_coe _)
  case dyadic.above => exact iff_of_true rfl (WithBot.coe_lt_coe.mpr (WithTop.coe_lt_top _))
  case below.below | dyadic.below | above.below => exact iff_of_false Bool.false_ne_true not_lt_bot
  case above.dyadic | above.above => exact iff_of_false Bool.false_ne_true not_top_lt

theorem eq_iff {x y : Exact} : x.eq y = true ↔ x.place = y.place := by
  cases x <;> cases y
  case dyadic.dyadic =>
    simp only [eq, place, decide_eq_true_eq, dyadic_eq_iff, WithBot.coe_inj, WithTop.coe_inj]
  case below.below | above.above => exact iff_of_true rfl rfl
  case below.dyadic | below.above => exact iff_of_false Bool.false_ne_true WithBot.bot_ne_coe
  case dyadic.below | above.below => exact iff_of_false Bool.false_ne_true WithBot.coe_ne_bot
  case dyadic.above => exact iff_of_false Bool.false_ne_true (WithBot.coe_inj.not.mpr WithTop.coe_ne_top)
  case above.dyadic => exact iff_of_false Bool.false_ne_true (WithBot.coe_inj.not.mpr WithTop.top_ne_coe)

end Exact

namespace Quantity

variable {p q r : Quantity}

/-- Where a number lies; a NaN lies nowhere. -/
def place? (p : Quantity) : Option Place := p.value?.map Exact.place

theorem place?_eq_none_iff : p.place? = none ↔ p = .float .nan := by
  unfold place? value?
  cases p with
  | int n => simp
  | float x =>
    cases x with
    | nan => simp [Binary64.value?]
    | infinite negative => cases negative <;> simp [Binary64.value?]
    | finite negative m e onGrid => simp [Binary64.value?]

theorem exists_place_iff : (∃ x, p.place? = some x) ↔ p ≠ .float .nan := by
  rw [← Option.isSome_iff_exists, Option.isSome_iff_ne_none, ne_eq, place?_eq_none_iff]

theorem lt_iff : p.lt q = true ↔ ∃ x y, p.place? = some x ∧ q.place? = some y ∧ x < y := by
  unfold lt place?
  cases p.value? <;> cases q.value? <;> simp [Exact.lt_iff]

theorem same_iff : p.same q = true ↔ ∃ x, p.place? = some x ∧ q.place? = some x := by
  unfold same place?
  cases p.value? with
  | none => simp
  | some x =>
    cases q.value? with
    | none => simp
    | some y =>
      simp only [Exact.eq_iff, Option.map_some, Option.some.injEq, exists_eq_left']
      exact eq_comm

/-- The comparison of numbers that are in order or equal; with a NaN it never holds. -/
def IsUpTo (p q : Quantity) : Prop := Json.Comparison.lessOrSame.ofNumbers p q = true

theorem isUpTo_iff : p.IsUpTo q ↔ ∃ x y, p.place? = some x ∧ q.place? = some y ∧ x ≤ y := by
  unfold IsUpTo Json.Comparison.ofNumbers
  rw [Bool.or_eq_true, lt_iff, same_iff]
  constructor
  · rintro (⟨x, y, hp, hq, hlt⟩ | ⟨x, hp, hq⟩)
    · exact ⟨x, y, hp, hq, hlt.le⟩
    · exact ⟨x, x, hp, hq, le_rfl⟩
  · rintro ⟨x, y, hp, hq, hle⟩
    rcases hle.lt_or_eq with hlt | rfl
    · exact .inl ⟨x, y, hp, hq, hlt⟩
    · exact .inr ⟨x, hp, hq⟩

theorem isUpTo_self_iff : p.IsUpTo p ↔ p ≠ .float .nan := by
  rw [isUpTo_iff, ← exists_place_iff]
  constructor
  · rintro ⟨x, _, hx, _⟩
    exact ⟨x, hx⟩
  · rintro ⟨x, hx⟩
    exact ⟨x, x, hx, hx, le_rfl⟩

/-- One of two numbers is up to the other one, unless a NaN is among them. -/
theorem isUpTo_iff_of_not_lt (h : ¬ p.lt q = true) : q.IsUpTo p ↔ p ≠ .float .nan ∧ q ≠ .float .nan := by
  rw [lt_iff] at h
  rw [isUpTo_iff, ← exists_place_iff, ← exists_place_iff]
  constructor
  · rintro ⟨y, x, hq, hp, _⟩
    exact ⟨⟨x, hp⟩, ⟨y, hq⟩⟩
  · rintro ⟨⟨x, hp⟩, ⟨y, hq⟩⟩
    exact ⟨y, x, hq, hp, not_lt.mp fun hlt => h ⟨x, y, hp, hq, hlt⟩⟩

theorem ne_nan_of_lt (h : p.lt q = true) : p ≠ .float .nan ∧ q ≠ .float .nan := by
  obtain ⟨x, y, hp, hq, _⟩ := lt_iff.mp h
  exact ⟨exists_place_iff.mp ⟨x, hp⟩, exists_place_iff.mp ⟨y, hq⟩⟩

theorem isUpTo_of_lt (h : p.lt q = true) : p.IsUpTo q := by
  obtain ⟨x, y, hp, hq, hlt⟩ := lt_iff.mp h
  exact isUpTo_iff.mpr ⟨x, y, hp, hq, hlt.le⟩

theorem IsUpTo.trans (h : p.IsUpTo q) (h' : q.IsUpTo r) : p.IsUpTo r := by
  obtain ⟨x, y, hp, hq, hle⟩ := isUpTo_iff.mp h
  obtain ⟨y', z, hq', hr, hle'⟩ := isUpTo_iff.mp h'
  obtain rfl := Option.some.inj (hq.symm.trans hq')
  exact isUpTo_iff.mpr ⟨x, z, hp, hr, hle.trans hle'⟩

/-- A number that is not refused as negative is at least zero, unless it is a NaN. -/
theorem zero_isUpTo_iff (h : p.isNegative = false) : IsUpTo (.int 0) p ↔ p ≠ .float .nan := by
  have hnot : ¬ p.lt (.int 0) = true := by simpa [isNegative] using h
  rw [isUpTo_iff_of_not_lt hnot]
  simp

end Quantity

end SupplyPlan
