import Mathlib.Tactic.GCongr
import Mathlib.Tactic.Ring
import SupplyPlan.Proofs.Number.Nearest
import SupplyPlan.Proofs.Number.Order

namespace SupplyPlan

theorem two_zpow_eq (q : ℤ) : (2 : ℚ) ^ q = 2 ^ q.toNat / 2 ^ (-q).toNat := by
  rw [eq_div_iff (pow_ne_zero _ two_ne_zero), ← zpow_natCast, ← zpow_natCast, ← zpow_add₀ two_ne_zero]
  congr 1
  omega

theorem two_zpow_split {e q : ℤ} (h : q ≤ e) : (2 : ℚ) ^ e = 2 ^ (e - q).toNat * 2 ^ q := by
  rw [← zpow_natCast, ← zpow_add₀ two_ne_zero]
  congr 1
  omega

/-- The exponent of the last place that a double next to the number has. -/
structure IsGridExponent (u : ℚ) (q : ℤ) : Prop where
  fits : |u| < 2 ^ 53 * 2 ^ q
  least : -1074 ≤ q
  full : 2 ^ 52 * 2 ^ q ≤ |u| ∨ q = -1074

/-- The number is brought to the grid of doubles: to the nearest multiple of its last place, ties to even. -/
def IsRounded (u x : ℚ) : Prop :=
  ∃ (q n : ℤ), IsGridExponent u q ∧ IsNearestEven n (u / 2 ^ q) ∧ x = n * 2 ^ q

theorem IsGridExponent.neg {u : ℚ} {q : ℤ} (h : IsGridExponent u q) : IsGridExponent (-u) q where
  fits := (abs_neg u).symm ▸ h.fits
  least := h.least
  full := (abs_neg u).symm ▸ h.full

/-- The grid at a number is no coarser than the unit in which the number has at most 53 bits, but for the next power of
two. -/
theorem IsGridExponent.le_or_eq_succ {m e q : ℤ} (hm : |m| ≤ 2 ^ 53) (he : -1074 ≤ e)
    (h : IsGridExponent (m * 2 ^ e) q) : q ≤ e ∨ q = e + 1 ∧ |m| = 2 ^ 53 := by
  refine or_iff_not_imp_left.mpr fun hlarger => ?_
  have hunit : (0 : ℚ) < 2 ^ e := zpow_pos two_pos e
  have hfull := h.full.resolve_right (by omega)
  rw [two_zpow_split (by omega : e ≤ q), abs_mul, abs_of_pos hunit, ← mul_assoc,
    mul_le_mul_iff_left₀ hunit] at hfull
  have hfull : 2 ^ 52 * 2 ^ (q - e).toNat ≤ |m| := by exact_mod_cast hfull
  have hexponent : (q - e).toNat = 1 := by
    have hpower : ((q - e).toNat : ℤ) < 2 ^ (q - e).toNat := by exact_mod_cast Nat.lt_two_pow_self
    omega
  rw [hexponent] at hfull
  exact ⟨by omega, by omega⟩

section Near

variable {u : ℚ} {q n : ℤ} (h : IsGridExponent u q) (hn : IsNearestEven n (u / 2 ^ q))

include h hn

theorem IsGridExponent.le_of_isNearestEven : n ≤ 2 ^ 53 := by
  refine hn.mono (IsNearestEven.intCast (2 ^ 53)) ?_
  rw [div_le_iff₀ (zpow_pos two_pos q)]
  push_cast
  exact (le_abs_self u).trans h.fits.le

theorem IsGridExponent.ge_of_isNearestEven (hu : 0 < u) (hleast : q ≠ -1074) : 2 ^ 52 ≤ n := by
  have hfull := h.full.resolve_right hleast
  rw [abs_of_pos hu] at hfull
  refine (IsNearestEven.intCast (2 ^ 52)).mono hn ?_
  rw [le_div_iff₀ (zpow_pos two_pos q)]
  push_cast
  exact hfull

end Near

namespace IsRounded

variable {u v x y : ℚ}

theorem neg (h : IsRounded u x) : IsRounded (-u) (-x) := by
  obtain ⟨q, n, hgrid, hn, rfl⟩ := h
  refine ⟨q, -n, hgrid.neg, ?_, ?_⟩
  · rw [neg_div]
    exact hn.neg
  · rw [Int.cast_neg, neg_mul]

/-- A number with a larger exponent than another one below it ends up above the full range of the smaller exponent. -/
theorem le_of_exponent_lt {q q' n n' : ℤ} (hu : IsGridExponent u q) (hv : IsGridExponent v q')
    (hn : IsNearestEven n (u / 2 ^ q)) (hn' : IsNearestEven n' (v / 2 ^ q')) (hle : u ≤ v) (hq : q < q') :
    (n * 2 ^ q : ℚ) ≤ n' * 2 ^ q' := by
  have hleast : q' ≠ -1074 := (hu.least.trans_lt hq).ne'
  have hstep : (2 : ℚ) * 2 ^ q ≤ 2 ^ q' := by
    rw [← zpow_one_add₀ two_ne_zero]
    exact zpow_le_zpow_right₀ one_le_two (by omega)
  have hless : |u| < |v| := by linarith [hu.fits, hv.full.resolve_right hleast]
  have hpos : 0 < v := by
    by_contra hneg
    rw [abs_of_nonpos (not_lt.mp hneg)] at hless
    linarith [neg_abs_le u]
  have hhigh : (n : ℚ) ≤ 2 ^ 53 := by exact_mod_cast hu.le_of_isNearestEven hn
  have hlow : (2 ^ 52 : ℚ) ≤ n' := by exact_mod_cast hv.ge_of_isNearestEven hn' hpos hleast
  calc (n * 2 ^ q : ℚ) ≤ 2 ^ 53 * 2 ^ q := by gcongr
    _ = 2 ^ 52 * (2 * 2 ^ q) := by ring
    _ ≤ 2 ^ 52 * 2 ^ q' := by gcongr
    _ ≤ n' * 2 ^ q' := by gcongr

/-- Where the exponents differ the numbers are apart, whichever of them is the larger one in size. -/
theorem mono (hx : IsRounded u x) (hy : IsRounded v y) (hle : u ≤ v) : x ≤ y := by
  obtain ⟨q, n, hu, hn, rfl⟩ := hx
  obtain ⟨q', n', hv, hn', rfl⟩ := hy
  rcases lt_trichotomy q q' with hlt | rfl | hgt
  · exact le_of_exponent_lt hu hv hn hn' hle hlt
  · have hordered : n ≤ n' := hn.mono hn' (by gcongr)
    gcongr
  · have hreversed := le_of_exponent_lt hv.neg hu.neg (neg_div _ v ▸ hn'.neg) (neg_div _ u ▸ hn.neg)
      (neg_le_neg hle) hgt
    rw [Int.cast_neg, Int.cast_neg, neg_mul, neg_mul] at hreversed
    exact neg_le_neg_iff.mp hreversed

/-- What is on the grid stays where it is, and that is so for the next power of two, too. -/
theorem eq_of_dyadic {m e : ℤ} (hm : |m| ≤ 2 ^ 53) (he : -1074 ≤ e) (h : IsRounded (m * 2 ^ e) x) : x = m * 2 ^ e := by
  obtain ⟨q, n, hgrid, hn, rfl⟩ := h
  have hunit : (2 : ℚ) ^ q ≠ 0 := zpow_ne_zero q two_ne_zero
  obtain ⟨k, hk⟩ : ∃ k : ℤ, (m * 2 ^ e : ℚ) = k * 2 ^ q := by
    rcases hgrid.le_or_eq_succ hm he with hle | ⟨rfl, hpower⟩
    · refine ⟨m * 2 ^ (e - q).toNat, ?_⟩
      rw [two_zpow_split hle]
      push_cast
      ring
    · obtain ⟨k, rfl⟩ : ∃ k, m = 2 * k := ⟨m / 2, by rcases abs_cases m <;> omega⟩
      refine ⟨k, ?_⟩
      rw [zpow_add_one₀ two_ne_zero]
      push_cast
      ring
  rw [hk, mul_div_cancel_right₀ _ hunit] at hn
  rw [hk, hn.unique (.intCast k)]

end IsRounded

theorem isRounded_zero : IsRounded 0 0 := by
  refine ⟨-1074, 0, ⟨?_, le_rfl, .inr rfl⟩, ?_, by simp⟩
  · rw [abs_zero]
    positivity
  · simpa using IsNearestEven.intCast 0

/-- The number or what it is below zero. -/
def signed (negative : Bool) (r : ℚ) : ℚ := if negative then -r else r

theorem IsRounded.signed {u x : ℚ} (h : IsRounded u x) (negative : Bool) :
    IsRounded (signed negative u) (signed negative x) := by
  cases negative with
  | false => exact h
  | true => exact h.neg

/-- The quotient in units of a power of two, as it is put into two whole numbers. -/
theorem div_zpow_eq (num den : Nat) (q : Int) :
    (num / den / 2 ^ q : ℚ) = (num * Nat.pow 2 (-q).toNat : Nat) / (den * Nat.pow 2 q.toNat : Nat) := by
  rw [two_zpow_eq]
  simp only [Nat.pow_eq, Nat.cast_mul, Nat.cast_pow, Nat.cast_ofNat]
  field_simp

theorem log2_bounds {n : Nat} (hn : 0 < n) :
    (2 : ℚ) ^ (Nat.log2 n : ℤ) ≤ n ∧ (n : ℚ) < 2 ^ ((Nat.log2 n : ℤ) + 1) := by
  have hlow := Nat.log2_self_le hn.ne'
  have hhigh := Nat.lt_log2_self (n := n)
  exact_mod_cast And.intro hlow hhigh

/-- The lengths of two whole numbers in binary put their quotient within a factor of four. -/
theorem ratio_bounds {num den : Nat} (hnum : 0 < num) (hden : 0 < den) :
    (2 : ℚ) ^ ((Nat.log2 num : ℤ) - Nat.log2 den - 1) ≤ num / den ∧
      (num / den : ℚ) < 2 ^ ((Nat.log2 num : ℤ) - Nat.log2 den + 1) := by
  obtain ⟨hnumLow, hnumHigh⟩ := log2_bounds hnum
  obtain ⟨hdenLow, hdenHigh⟩ := log2_bounds hden
  have hpos : (0 : ℚ) < den := by exact_mod_cast hden
  constructor
  · rw [sub_sub, zpow_sub₀ two_ne_zero]
    gcongr
  · rw [sub_add_eq_add_sub, zpow_sub₀ two_ne_zero]
    calc (num / den : ℚ) < 2 ^ ((Nat.log2 num : ℤ) + 1) / den := by gcongr
      _ ≤ 2 ^ ((Nat.log2 num : ℤ) + 1) / 2 ^ (Nat.log2 den : ℤ) := by gcongr

/-- The rational number itself, unless it is an end of the line. -/
def Exact.rat? : Exact → Option ℚ
  | below | above => none
  | dyadic n q => some (n * 2 ^ q)

namespace Binary64

variable {negative : Bool} {x : ℚ}

/-- The rational number that a finite double is. -/
def rat? (x : Binary64) : Option ℚ := x.value?.bind Exact.rat?

theorem rat?_finite {m : Nat} {q : Int} (onGrid : OnGrid m q) :
    (finite negative m q onGrid).rat? = some (signed negative (m * 2 ^ q)) := by
  cases negative <;> simp [rat?, value?, Exact.rat?, signed]

theorem rat?_ofGrid {m : Nat} {q : Int} (h : (ofGrid negative m q).rat? = some x) :
    x = signed negative (m * 2 ^ q) := by
  unfold ofGrid at h
  split at h
  · exact (Option.some.inj ((rat?_finite _).symm.trans h)).symm
  · cases negative <;> cases h

/-- The test of the guess for an exponent. -/
theorem fits_iff (num : Nat) {den : Nat} (hden : 0 < den) (g : Int) :
    num * Nat.pow 2 (-g).toNat < den * Nat.pow 2 g.toNat * Nat.pow 2 53 ↔ (num / den : ℚ) < 2 ^ 53 * 2 ^ g := by
  have hunits : 0 < den * Nat.pow 2 g.toNat := Nat.mul_pos hden (Nat.pow_pos two_pos)
  rw [← div_lt_iff₀ (zpow_pos two_pos g), div_zpow_eq, div_lt_iff₀ (by exact_mod_cast hunits),
    Nat.mul_comm _ (Nat.pow 2 53)]
  exact_mod_cast Iff.rfl

/-- The exponent that is computed from lengths in binary: either the guess fits, or the next one does. -/
theorem gridExponent_isGridExponent {num den : Nat} (hnum : 0 < num) (hden : 0 < den) :
    IsGridExponent (num / den) (gridExponent num den) := by
  obtain ⟨hlow, hhigh⟩ := ratio_bounds hnum hden
  have hnonneg : (0 : ℚ) ≤ num / den := by positivity
  unfold gridExponent
  generalize hg : max ((Nat.log2 num : ℤ) - Nat.log2 den - 53) (-1074) = g
  have hleast : -1074 ≤ g := hg ▸ le_max_right _ _
  simp only [fits_iff num hden g]
  split
  · next hfits =>
    refine ⟨by rwa [abs_of_nonneg hnonneg], hleast, ?_⟩
    rw [abs_of_nonneg hnonneg]
    rcases max_choice ((Nat.log2 num : ℤ) - Nat.log2 den - 53) (-1074) with hguess | hguess
    · refine .inl (le_of_eq_of_le ?_ hlow)
      rw [← zpow_natCast, ← zpow_add₀ two_ne_zero]
      congr 1
      omega
    · exact .inr (hg.symm.trans hguess)
  · next hfits =>
    refine ⟨?_, by omega, .inl ?_⟩
    · rw [abs_of_nonneg hnonneg, ← zpow_natCast, ← zpow_add₀ two_ne_zero]
      refine hhigh.trans_le (zpow_le_zpow_right₀ one_le_two ?_)
      omega
    · rw [abs_of_nonneg hnonneg, zpow_add_one₀ two_ne_zero]
      linarith

/-- A quotient is brought to the grid. Where its significand goes up to the next power of two, that is written with the
next exponent. -/
theorem ofRatio_isRounded {num den : Nat} (hden : 0 < den) (h : (ofRatio negative num den).rat? = some x) :
    IsRounded (signed negative (num / den)) x := by
  unfold ofRatio at h
  rcases Nat.eq_zero_or_pos num with rfl | hnum
  · rw [if_pos rfl, rat?_finite] at h
    obtain rfl := Option.some.inj h
    simpa using isRounded_zero.signed negative
  · rw [if_neg hnum.ne'] at h
    dsimp only at h
    have hgrid := gridExponent_isGridExponent hnum hden
    generalize gridExponent num den = q at h hgrid
    have hunits : 0 < den * Nat.pow 2 q.toNat := Nat.mul_pos hden (Nat.pow_pos two_pos)
    have hnear := roundHalfEven_isNearestEven (num * Nat.pow 2 (-q).toNat : Nat) hunits
    rw [Int.cast_natCast, ← div_zpow_eq] at hnear
    generalize roundHalfEven (num * Nat.pow 2 (-q).toNat : Nat) (den * Nat.pow 2 q.toNat) = r at h hnear
    have hnonneg : 0 ≤ r := (IsNearestEven.intCast 0).mono hnear (by positivity)
    obtain ⟨m, rfl⟩ := Int.eq_ofNat_of_zero_le hnonneg
    have hx : x = signed negative ((m : ℤ) * 2 ^ q) := by
      rw [Int.toNat_natCast] at h
      split at h
      · next hpower =>
        rw [rat?_ofGrid h, hpower, zpow_add_one₀ two_ne_zero]
        congr 1
        norm_num
        ring
      · exact rat?_ofGrid h
    rw [hx]
    exact IsRounded.signed ⟨q, m, hgrid, hnear, rfl⟩ negative

theorem finite_isRounded {m : Nat} {q : Int} (onGrid : OnGrid m q) :
    IsRounded (signed negative (m * 2 ^ q)) (signed negative (m * 2 ^ q)) := by
  obtain ⟨hfits, hleast, -, hfull⟩ := onGrid
  have hunit : (0 : ℚ) < 2 ^ q := zpow_pos two_pos q
  refine IsRounded.signed ⟨q, m, ⟨?_, hleast, ?_⟩, ?_, rfl⟩ negative
  · rw [abs_of_nonneg (by positivity)]
    gcongr
    exact_mod_cast hfits
  · refine hfull.imp_left fun hfull => ?_
    rw [abs_of_nonneg (by positivity)]
    gcongr
    exact_mod_cast hfull
  · rw [mul_div_cancel_right₀ _ hunit.ne']
    exact IsNearestEven.intCast m

theorem ofInt_isRounded {n : Int} (h : (ofInt n).rat? = some x) : IsRounded n x := by
  have hquotient : signed (decide (n < 0)) ((n.natAbs : Nat) / (1 : Nat)) = (n : ℚ) := by
    rw [Nat.cast_natAbs, Nat.cast_one, div_one, signed]
    by_cases hn : n < 0
    · rw [if_pos (decide_eq_true hn), abs_of_neg hn, Int.cast_neg, neg_neg]
    · rw [if_neg (by simpa using hn), abs_of_nonneg (not_lt.mp hn)]
  rw [← hquotient]
  exact ofRatio_isRounded one_pos h

/-- The product with a whole number is brought to whole numbers once, from its exact value. -/
theorem scaleRound_isNearestEven (k : Int) (negative : Bool) (m : Nat) (q : Int) :
    IsNearestEven (scaleRound k negative m q) (k * signed negative (m * 2 ^ q)) := by
  have hunit : 0 < Nat.pow 2 (-q).toNat := Nat.pow_pos two_pos
  have hvalue : (m * 2 ^ q : ℚ) = (m * Nat.pow 2 q.toNat : Nat) / (Nat.pow 2 (-q).toNat : Nat) := by
    rw [two_zpow_eq, ← mul_div_assoc]
    simp
  have hproduct : (k * signed negative (m * 2 ^ q) : ℚ) =
      ((k * if negative then -((m * Nat.pow 2 q.toNat : Nat) : Int) else (m * Nat.pow 2 q.toNat : Nat) : Int) : ℚ) /
        (Nat.pow 2 (-q).toNat : Nat) := by
    rw [hvalue]
    cases negative with
    | false => simp [signed, mul_div_assoc]
    | true => simp [signed, mul_div_assoc, neg_div]
  rw [hproduct]
  exact roundHalfEven_isNearestEven _ hunit

end Binary64

namespace Quantity

variable {p q : Quantity} {r x : ℚ}

/-- The rational number that a finite number is. -/
def rat? (p : Quantity) : Option ℚ := p.value?.bind Exact.rat?

/-- The double that a number is converted to, as a rational number. -/
def double? (p : Quantity) : Option ℚ := p.toBinary64?.bind Binary64.rat?

theorem rat?_int (n : Int) : rat? (.int n) = some (n : ℚ) := by
  simp [rat?, value?, Exact.rat?]

theorem place?_of_rat? (h : p.rat? = some r) : p.place? = some ((r : WithTop ℚ) : Place) := by
  obtain ⟨value, hvalue, hr⟩ := Option.bind_eq_some_iff.mp h
  cases value with
  | below | above => cases hr
  | dyadic n e =>
    obtain rfl := Option.some.inj hr
    rw [place?, hvalue]
    rfl

/-- What is converted to a finite double is finite. -/
theorem exists_rat?_of_double? (h : p.double? = some x) : ∃ r, p.rat? = some r := by
  cases p with
  | int n => exact ⟨n, rat?_int n⟩
  | float y => exact ⟨x, h⟩

theorem isUpTo_iff_of_rat? {s : ℚ} (hp : p.rat? = some r) (hq : q.rat? = some s) : p.IsUpTo q ↔ r ≤ s := by
  rw [isUpTo_iff, place?_of_rat? hp, place?_of_rat? hq]
  constructor
  · rintro ⟨_, _, ⟨⟩, ⟨⟩, hle⟩
    exact WithTop.coe_le_coe.mp (WithBot.coe_le_coe.mp hle)
  · intro hle
    exact ⟨_, _, rfl, rfl, WithBot.coe_le_coe.mpr (WithTop.coe_le_coe.mpr hle)⟩

/-- To convert a number is to bring it to the grid. A double is there already. -/
theorem double?_isRounded (hr : p.rat? = some r) (hx : p.double? = some x) : IsRounded r x := by
  cases p with
  | int n =>
    rw [rat?_int] at hr
    obtain rfl := Option.some.inj hr
    obtain ⟨y, hy, hrat⟩ := Option.bind_eq_some_iff.mp hx
    have hconverted : y = Binary64.ofInt n := by
      rw [toBinary64?] at hy
      split at hy
      · cases hy
      · exact (Option.some.inj hy).symm
    exact Binary64.ofInt_isRounded (hconverted ▸ hrat)
  | float y =>
    obtain rfl : r = x := Option.some.inj (hr.symm.trans hx)
    cases y with
    | nan => cases hr
    | infinite negative => cases negative <;> cases hr
    | finite negative m e onGrid =>
      obtain rfl := Option.some.inj ((Binary64.rat?_finite onGrid).symm.trans hr)
      exact Binary64.finite_isRounded onGrid

/-- Integers up to this size are doubles themselves. -/
theorem double?_int {n : Int} (hn : |n| ≤ 2 ^ 53) (hx : double? (.int n) = some x) : x = n := by
  have hrounded := double?_isRounded (rat?_int n) hx
  rw [← mul_one (n : ℚ), ← zpow_zero (2 : ℚ)] at hrounded
  rw [hrounded.eq_of_dyadic hn (by decide), zpow_zero, mul_one]

/-- Integers and doubles that are in order are still in order after they have been converted. -/
theorem double?_mono {y : ℚ} (hx : p.double? = some x) (hy : q.double? = some y) (hle : p.IsUpTo q) : x ≤ y := by
  obtain ⟨r, hr⟩ := exists_rat?_of_double? hx
  obtain ⟨s, hs⟩ := exists_rat?_of_double? hy
  exact (double?_isRounded hr hx).mono (double?_isRounded hs hy) ((isUpTo_iff_of_rat? hr hs).mp hle)

end Quantity

end SupplyPlan
