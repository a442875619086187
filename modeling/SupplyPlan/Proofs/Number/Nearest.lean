import Mathlib.Algebra.Order.Field.Basic
import Mathlib.Data.Rat.Floor
import Mathlib.Tactic.FieldSimp
import Mathlib.Tactic.Linarith
import Mathlib.Tactic.LinearCombination
import SupplyPlan.Number.Rounding

namespace SupplyPlan

/-- No integer is nearer to the number, and if another one is as near, this one is even. -/
structure IsNearestEven (n : ℤ) (x : ℚ) : Prop where
  nearest : ∀ k : ℤ, |x - n| ≤ |x - k|
  even : ∀ k : ℤ, k ≠ n → |x - k| = |x - n| → Even n

/-- Nothing but the distance counts: two integers are at least one apart, and none is farther away than a half. -/
theorem isNearestEven_iff {n : ℤ} {x : ℚ} :
    IsNearestEven n x ↔ |x - n| ≤ 1 / 2 ∧ (|x - n| = 1 / 2 → Even n) := by
  constructor
  · rintro ⟨hnearest, heven⟩
    refine ⟨(hnearest (round x)).trans (abs_sub_round x), fun htie => ?_⟩
    rcases eq_or_eq_neg_of_abs_eq htie with habove | hbelow
    · refine heven (n + 1) (by omega) ?_
      rw [Int.cast_add, Int.cast_one, ← sub_sub, habove]
      norm_num
    · refine heven (n - 1) (by omega) ?_
      rw [Int.cast_sub, Int.cast_one, ← sub_add, hbelow]
      norm_num
  · rintro ⟨hnear, heven⟩
    have hapart (k : ℤ) (hk : k ≠ n) : 1 ≤ |x - n| + |x - k| := by
      have hdistinct : (1 : ℚ) ≤ |(k : ℚ) - n| := by exact_mod_cast Int.one_le_abs (sub_ne_zero.mpr hk)
      have hsplit := abs_sub_le (k : ℚ) x n
      rw [abs_sub_comm (k : ℚ) x] at hsplit
      linarith
    refine ⟨fun k => ?_, fun k hk hsame => heven ?_⟩
    · by_cases hk : k = n
      · rw [hk]
      · have hsum := hapart k hk
        linarith
    · have hsum := hapart k hk
      linarith

namespace IsNearestEven

variable {n k : ℤ} {x y : ℚ}

theorem intCast (n : ℤ) : IsNearestEven n n := isNearestEven_iff.mpr ⟨by simp, by simp⟩

theorem neg (h : IsNearestEven n x) : IsNearestEven (-n) (-x) := by
  have hsame : |-x - (-n : ℤ)| = |x - n| := by
    rw [Int.cast_neg, ← neg_sub', abs_neg]
  obtain ⟨hnear, heven⟩ := isNearestEven_iff.mp h
  exact isNearestEven_iff.mpr ⟨hsame ▸ hnear, fun htie => (heven (hsame ▸ htie)).neg⟩

/-- Two integers could only be out of order next to the number halfway between them, and one of them is not even. -/
theorem mono (hn : IsNearestEven n x) (hk : IsNearestEven k y) (hle : x ≤ y) : n ≤ k := by
  by_contra hlt
  obtain ⟨hnnear, hneven⟩ := isNearestEven_iff.mp hn
  obtain ⟨hknear, hkeven⟩ := isNearestEven_iff.mp hk
  have hstep : (k : ℚ) + 1 ≤ n := by exact_mod_cast (by omega : k + 1 ≤ n)
  obtain ⟨hnlow, -⟩ := abs_le.mp hnnear
  obtain ⟨-, hkhigh⟩ := abs_le.mp hknear
  have hx : x - n = -(1 / 2) := by linarith
  have hy : y - k = 1 / 2 := by linarith
  have hnext : n = k + 1 := by exact_mod_cast (by linarith : (n : ℚ) = k + 1)
  have hhalf : |(1 / 2 : ℚ)| = 1 / 2 := abs_of_nonneg (by norm_num)
  have hneven : Even n := hneven (by rw [hx, abs_neg, hhalf])
  have hkeven : Even k := hkeven (by rw [hy, hhalf])
  rw [hnext, Int.even_add_one] at hneven
  exact hneven hkeven

theorem unique (hn : IsNearestEven n x) (hk : IsNearestEven k x) : n = k :=
  le_antisymm (hn.mono hk le_rfl) (hk.mono hn le_rfl)

end IsNearestEven

/-- Only what is left of the division decides, so a quotient halfway between two integers leaves half of the divisor. -/
theorem two_mul_emod_of_half {n r d : Int} (hd : 0 < d) (hhalf : 2 * n - 2 * (r * d) = d ∨ 2 * n - 2 * (r * d) = -d) :
    2 * (n % d) = d := by
  obtain ⟨k, hk, hodd⟩ : ∃ k, 2 * (n % d) = d * k ∧ k % 2 = 1 := by
    have hsplit := Int.mul_ediv_add_emod n d
    rcases hhalf with hhalf | hhalf
    · refine ⟨2 * r + 1 - 2 * (n / d), ?_, by omega⟩
      linear_combination 2 * hsplit + hhalf
    · refine ⟨2 * r - 1 - 2 * (n / d), ?_, by omega⟩
      linear_combination 2 * hsplit + hhalf
  have hlow := Int.emod_nonneg n hd.ne'
  have hhigh := Int.emod_lt_of_pos n hd
  have hkpos : 0 ≤ k := nonneg_of_mul_nonneg_right (by omega) hd
  have hkless : k < 2 := lt_of_mul_lt_mul_left (by omega) hd.le
  obtain rfl : k = 1 := by omega
  rw [hk, mul_one]

theorem roundHalfEven_isNearestEven (n : Int) {d : Nat} (hd : 0 < d) : IsNearestEven (roundHalfEven n d) (n / d) := by
  have hpos : (0 : ℚ) < 2 * d := by exact_mod_cast Nat.mul_pos two_pos hd
  have hdistance : |(n / d : ℚ) - roundHalfEven n d| = |(2 * n - 2 * (roundHalfEven n d * d) : ℚ)| / (2 * d) := by
    rw [← abs_of_pos hpos, ← abs_div]
    congr 1
    field_simp
  refine isNearestEven_iff.mpr ⟨?_, fun htie => ?_⟩
  · obtain ⟨hlow, hhigh⟩ := roundHalfEven_near (n := n) hd
    have hnear : |2 * n - 2 * (roundHalfEven n d * d)| ≤ d := abs_le.mpr ⟨by omega, by omega⟩
    have hnear : |(2 * n - 2 * (roundHalfEven n d * d) : ℚ)| ≤ d := by exact_mod_cast hnear
    rw [hdistance, div_le_iff₀ hpos]
    linarith
  · rw [hdistance, div_eq_iff hpos.ne'] at htie
    have htie : |(2 * n - 2 * (roundHalfEven n d * d) : ℚ)| = d := by linarith
    have htie : |2 * n - 2 * (roundHalfEven n d * d)| = d := by exact_mod_cast htie
    have hhalf := two_mul_emod_of_half (by omega) (eq_or_eq_neg_of_abs_eq htie)
    exact Int.even_iff.mpr (roundHalfEven_tie hhalf)

end SupplyPlan
