import SupplyPlan.Proofs.Explosion.Shipping
import SupplyPlan.Proofs.Number.Order

namespace SupplyPlan

namespace Binary64

theorem ofRatio_cases (negative : Bool) (num den : Nat) :
    ofRatio negative num den = .infinite negative ∨
      ∃ m q onGrid, ofRatio negative num den = .finite negative m q onGrid ∧ (num = 0 → m = 0) := by
  have hgrid (m : Nat) (q : Int) (hnum : num ≠ 0) : ofGrid negative m q = .infinite negative ∨
      ∃ m' q' onGrid, ofGrid negative m q = .finite negative m' q' onGrid ∧ (num = 0 → m' = 0) := by
    unfold ofGrid
    split
    · next onGrid => exact .inr ⟨m, q, onGrid, rfl, fun hzero => absurd hzero hnum⟩
    · exact .inl rfl
  unfold ofRatio
  by_cases hzero : num = 0
  · rw [if_pos hzero]
    exact .inr ⟨0, -1074, by decide, rfl, fun _ => rfl⟩
  · rw [if_neg hzero]
    dsimp only
    split
    · exact hgrid _ _ hzero
    · exact hgrid _ _ hzero

end Binary64

namespace Quantity

variable {low high q : Quantity}

theorem IsUpTo.not_lt {p q : Quantity} (h : p.IsUpTo q) : ¬ q.lt p = true := by
  rw [lt_iff]
  rintro ⟨y, x, hq, hp, hlt⟩
  obtain ⟨x', y', hp', hq', hle⟩ := isUpTo_iff.mp h
  obtain rfl := Option.some.inj (hp.symm.trans hp')
  obtain rfl := Option.some.inj (hq.symm.trans hq')
  exact hle.not_gt hlt

theorem IsUpTo.ne_nan {p q : Quantity} (h : p.IsUpTo q) : p ≠ .float .nan ∧ q ≠ .float .nan :=
  ((isUpTo_iff_of_not_lt h.not_lt).mp h).symm

/-- The number brought between two limits, the lower one first. -/
def clamped (q low high : Quantity) : Quantity := (q.larger low).smaller high

/-- Nothing is less than a NaN or greater than one, so it is taken for a number between the limits. -/
theorem clamped_nan (low high : Quantity) : clamped (.float .nan) low high = .float .nan := by
  have hsmaller : ¬ high.lt (.float .nan) = true := by
    rw [lt_iff]
    rintro ⟨_, y, -, hy, -⟩
    exact (exists_place_iff.mp ⟨y, hy⟩) rfl
  exact if_neg hsmaller

theorem clamped_of_mem (hlow : low.IsUpTo q) (hhigh : q.IsUpTo high) : q.clamped low high = q := by
  have hlarger : q.larger low = q := if_neg hlow.not_lt
  rw [clamped, hlarger]
  exact if_neg hhigh.not_lt

theorem clamped_mem (hlimits : low.IsUpTo high) (hq : q ≠ .float .nan) :
    low.IsUpTo (q.clamped low high) ∧ (q.clamped low high).IsUpTo high := by
  have hlarger : low.IsUpTo (q.larger low) := by
    unfold larger
    by_cases hlt : q.lt low = true
    · rw [if_pos hlt]
      exact isUpTo_self_iff.mpr hlimits.ne_nan.1
    · rw [if_neg hlt]
      exact (isUpTo_iff_of_not_lt hlt).mpr ⟨hq, hlimits.ne_nan.1⟩
  unfold clamped smaller
  by_cases hlt : high.lt (q.larger low) = true
  · rw [if_pos hlt]
    exact ⟨hlimits, isUpTo_self_iff.mpr hlimits.ne_nan.2⟩
  · rw [if_neg hlt]
    exact ⟨hlarger, (isUpTo_iff_of_not_lt hlt).mpr ⟨hlimits.ne_nan.2, hlarger.ne_nan.2⟩⟩

theorem clamped_eq_nan_iff (hlimits : low.IsUpTo high) : q.clamped low high = .float .nan ↔ q = .float .nan := by
  constructor
  · intro h
    by_contra hq
    exact (clamped_mem hlimits hq).2.ne_nan.1 h
  · rintro rfl
    exact clamped_nan low high

theorem int_isUpTo_int {a b : Int} : IsUpTo (.int a) (.int b) ↔ a ≤ b := by
  have hne (n : Int) : int n ≠ .float .nan := nofun
  by_cases h : b < a
  · refine iff_of_false (fun hupTo => hupTo.not_lt ?_) (not_le.mpr h)
    rw [lt_int]
    exact decide_eq_true h
  · refine iff_of_true ((isUpTo_iff_of_not_lt ?_).mpr ⟨hne b, hne a⟩) (not_lt.mp h)
    rw [lt_int]
    simpa using h

theorem lt_zero_of_sign {negative : Bool} {m : Nat} {e : Int} {onGrid : OnGrid m e}
    (h : negative = false ∨ m = 0) : (float (.finite negative m e onGrid)).lt (.int 0) = false := by
  have hsigned : 0 ≤ (if negative then -(m : Int) else m) := by
    rcases h with rfl | rfl
    · simp
    · simp
  have hpow : 0 ≤ Int.pow 2 (e - 0).toNat := (Int.pow_pos (by decide)).le
  refine decide_eq_false (not_lt.mpr ?_)
  rw [Int.zero_mul]
  exact Int.mul_nonneg hsigned hpow

/-- A quotient with no sign is not less than zero, and neither is a quotient of zero. -/
theorem lt_zero_of_ofRatio {negative : Bool} {num : Nat} (den : Nat) (h : negative = false ∨ num = 0) :
    (float (Binary64.ofRatio negative num den)).lt (.int 0) = false ∧
      Binary64.ofRatio negative num den ≠ .nan := by
  rcases Binary64.ofRatio_cases negative num den with hinfinite | ⟨m, e, onGrid, hfinite, hzero⟩
  · rw [hinfinite]
    rcases h with rfl | rfl
    · exact ⟨rfl, nofun⟩
    · cases hinfinite
  · rw [hfinite]
    exact ⟨lt_zero_of_sign (h.imp_right hzero), nofun⟩

/-- A whole number that is not negative has no double, or one with no sign. -/
theorem toBinary64?_int {n : Int} (hn : 0 ≤ n) :
    toBinary64? (.int n) = none ∨ ∃ m e onGrid, toBinary64? (.int n) = some (.finite false m e onGrid) := by
  have hsign : decide (n < 0) = false := decide_eq_false (not_lt.mpr hn)
  rw [toBinary64?, Binary64.ofInt, hsign]
  rcases Binary64.ofRatio_cases false n.natAbs 1 with hinfinite | ⟨m, e, onGrid, hfinite, -⟩
  · rw [hinfinite]
    exact .inl rfl
  · rw [hfinite]
    exact .inr ⟨m, e, onGrid, rfl⟩

/-- The product of two numbers that are not negative, the second of which is not infinite either. -/
theorem mul?_nonneg {n : Int} (hn : 0 ≤ n) (hq : IsUpTo (.int 0) q) (hfinite : q ≠ .float (.infinite false))
    {product : Quantity} (h : mul? (.int n) q = some product) :
    product.lt (.int 0) = false ∧ product ≠ .float .nan := by
  cases q with
  | int k =>
    obtain rfl := Option.some.inj h
    rw [lt_int]
    exact ⟨decide_eq_false (not_lt.mpr (Int.mul_nonneg hn (int_isUpTo_int.mp hq))), nofun⟩
  | float x =>
    cases x with
    | nan => exact absurd rfl hq.ne_nan.2
    | infinite negative =>
      cases negative with
      | true => exact absurd rfl hq.not_lt
      | false => exact absurd rfl hfinite
    | finite negative m e onGrid =>
      have hsign : negative = false ∨ m = 0 := sign_of_not_lt_zero (Bool.eq_false_iff.mpr hq.not_lt)
      obtain ⟨x, hx, h⟩ := Option.bind_eq_some_iff.mp h
      rcases toBinary64?_int hn with hnone | ⟨m', e', onGrid', hdouble⟩
      · cases hnone.symm.trans hx
      · obtain rfl := Option.some.inj (hdouble.symm.trans hx)
        obtain rfl := Option.some.inj h
        have hzero : (false != negative) = false ∨ m' * m * Nat.pow 2 (e' + e).toNat = 0 :=
          hsign.imp (by rintro rfl; rfl) (by rintro rfl; rw [Nat.mul_zero, Nat.zero_mul])
        obtain ⟨hlt, hne⟩ := lt_zero_of_ofRatio (Nat.pow 2 (-(e' + e)).toNat) hzero
        exact ⟨hlt, fun hnan => hne (Quantity.float.inj hnan)⟩

end Quantity

end SupplyPlan
