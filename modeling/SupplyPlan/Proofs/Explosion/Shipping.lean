import SupplyPlan.Planning.Explosion
import SupplyPlan.Proofs.Planning.Loading
import SupplyPlan.Proofs.Planning.Reached

namespace SupplyPlan

theorem roundHalfEven_nonneg {n : Int} (hn : 0 ≤ n) (d : Nat) : 0 ≤ roundHalfEven n d := by
  have hwhole : 0 ≤ n / (d : Int) := Int.ediv_nonneg hn (Int.natCast_nonneg d)
  unfold roundHalfEven
  dsimp only
  split
  · exact hwhole
  · split <;> omega

/-- Rounding keeps the sign. -/
theorem Binary64.sign_of_ofRatio {negative below : Bool} {num den m : Nat} {q : Int} {onGrid : OnGrid m q}
    (h : ofRatio negative num den = .finite below m q onGrid) : below = negative := by
  have hgrid {m' : Nat} {q' : Int} (h : ofGrid negative m' q' = .finite below m q onGrid) : below = negative := by
    unfold ofGrid at h
    split at h
    · exact (Binary64.finite.inj h).1.symm
    · cases h
  unfold ofRatio at h
  dsimp only at h
  split at h
  · exact (Binary64.finite.inj h).1.symm
  · split at h
    · exact hgrid h
    · exact hgrid h

theorem Binary64.parts_nonneg {negative : Bool} {m : Nat} (q : Int) (h : negative = false ∨ m = 0) :
    0 ≤ (parts negative m q).1 ∧ 0 ≤ (parts negative m q).2.1 := by
  rcases h with rfl | rfl
  · exact ⟨Int.mul_nonneg (by decide) (Int.natCast_nonneg _), Int.mul_nonneg (by decide) (Int.natCast_nonneg _)⟩
  · simp only [parts, scaleByTwo, Nat.zero_mul, Nat.zero_div, Nat.zero_mod, Int.natCast_zero, Int.mul_zero, le_refl,
      and_self]

/-- A double that is not less than zero has no sign, or it is a zero. -/
theorem Quantity.sign_of_not_lt_zero {negative : Bool} {m : Nat} {q : Int} {onGrid : OnGrid m q}
    (h : (float (.finite negative m q onGrid)).lt (.int 0) = false) : negative = false ∨ m = 0 := by
  cases negative with
  | false => exact .inl rfl
  | true =>
    have hscaled : ¬ -(m : Int) * Int.pow 2 (q - 0).toNat < 0 * Int.pow 2 (0 - q).toNat := of_decide_eq_false h
    have hpow : 0 < Int.pow 2 (q - 0).toNat := Int.pow_pos (by decide)
    refine .inr ?_
    by_contra hm
    have hneg : -(m : Int) * Int.pow 2 (q - 0).toNat < 0 := Int.mul_neg_of_neg_of_pos (by omega) hpow
    omega

namespace Duration

/-- Nothing that is not negative takes less than no time. -/
theorem ofUnits_nonneg {unit : Nat} {units : Quantity} {d : Duration} (hunits : units.lt (.int 0) = false)
    (h : ofUnits unit units = .ok d) : 0 ≤ d.micros := by
  cases units with
  | int n =>
    rw [Quantity.lt_int, decide_eq_false_iff_not, not_lt] at hunits
    rw [ofMicros_eq_ok_iff.mp h]
    exact Int.mul_nonneg hunits (Int.natCast_nonneg unit)
  | float x =>
    cases x with
    | nan => cases h
    | infinite negative => cases h
    | finite negative m q onGrid =>
      obtain ⟨hwhole, hrest⟩ := Binary64.parts_nonneg q (Quantity.sign_of_not_lt_zero hunits)
      simp only [ofUnits] at h
      split at h
      · next below m' q' onGrid' hfraction =>
        have hbelow : below = false := by
          rw [Binary64.sign_of_ofRatio hfraction]
          exact decide_eq_false (not_lt.mpr hrest)
        rw [ofMicros_eq_ok_iff.mp h, hbelow]
        refine roundHalfEven_nonneg ?_ _
        have hsum := Int.mul_nonneg (Int.mul_nonneg hwhole (Int.natCast_nonneg unit))
          (Int.natCast_nonneg (scaleByTwo m' q').2)
        exact Int.add_nonneg hsum (Int.natCast_nonneg _)
      · cases h

theorem ofUnits_eq_error {unit : Nat} {units : Quantity} {e : PlanError} (h : ofUnits unit units = .error e) :
    e = .outOfRange ∨ e = .unreadableValue ∧ units = .float .nan := by
  have hmicros {n : Int} (h : ofMicros n = .error e) : e = .outOfRange := by
    unfold ofMicros at h
    split at h <;> cases h
    rfl
  cases units with
  | int n => exact .inl (hmicros h)
  | float x =>
    cases x with
    | nan =>
      cases h
      exact .inr ⟨rfl, rfl⟩
    | infinite negative =>
      cases h
      exact .inl rfl
    | finite negative m q onGrid =>
      simp only [ofUnits] at h
      split at h
      · exact .inl (hmicros h)
      · cases h
        exact .inl rfl

end Duration

namespace Amount

/-- An amount that is not less than zero stands for a number that is not. -/
theorem lt_zero_of_toQuantity {a : Amount} {q : Quantity} (hlt : a.lt (.proper (.int 0)) = .ok false)
    (hq : a.toQuantity = .ok q) : q.lt (.int 0) = false := by
  cases a with
  | proper q' =>
    obtain rfl : q' = q := Except.ok.inj hq
    exact Except.ok.inj hlt
  | other v =>
    cases v with
    | date d => cases hq
    | json v =>
      cases v with
      | bool b =>
        obtain rfl : Quantity.int (if b then 1 else 0) = q := Except.ok.inj hq
        cases b <;> simp [Quantity.lt_int]
      | number q' =>
        obtain rfl : q' = q := Except.ok.inj hq
        simpa [lt, toJson?, Json.isLess?, Json.inOrder?, Json.toQuantity?, Json.Comparison.ofNumbers] using hlt
      | null | string s | array items | object members => cases hq

theorem toQuantity_eq_error {a : Amount} {e : PlanError} (h : a.toQuantity = .error e) : e = .typeMismatch := by
  unfold toQuantity at h
  split at h <;> cases h
  rfl

end Amount

theorem Moment.minus_eq_error {m : Moment} {d : Duration} {e : PlanError} (h : m.minus d = .error e) :
    e = .outOfRange ∨ e = .typeMismatch := by
  cases m with
  | proper t =>
    have hminus : t.minus d = .error e := map_eq_error_iff.mp h
    unfold Instant.minus Instant.ofMicros at hminus
    split at hminus <;> cases hminus
    exact .inl rfl
  | other v =>
    cases v with
    | json v =>
      cases h
      exact .inr rfl
    | date day =>
      have hminus : day.minusDays d.days = .error e := map_eq_error_iff.mp h
      unfold Date.minusDays at hminus
      split at hminus <;> cases hminus
      exact .inl rfl

/-- Stores answer for the settings of a component where they answer for those of the product above it. -/
theorem Store.Answers.keyOf {α β : Type} {settings : Store α} {products : Store β}
    (hkind : settings.kind = products.kind) {above product : Text} {facility : Option Text}
    (habove : settings.Answers (ProductFacility.keyOf (some above) facility)) (hproduct : products.Answers product) :
    settings.Answers (ProductFacility.keyOf (some product) facility) := by
  cases settings with
  | memory m => trivial
  | table t =>
    have hid : product.isEncodable = true := (answers_iff_of_kind_eq hkind product).mpr hproduct
    have hkey : (ProductFacility.keyOf (some above) facility).isEncodable = true := habove
    simp only [ProductFacility.keyOf, Text.isEncodable_append, Bool.and_eq_true] at hkey
    change (ProductFacility.keyOf (some product) facility).isEncodable = true
    simp only [ProductFacility.keyOf, Text.isEncodable_append, Bool.and_eq_true]
    exact ⟨⟨hid, hkey.1.2⟩, hkey.2⟩
  | closed => exact habove.elim

namespace Planner

/-- The arithmetic of dates fails: values leave their range or cannot be compared or calculated with, or the shipping
days of some product are a NaN. -/
inductive CannotCalculate (p : Planner) : PlanError → Prop where
  | outOfRange : CannotCalculate p .outOfRange
  | typeMismatch : CannotCalculate p .typeMismatch
  | notANumber {key : RecordId} {settings : ProductFacility} (hstored : (key, settings) ∈ p.facilities.entries)
      (hdays : settings.daysToShip.toQuantity = .ok (.float .nan)) : CannotCalculate p .unreadableValue

variable {p : Planner} {product facility : Option Text} {e : PlanError}

theorem facility?_eq_some {found : ProductFacility} (h : p.facility? product facility = .ok (some found)) :
    ∃ key, (key, found) ∈ p.facilities.entries := by
  unfold facility? at h
  split at h
  · next settings hget =>
    obtain rfl : settings = found := Option.some.inj (Except.ok.inj h)
    exact ⟨_, @Store.mem_entries_of_get _ _ _ (some _) hget⟩
  · cases h
  · cases h

/-- Stored shipping days were raised to zero, and settings that are missing stand for zero days. -/
theorem IsSound.shippingTime_nonneg (h : p.IsSound) {d : Duration} (htime : p.shippingTime product facility = .ok d) :
    0 ≤ d.micros := by
  obtain ⟨days, hdays, htime⟩ := bind_eq_ok_iff.mp htime
  obtain ⟨quantity, hquantity, htime⟩ := bind_eq_ok_iff.mp htime
  obtain ⟨found, hfound, hdays⟩ := bind_eq_ok_iff.mp hdays
  have hlt : days.lt (.proper (.int 0)) = .ok false := by
    cases found with
    | none =>
      obtain rfl := Except.ok.inj hdays
      simp [Quantity.lt_int]
    | some settings =>
      obtain rfl := Except.ok.inj hdays
      obtain ⟨key, hmem⟩ := facility?_eq_some hfound
      exact h.shippingDays (key, settings) hmem
  exact Duration.ofUnits_nonneg (Amount.lt_zero_of_toQuantity hlt hquantity) htime

/-- A shipping time is told unless the arithmetic of it fails. -/
theorem shippingTime_eq_error (hanswers : p.facilities.Answers (ProductFacility.keyOf product facility))
    (h : p.shippingTime product facility = .error e) : p.CannotCalculate e := by
  rcases bind_eq_error_iff.mp h with hdays | ⟨days, hdays, h⟩
  · rcases bind_eq_error_iff.mp hdays with hfound | ⟨found, -, hdays⟩
    · unfold facility? at hfound
      rcases hanswers.get_cases with ⟨settings, hget⟩ | ⟨record, hget⟩
      · simp [hget] at hfound
      · simp [hget] at hfound
    · cases hdays
  · rcases bind_eq_error_iff.mp h with hquantity | ⟨quantity, hquantity, h⟩
    · exact Amount.toQuantity_eq_error hquantity ▸ .typeMismatch
    · rcases Duration.ofUnits_eq_error h with rfl | ⟨rfl, rfl⟩
      · exact .outOfRange
      · obtain ⟨found, hfound, hdays⟩ := bind_eq_ok_iff.mp hdays
        cases found with
        | none =>
          obtain rfl := Except.ok.inj hdays
          cases hquantity
        | some settings =>
          obtain rfl := Except.ok.inj hdays
          obtain ⟨key, hmem⟩ := facility?_eq_some hfound
          exact .notANumber hmem hquantity

theorem ownStart_eq_error {required : Moment} (hanswers : p.facilities.Answers (ProductFacility.keyOf product facility))
    (h : p.ownStart product facility required = .error e) : p.CannotCalculate e := by
  rcases bind_eq_error_iff.mp h with htime | ⟨d, -, h⟩
  · exact shippingTime_eq_error hanswers htime
  · rcases Moment.minus_eq_error h with rfl | rfl
    · exact .outOfRange
    · exact .typeMismatch

theorem ownStart_proper_eq_ok_iff {t : Instant} {m : Moment} :
    p.ownStart product facility (.proper t) = .ok m ↔
      ∃ d u, p.shippingTime product facility = .ok d ∧ m = .proper u ∧ u.micros = t.micros - d.micros ∧
        u.offset = t.offset := by
  simp only [ownStart, bind_eq_ok_iff, Moment.minus_proper, map_eq_ok_iff, Instant.minus, Instant.ofMicros_eq_ok_iff]
  constructor
  · rintro ⟨d, hd, u, ⟨hmicros, hoffset⟩, rfl⟩
    exact ⟨d, u, hd, rfl, hmicros, hoffset⟩
  · rintro ⟨d, u, hd, rfl, hmicros, hoffset⟩
    exact ⟨d, hd, u, ⟨hmicros, hoffset⟩, rfl⟩

end Planner

end SupplyPlan
