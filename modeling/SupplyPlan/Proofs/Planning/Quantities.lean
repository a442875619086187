import SupplyPlan.Proofs.Number.Order
import SupplyPlan.Proofs.Planning.Proposal

namespace SupplyPlan

open Planning

namespace Amount

/-- A number can be compared with whatever counts as one. -/
theorem lt_eq_ok_iff {q : Quantity} {given : Amount} {less : Bool} :
    lt (.proper q) given = .ok less ↔ ∃ p, given.toQuantity? = some p ∧ q.lt p = less := by
  unfold lt toQuantity?
  rw [show (toJson? (.proper q)) = some (.number q) from rfl]
  cases given.toJson? with
  | none => simp
  | some v =>
    cases v <;> simp [Json.isLess?, Json.inOrder?, Json.toQuantity?, Json.Comparison.ofNumbers]

/-- A quantity is left as it is, or the reorder quantity takes its place because it is greater. -/
theorem raiseTo_cases {q : Quantity} {reorder : Option Amount} {a : Amount}
    (h : raiseTo (.proper q) reorder = .ok a) :
    (reorder = none ∧ a = .proper q) ∨
      ∃ given p, reorder = some given ∧ given.toQuantity? = some p ∧
        (q.lt p = true ∧ a = given ∨ ¬ q.lt p = true ∧ a = .proper q) := by
  obtain ⟨raised, hraised, h⟩ := bind_eq_ok_iff.mp h
  obtain rfl := Except.ok.inj h
  cases reorder with
  | none =>
    obtain rfl := Except.ok.inj hraised
    exact .inl ⟨rfl, rfl⟩
  | some given =>
    obtain ⟨less, hless, hraised⟩ := bind_eq_ok_iff.mp hraised
    obtain ⟨p, hp, rfl⟩ := lt_eq_ok_iff.mp hless
    refine .inr ⟨given, p, rfl, hp, ?_⟩
    cases hlt : q.lt p with
    | true =>
      rw [hlt] at hraised
      obtain rfl := Except.ok.inj hraised
      exact .inl ⟨rfl, rfl⟩
    | false =>
      rw [hlt] at hraised
      obtain rfl := Except.ok.inj hraised
      exact .inr ⟨by simp, rfl⟩

end Amount

/-- A quantity is settled for an order: it is none of its own only if none was asked for, and otherwise it is at least
zero, at least what was asked for, and at least a reorder quantity that is a number. -/
structure Quantity.IsSettledFor (k q : Quantity) (reorder : Option Amount) : Prop where
  nan_iff : k = .float .nan ↔ q = .float .nan
  nonneg_iff : IsUpTo (.int 0) k ↔ q ≠ .float .nan
  enough_iff : q.IsUpTo k ↔ q ≠ .float .nan
  reorder_iff : ∀ given ∈ reorder, ∃ p, given.toQuantity? = some p ∧
    (p.IsUpTo k ↔ q ≠ .float .nan ∧ p ≠ .float .nan)

theorem Amount.isSettledFor_of_raiseTo {q : Quantity} (hq : q.isNegative = false) {reorder : Option Amount} {a : Amount}
    (h : raiseTo (.proper q) reorder = .ok a) : ∃ k, a.toQuantity? = some k ∧ k.IsSettledFor q reorder := by
  rcases raiseTo_cases h with ⟨rfl, rfl⟩ | ⟨given, p, rfl, hp, ⟨hlt, rfl⟩ | ⟨hnot, rfl⟩⟩
  · refine ⟨q, rfl, Iff.rfl, Quantity.zero_isUpTo_iff hq, Quantity.isUpTo_self_iff, fun other hother => ?_⟩
    exact absurd hother (Option.not_mem_none other)
  · obtain ⟨hq', hp'⟩ := Quantity.ne_nan_of_lt hlt
    have hle := Quantity.isUpTo_of_lt hlt
    have hzero := ((Quantity.zero_isUpTo_iff hq).mpr hq').trans hle
    refine ⟨p, hp, iff_of_false hp' hq', iff_of_true hzero hq', iff_of_true hle hq', fun other hother => ?_⟩
    obtain rfl := Option.mem_some_iff.mp hother
    exact ⟨p, hp, iff_of_true (Quantity.isUpTo_self_iff.mpr hp') ⟨hq', hp'⟩⟩
  · refine ⟨q, rfl, Iff.rfl, Quantity.zero_isUpTo_iff hq, Quantity.isUpTo_self_iff, fun other hother => ?_⟩
    obtain rfl := Option.mem_some_iff.mp hother
    exact ⟨p, hp, Quantity.isUpTo_iff_of_not_lt hnot⟩

/-- No order is computed for a number below zero. -/
theorem ProposalRequest.isNegative_of_order {p : Planner} {r : ProposalRequest} {q : Quantity}
    (hquantity : r.quantity = .proper q) {found : ProposedOrder × StartDateCalculation}
    (h : (r.order p).result = .ok found) : q.isNegative = false := by
  unfold ProposalRequest.order at h
  simp only [Logged.result_bind, Logged.result_lift] at h
  obtain ⟨_, hrefused, -⟩ := bind_eq_ok_iff.mp h
  unfold refuseNegative at hrefused
  rw [hquantity] at hrefused
  obtain ⟨q', hq', hrefused⟩ := bind_eq_ok_iff.mp hrefused
  obtain rfl : q = q' := Except.ok.inj hq'
  cases hnegative : q.isNegative with
  | false => rfl
  | true =>
    rw [hnegative] at hrefused
    cases hrefused

theorem Planner.reorderQuantity_of_facility? {p : Planner} {order : ProposedOrder} {reorder : Option Amount}
    (h : p.reorderQuantity order none = .ok reorder) {settings : ProductFacility}
    (hsettings : p.facility? order.product.id order.facility = .ok (some settings)) :
    reorder = settings.reorderQuantity := by
  obtain ⟨found, hfound, h⟩ := bind_eq_ok_iff.mp h
  obtain rfl := Except.ok.inj (hsettings.symm.trans hfound)
  exact (Except.ok.inj h).symm

/-- Raw material of which a lot is ordered at least. -/
def Operation.stock (product : Text) (lot : Quantity) : List Operation :=
  [register product .rawMaterial,
    setProductFacility
      { product := some product
        facility := some standardFacility
        daysToShip := .proper (.int 0)
        reorderQuantity := some (.proper lot)
        minimumStock := none }]

def Session.stocked (product : Text) (lot : Quantity) : Session :=
  (Operation.stock product lot).foldl after (fresh .numbered (.inMemory .standard))

/-- So many units of a product that is bought. -/
def ProposalRequest.bought (product : Text) (quantity : Quantity) (requiredBy : Moment) : ProposalRequest where
  product := some product
  requiredBy := some requiredBy
  quantity := .proper quantity
  facility := none
  manufacturingFacility := none
  isBuilt := some false
  daysToShip := none
  planName := none

/-- A NaN is not refused, because it is not below zero, and no reorder quantity takes its place. -/
theorem not_isUpTo_of_proposeOrder : ¬ ∀ (s : Session) (r : ProposalRequest) (q : Quantity) (o : ProposalOutcome)
    (id : Text), r.quantity = .proper q → ((proposeOrder r).perform s).1 = .ok o → o.requirement = some id →
      ∃ record k, ((proposeOrder r).perform s).2.planner.requirements.get (.text id) = .ok record ∧
        record.quantity.toQuantity? = some k ∧ Quantity.IsUpTo (.int 0) k ∧ q.IsUpTo k := by
  intro hall
  obtain ⟨s, hs⟩ : ∃ s, s = Session.stocked "SCREW" (.int 12) := exists_eq
  obtain ⟨r, hr⟩ : ∃ r, r = ProposalRequest.bought "SCREW" (.float .nan) (.proper (.atNoon ⟨738607, by decide⟩)) :=
    exists_eq
  have hrequirement : ((proposeOrder r).perform s).1.toOption.bind (·.requirement) = some "id-1" := by
    rw [hs, hr]
    decide +kernel
  have hrecorded : (((proposeOrder r).perform s).2.planner.requirements.get (.text "id-1")).toOption.map
      (·.quantity.toQuantity?) = some (some (.float .nan)) := by
    rw [hs, hr]
    decide +kernel
  obtain ⟨o, hfound, hid⟩ := Option.bind_eq_some_iff.mp hrequirement
  obtain ⟨record, k, hget, hk, -, henough⟩ :=
    hall s r (.float .nan) o "id-1" (congrArg _ hr) (eq_ok_of_toOption hfound) hid
  rw [hget] at hrecorded
  have hnan := hk.symm.trans (Option.some.inj hrecorded)
  rw [Option.some.inj hnan] at henough
  exact Quantity.isUpTo_self_iff.mp henough rfl

/-- The requirement of a proposal is for a number of units that is at least zero, at least what was asked for, and at
least the reorder quantity that is found for the product at the facility of the order. The exceptions are NaNs: one that
is asked for is recorded, whatever the reorder quantity is, and one that is the reorder quantity has no effect. -/
theorem proposeOrder_quantity {s : Session} {r : ProposalRequest} {q : Quantity} (hquantity : r.quantity = .proper q)
    {o : ProposalOutcome} (h : ((proposeOrder r).perform s).1 = .ok o) {id : Text} (hid : o.requirement = some id) :
    ∃ record k, ((proposeOrder r).perform s).2.planner.requirements.get (.text id) = .ok record ∧
      record.quantity.toQuantity? = some k ∧ (k = .float .nan ↔ q = .float .nan) ∧
      (Quantity.IsUpTo (.int 0) k ↔ q ≠ .float .nan) ∧ (q.IsUpTo k ↔ q ≠ .float .nan) ∧
      ∀ settings given, s.planner.facility? o.order.product.id o.order.facility = .ok (some settings) →
        settings.reorderQuantity = some given →
        ∃ p, given.toQuantity? = some p ∧ (p.IsUpTo k ↔ q ≠ .float .nan ∧ p ≠ .float .nan) := by
  have hproposed := proposeOrder_proposed r s
  rw [h] at hproposed
  generalize ((proposeOrder r).perform s).2.planner = after at hproposed ⊢
  generalize hresult : (Except.ok o : Except PlanError ProposalOutcome) = result at hproposed
  cases hproposed with
  | failed e => cases hresult
  | made horder hrecorded =>
    obtain rfl := Except.ok.inj hresult
    have hq := ProposalRequest.isNegative_of_order hquantity horder
    obtain ⟨reorder, hreorder, hraised⟩ := (r.isAnsweredBy_of_order horder).quantity
    rw [hquantity] at hraised
    obtain ⟨k, hk, hsettled⟩ := Amount.isSettledFor_of_raiseTo hq hraised
    rw [hid] at hrecorded
    cases hrecorded with
    | added _ _ _ hadd =>
      refine ⟨_, k, Store.get_added hadd, hk, hsettled.nan_iff, hsettled.nonneg_iff, hsettled.enough_iff, ?_⟩
      intro settings given hsettings hgiven
      have heq := Planner.reorderQuantity_of_facility? hreorder hsettings
      exact hsettled.reorder_iff given (heq.trans hgiven)

/-- Of screws that are reordered by the dozen, seven are not enough. -/
theorem proposeOrder_quantity_screws :
    ∃ s r o id record k, s = Session.stocked "SCREW" (.int 12) ∧
      r = .bought "SCREW" (.int 7) (.proper (.atNoon ⟨738607, by decide⟩)) ∧
      ((proposeOrder r).perform s).1 = .ok o ∧ o.requirement = some id ∧
      ((proposeOrder r).perform s).2.planner.requirements.get (.text id) = .ok record ∧
      record.quantity.toQuantity? = some k ∧ Quantity.IsUpTo (.int 7) k ∧ Quantity.IsUpTo (.int 12) k := by
  obtain ⟨s, hs⟩ : ∃ s, s = Session.stocked "SCREW" (.int 12) := exists_eq
  obtain ⟨r, hr⟩ : ∃ r, r = ProposalRequest.bought "SCREW" (.int 7) (.proper (.atNoon ⟨738607, by decide⟩)) :=
    exists_eq
  have hshown : ((proposeOrder r).perform s).1.toOption.map
      (fun o => (o.requirement, o.order.product.id, o.order.facility)) =
        some (some (.ofString "id-1"), some (.ofString "SCREW"), some standardFacility) := by
    rw [hs, hr]
    decide +kernel
  have hlot : ∃ settings, s.planner.facility? (some "SCREW") (some standardFacility) = .ok (some settings) ∧
      settings.reorderQuantity = some (.proper (.int 12)) := by
    rw [hs]
    exact ⟨_, rfl, rfl⟩
  obtain ⟨o, hfound, hshows⟩ := Option.map_eq_some_iff.mp hshown
  obtain ⟨hid, hshows⟩ := Prod.mk.inj hshows
  obtain ⟨hproduct, hfacility⟩ := Prod.mk.inj hshows
  have hresult := eq_ok_of_toOption hfound
  rw [← hproduct, ← hfacility] at hlot
  obtain ⟨settings, hsettings, hdozen⟩ := hlot
  obtain ⟨record, k, hget, hk, -, -, henough, hreorder⟩ := proposeOrder_quantity (congrArg _ hr) hresult hid
  obtain ⟨p, hp, hlot⟩ := hreorder settings _ hsettings hdozen
  obtain rfl := Option.some.inj hp
  exact ⟨s, r, o, "id-1", record, k, hs, hr, hresult, hid, hget, hk, henough.mpr (by decide), hlot.mpr (by decide)⟩

end SupplyPlan
