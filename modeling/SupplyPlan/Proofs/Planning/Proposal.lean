import SupplyPlan.Proofs.Planning.Drawing
import SupplyPlan.Proofs.Store.Lookup
import SupplyPlan.Proofs.Explosion.Start

namespace SupplyPlan

open Planning

variable {p : Planner} {r : ProposalRequest}

namespace ProposalRequest

/-- An order answers a request: it is the one that was asked for, with the product that is registered, the quantity that
the settings ask for, and the start that is calculated for it. -/
structure IsAnsweredBy (r : ProposalRequest) (p : Planner) (order : ProposedOrder)
    (calculation : StartDateCalculation) : Prop where
  product : p.products.get (.named r.product) = .ok order.product
  facility : order.facility = r.facilityIn p
  manufacturingFacility : order.manufacturingFacility = (Text.nonEmpty r.manufacturingFacility).or (r.facilityIn p)
  isBuilt : (r.isBuiltIn p order.product).result = .ok order.isMade
  requiredBy : order.requiredBy = r.requiredBy
  quantity : ∃ reorder, p.reorderQuantity order none = .ok reorder ∧ r.quantity.raiseTo reorder = .ok order.quantity
  start : order.start = some calculation.start
  calculation : ∃ days, r.daysToShipIn p = .ok days ∧
    (p.calculateStartDate { order with start := none } days none).result = .ok calculation
  planName : order.planName = r.planName

theorem isAnsweredBy_of_order {order : ProposedOrder} {calculation : StartDateCalculation}
    (h : (r.order p).result = .ok (order, calculation)) : r.IsAnsweredBy p order calculation := by
  unfold ProposalRequest.order at h
  simp only [Logged.result_bind, Logged.result_lift] at h
  obtain ⟨_, -, h⟩ := bind_eq_ok_iff.mp h
  obtain ⟨product, hproduct, h⟩ := bind_eq_ok_iff.mp h
  obtain ⟨isBuilt, hbuilt, h⟩ := bind_eq_ok_iff.mp h
  obtain ⟨days, hdays, h⟩ := bind_eq_ok_iff.mp h
  obtain ⟨settled, hsettled, h⟩ := bind_eq_ok_iff.mp h
  obtain ⟨found, hcalculation, h⟩ := bind_eq_ok_iff.mp h
  obtain ⟨rfl, rfl⟩ := Prod.mk.inj (Except.ok.inj h)
  obtain ⟨reorder, hreorder, hsettled⟩ := bind_eq_ok_iff.mp hsettled
  obtain ⟨raised, hraised, hsettled⟩ := bind_eq_ok_iff.mp hsettled
  have hquantity : r.quantity.raiseTo reorder = .ok (raised.getD r.quantity) := by
    have hraised : r.quantity.raised? reorder = .ok raised := hraised
    rw [Amount.raiseTo, hraised]
    rfl
  cases raised <;> obtain rfl := Except.ok.inj hsettled
  all_goals
    exact {
      product := hproduct
      facility := rfl
      manufacturingFacility := rfl
      isBuilt := by cases isBuilt <;> exact hbuilt
      requiredBy := rfl
      quantity := ⟨reorder, hreorder, hquantity⟩
      start := rfl
      calculation := ⟨days, hdays, hcalculation⟩
      planName := rfl }

end ProposalRequest

/-- What comes of an order that is to be recorded, and the planner after it. Everything that can fail comes before the
requirement is added. -/
inductive ProposedOrder.Recorded (order : ProposedOrder) (p : Planner) :
    Except PlanError (Option Text) → Planner → Prop where
  | omitted (hproduct : order.product.productType = .workInProcess) : Recorded order p (.ok none) p
  | failed (e : PlanError) : Recorded order p (.error e) p
  | added (id : Text) {start : Option Moment} {requirements : Store Requirement}
      (hproduct : order.product.productType ≠ .workInProcess) (hstart : p.recordedStart order = .ok start)
      (hadd : p.requirements.add (.text id) (order.requirement id start) = .ok requirements) :
      Recorded order p (.ok (some id)) { p with requirements }

theorem ProposedOrder.Recorded.planner_eq_of_error {order : ProposedOrder} {q : Planner} {e : PlanError}
    (h : order.Recorded p (.error e) q) : q = p := by
  cases h
  rfl

theorem ProposedOrder.Stored.recorded {order : ProposedOrder} {ids : IdStream} {drawn : Nat}
    {stored : Except PlanError (Option Text)} {s : Session} (h : order.Stored p ids drawn stored s) :
    order.Recorded p stored s.planner := by
  cases h with
  | omitted hproduct hplanner => exact hplanner ▸ .omitted hproduct
  | failed _ _ hplanner => exact hplanner ▸ .failed _
  | refused _ _ _ hplanner => exact hplanner ▸ .failed _
  | added hproduct hstart hadd hplanner => exact hplanner ▸ .added _ hproduct hstart hadd

/-- What comes of a proposal, and the planner after it. -/
inductive ProposalRequest.Proposed (r : ProposalRequest) (p : Planner) :
    Except PlanError ProposalOutcome → Planner → Prop where
  | failed (e : PlanError) : Proposed r p (.error e) p
  | made {o : ProposalOutcome} {q : Planner} (horder : (r.order p).result = .ok (o.order, o.calculation))
      (hrecorded : o.order.Recorded p (.ok o.requirement) q) : Proposed r p (.ok o) q

theorem proposeOrder_proposed (r : ProposalRequest) (s : Session) :
    r.Proposed s.planner ((proposeOrder r).perform s).1 ((proposeOrder r).perform s).2.planner := by
  rcases proposeOrder_stored r s with
    ⟨e, -, hresult, hplanner, -⟩ | ⟨order, calculation, stored, horder, hstored, hresult⟩
  · rw [hresult, hplanner]
    exact .failed e
  · have hrecorded := hstored.recorded
    rw [hresult]
    cases stored with
    | error e => exact hrecorded.planner_eq_of_error ▸ .failed e
    | ok requirement => exact .made horder hrecorded

/-- A requirement that is stored for an outcome. Where the order is made it is required where it is made, and from the
start of the explosion on; otherwise from the calculated start on. -/
structure ProposalOutcome.IsRecordedAs (o : ProposalOutcome) (p : Planner) (record : Requirement) : Prop where
  id : o.requirement = some record.id
  status : record.status = .proposed
  product : record.product = o.order.product.id
  requiredBy : record.requiredBy = o.order.requiredBy
  quantity : record.quantity = o.order.quantity
  made : o.order.isMade = true →
    record.facility = o.order.manufacturingFacility ∧ record.requirementType = .internal ∧
      ∃ start, p.explosionStart o.order.product.id o.order.manufacturingFacility o.order.requiredBy = .ok start ∧
        record.start = some start
  bought : o.order.isMade = false →
    record.facility = o.order.facility ∧ record.requirementType = .product ∧
      record.start = some o.calculation.start

theorem ProposalOutcome.isRecordedAs_requirement {o : ProposalOutcome} {id : Text} {start : Option Moment}
    (hid : o.requirement = some id) (hcalculated : o.order.start = some o.calculation.start)
    (hstart : p.recordedStart o.order = .ok start) : o.IsRecordedAs p (o.order.requirement id start) where
  id := hid
  status := rfl
  product := rfl
  requiredBy := rfl
  quantity := rfl
  made := by
    intro hmade
    rw [Planner.recordedStart, if_pos hmade] at hstart
    obtain ⟨exploded, hexploded, rfl⟩ := map_eq_ok_iff.mp hstart
    exact ⟨if_pos hmade, if_pos hmade, exploded, hexploded, rfl⟩
  bought := by
    intro hbought
    have hnot : ¬ o.order.isMade = true := by simp [hbought]
    rw [Planner.recordedStart, if_neg hnot] at hstart
    exact ⟨if_neg hnot, if_neg hnot, (Except.ok.inj hstart).symm.trans hcalculated⟩

/-- Proposing is all or nothing. After a failure the planner is what it was. Otherwise at most its requirements have
changed: work in process gets none, and for any other product one requirement has come behind those before, under an id
of its own. -/
theorem proposeOrder_allOrNothing (r : ProposalRequest) {s : Session} (horderly : s.planner.requirements.IsOrderly) :
    (∀ e, ((proposeOrder r).perform s).1 = .error e → ((proposeOrder r).perform s).2.planner = s.planner) ∧
      ∀ o, ((proposeOrder r).perform s).1 = .ok o →
        r.IsAnsweredBy s.planner o.order o.calculation ∧
          ∃ requirements, ((proposeOrder r).perform s).2.planner = { s.planner with requirements } ∧
            (o.order.product.productType = .workInProcess →
              o.requirement = none ∧ requirements = s.planner.requirements) ∧
            (o.order.product.productType ≠ .workInProcess →
              ∃ record records, o.IsRecordedAs s.planner record ∧
                s.planner.requirements.toList = .ok records ∧ requirements.toList = .ok (records ++ [record]) ∧
                s.planner.requirements.get (.text record.id) = .error (.recordNotFound (.keyed (.text record.id))) ∧
                requirements.get (.text record.id) = .ok record ∧
                ∀ other, other ≠ record.id →
                  requirements.get (.text other) = s.planner.requirements.get (.text other)) := by
  have hproposed := proposeOrder_proposed r s
  generalize ((proposeOrder r).perform s).1 = result at hproposed ⊢
  generalize ((proposeOrder r).perform s).2.planner = after at hproposed ⊢
  cases hproposed with
  | failed e => exact ⟨fun _ _ => rfl, fun o h => nomatch h⟩
  | made horder hrecorded =>
    refine ⟨fun e h => (nomatch h), fun o ho => ?_⟩
    obtain rfl := (Except.ok.inj ho).symm
    have hanswered := r.isAnsweredBy_of_order horder
    refine ⟨hanswered, ?_⟩
    generalize hresult : (Except.ok _ : Except PlanError (Option Text)) = result at hrecorded
    cases hrecorded with
    | failed e => cases hresult
    | omitted hproduct =>
      exact ⟨s.planner.requirements, rfl, fun _ => ⟨Except.ok.inj hresult, rfl⟩, fun hne => absurd hproduct hne⟩
    | @added id start requirements hproduct hstart hadd =>
      refine ⟨requirements, rfl, fun hwip => absurd hwip hproduct, fun _ => ?_⟩
      have his := ProposalOutcome.isRecordedAs_requirement (Except.ok.inj hresult) hanswered.start hstart
      obtain ⟨records, hbefore, hafter⟩ := horderly.toList_add hadd
      refine ⟨o.order.requirement id start, records, his, hbefore, hafter, ?_, Store.get_added hadd, ?_⟩
      · exact Store.get_of_add_eq_error hadd
      · exact fun other hne => Store.get_add_of_ne hadd hne

theorem Planner.requirements_isOrderly_of_change {Known : Text → Prop} {part : Option Part} {q : Planner}
    (h : p.requirements.IsOrderly) (hchange : p.Change Known part q) : q.requirements.IsOrderly := by
  cases hchange with
  | requirement hknown hadd => exact h.of_add hadd
  | _ => exact h

/-- Whatever operations have led to a session, its requirements are in the order in which they came. -/
theorem Session.Reached.requirements_isOrderly {s : Session} (h : s.Reached) : s.planner.requirements.IsOrderly := by
  induction h with
  | inMemory ids options => trivial
  | onTables ids options => exact Table.isOrderly_empty
  | after _ op ih => exact keeps_after Planner.requirements_isOrderly_of_change ih op

/-- Six pieces of a product that are made. -/
def ProposalRequest.made (product : Text) (requiredBy : Moment) : ProposalRequest where
  product := some product
  requiredBy := some requiredBy
  quantity := .proper (.int 6)
  facility := none
  manufacturingFacility := none
  isBuilt := some true
  daysToShip := none
  planName := none

/-- Tables that are made are recorded from the earliest start of their parts on. -/
theorem proposeOrder_allOrNothing_madeTables :
    ∃ s r o record, s = Session.table ∧ s.planner.requirements.IsOrderly ∧
      r = .made "TABLE" (.proper (.atNoon ⟨738600, by decide⟩)) ∧ ((proposeOrder r).perform s).1 = .ok o ∧
      o.requirement = some record.id ∧
      ((proposeOrder r).perform s).2.planner.requirements.get (.text record.id) = .ok record ∧
      record.facility = some standardFacility ∧ record.requirementType = .internal ∧
      record.start = some (.proper (.atNoon ⟨738593, by decide⟩)) := by
  obtain ⟨s, hs⟩ : ∃ s, s = Session.table := exists_eq
  obtain ⟨due, hdue⟩ : ∃ due : Moment, due = .proper (.atNoon ⟨738600, by decide⟩) := exists_eq
  have horderly : s.planner.requirements.IsOrderly := (hs ▸ Session.table_reached : s.Reached).requirements_isOrderly
  have hproposed : ((proposeOrder (.made "TABLE" due)).perform s).1.isOk = true := by
    rw [hs, hdue]
    decide +kernel
  have hproduct : (s.planner.products.get (.named (some "TABLE"))).toOption =
      some ⟨some "TABLE", none, .finishedGood, none, none⟩ := by
    rw [hs]
    decide +kernel
  have hdefault : s.planner.options.defaultFacility = some standardFacility := by
    rw [hs]
    decide +kernel
  have hexplosion : s.planner.explosionStart (some "TABLE") (some standardFacility) (some due) =
      .ok (.proper (.atNoon ⟨738593, by decide⟩)) := by
    rw [hs, hdue]
    decide +kernel
  obtain ⟨-, hok⟩ := proposeOrder_allOrNothing (.made "TABLE" due) horderly
  cases hresult : ((proposeOrder (.made "TABLE" due)).perform s).1 with
  | error e =>
    rw [hresult] at hproposed
    cases hproposed
  | ok o =>
    obtain ⟨hanswered, requirements, hafter, -, hrecorded⟩ := hok o hresult
    have htable : o.order.product = ⟨some "TABLE", none, .finishedGood, none, none⟩ := by
      have hfound : s.planner.products.get (.named (some "TABLE")) = .ok o.order.product := hanswered.product
      rw [hfound] at hproduct
      exact Option.some.inj hproduct
    have hplace : o.order.manufacturingFacility = some standardFacility :=
      hanswered.manufacturingFacility.trans hdefault
    have hmade : o.order.isMade = true := (Except.ok.inj hanswered.isBuilt).symm
    have hnotWip : o.order.product.productType ≠ .workInProcess := by simp [htable]
    obtain ⟨record, records, hrecord, -, -, -, hget, -⟩ := hrecorded hnotWip
    obtain ⟨hfacility, htype, start, hstart, hrecorded⟩ := hrecord.made hmade
    have hrequired : o.order.requiredBy = some due := hanswered.requiredBy
    rw [htable, hplace, hrequired, hexplosion] at hstart
    refine ⟨s, _, o, record, hs, horderly, congrArg _ hdue, hresult, hrecord.id, hafter ▸ hget, hfacility.trans hplace,
      htype, ?_⟩
    rw [hrecorded, Except.ok.inj hstart]

end SupplyPlan
