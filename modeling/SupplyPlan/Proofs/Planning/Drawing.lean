import SupplyPlan.Proofs.Planning.Frame
import SupplyPlan.Proofs.Planning.Loading
import SupplyPlan.Proofs.Planning.Reached
import SupplyPlan.Proofs.Store.Keys

namespace SupplyPlan

/-- What comes of an order that is to be recorded by a planner with so many ids drawn, and the session after it. Work in
process is left out, and no id is drawn before the start of the order is known. -/
inductive ProposedOrder.Stored (order : ProposedOrder) (p : Planner) (ids : IdStream) (drawn : Nat) :
    Except PlanError (Option Text) → Session → Prop where
  | omitted {s : Session} (hproduct : order.product.productType = .workInProcess) (hplanner : s.planner = p)
      (hdrawn : s.drawn = drawn) : Stored order p ids drawn (.ok none) s
  | failed {e : PlanError} {s : Session} (hproduct : order.product.productType ≠ .workInProcess)
      (hstart : p.recordedStart order = .error e) (hplanner : s.planner = p) (hdrawn : s.drawn = drawn) :
      Stored order p ids drawn (.error e) s
  | refused {e : PlanError} {start : Option Moment} {s : Session}
      (hproduct : order.product.productType ≠ .workInProcess) (hstart : p.recordedStart order = .ok start)
      (hadd : p.requirements.add (.text (ids.draw (drawn + 1))) (order.requirement (ids.draw (drawn + 1)) start) =
        .error e)
      (hplanner : s.planner = p) (hdrawn : s.drawn = drawn + 1) : Stored order p ids drawn (.error e) s
  | added {start : Option Moment} {requirements : Store Requirement} {s : Session}
      (hproduct : order.product.productType ≠ .workInProcess) (hstart : p.recordedStart order = .ok start)
      (hadd : p.requirements.add (.text (ids.draw (drawn + 1))) (order.requirement (ids.draw (drawn + 1)) start) =
        .ok requirements)
      (hplanner : s.planner = { p with requirements }) (hdrawn : s.drawn = drawn + 1) :
      Stored order p ids drawn (.ok (some (ids.draw (drawn + 1)))) s

open Planning in
theorem createRequirement_stored (order : ProposedOrder) (s : Session) :
    order.Stored s.planner s.ids s.drawn ((createRequirement order).perform s).1
      ((createRequirement order).perform s).2 := by
  unfold createRequirement
  split
  · next hproduct => exact .omitted hproduct rfl rfl
  · next hproduct =>
    simp only [perform_bind, perform_ask]
    cases hstart : s.planner.recordedStart order with
    | error e => exact .failed hproduct hstart rfl rfl
    | ok start =>
      simp only [perform_freshId]
      cases hadd : s.planner.requirements.add (.text (order.requirement (s.ids.draw (s.drawn + 1)) start).id)
          (order.requirement (s.ids.draw (s.drawn + 1)) start) with
      | error e => exact .refused hproduct hstart hadd rfl rfl
      | ok requirements => exact .added hproduct hstart hadd rfl rfl

open Planning in
/-- A proposal fails without an id where its order does, and what it has computed is recorded or not as that order. -/
theorem proposeOrder_stored (r : ProposalRequest) (s : Session) :
    (∃ e, (r.order s.planner).result = .error e ∧ ((proposeOrder r).perform s).1 = .error e ∧
        ((proposeOrder r).perform s).2.planner = s.planner ∧ ((proposeOrder r).perform s).2.drawn = s.drawn) ∨
      ∃ order calculation stored, (r.order s.planner).result = .ok (order, calculation) ∧
        order.Stored s.planner s.ids s.drawn stored ((proposeOrder r).perform s).2 ∧
        ((proposeOrder r).perform s).1 =
          (fun requirement => { order, calculation, requirement : ProposalOutcome }) <$> stored := by
  unfold proposeOrder
  simp only [perform_bind, perform_askLogged]
  cases horder : (r.order s.planner).result with
  | error e => exact .inl ⟨e, rfl, rfl, rfl, rfl⟩
  | ok found =>
    have hstored := createRequirement_stored found.1 { s with log := s.log ++ (r.order s.planner).events }
    dsimp only at hstored ⊢
    cases hresult : (createRequirement found.1).perform { s with log := s.log ++ (r.order s.planner).events } with
    | mk stored s' =>
      rw [hresult] at hstored
      refine .inr ⟨found.1, found.2, stored, rfl, ?_⟩
      cases stored with
      | error e => exact ⟨hstored, rfl⟩
      | ok requirement => exact ⟨hstored, rfl⟩

/-- A proposal leaves the planner as it was, or it adds the requirement of its order under the id that it drew. -/
theorem proposeOrder_cases (r : ProposalRequest) (s : Session) :
    ((∀ o, ((proposeOrder r).perform s).1 = .ok o → o.requirement = none) ∧
        ((proposeOrder r).perform s).2.planner = s.planner) ∨
      ∃ o n start requirements, ((proposeOrder r).perform s).1 = .ok o ∧ o.requirement = some (s.ids.draw n) ∧
        s.planner.recordedStart o.order = .ok start ∧
        s.planner.requirements.add (.text (s.ids.draw n)) (o.order.requirement (s.ids.draw n) start) =
          .ok requirements ∧
        ((proposeOrder r).perform s).2.planner = { s.planner with requirements } := by
  rcases proposeOrder_stored r s with ⟨e, -, hresult, hplanner, -⟩ | ⟨order, calculation, stored, -, hstored, hresult⟩
  · refine .inl ⟨fun o ho => ?_, hplanner⟩
    cases hresult.symm.trans ho
  · cases hstored with
    | omitted _ hplanner =>
      refine .inl ⟨fun o ho => ?_, hplanner⟩
      obtain rfl := Except.ok.inj (hresult.symm.trans ho)
      rfl
    | failed _ _ hplanner | refused _ _ _ hplanner =>
      refine .inl ⟨fun o ho => ?_, hplanner⟩
      cases hresult.symm.trans ho
    | added _ hstart hadd hplanner => exact .inr ⟨_, _, _, _, hresult, rfl, hstart, hadd, hplanner⟩

namespace Session

/-- No requirement is stored under an id that is still to be drawn. -/
def IdsAreNew (s : Session) : Prop :=
  ∀ n, s.drawn < n → RecordId.text (s.ids.draw n) ∉ s.planner.requirements.keys

namespace IdsAreNew

variable {s s' : Session}

theorem of_requirements_eq (h : s.IdsAreNew) (hrequirements : s'.planner.requirements = s.planner.requirements)
    (hgoes : s.GoesOn s') : s'.IdsAreNew := by
  intro n hn
  rw [hrequirements, hgoes.ids]
  exact h n (hgoes.drawn.trans_lt hn)

theorem of_stored (h : s.IdsAreNew) {order : ProposedOrder} {stored : Except PlanError (Option Text)}
    (hstored : order.Stored s.planner s.ids s.drawn stored s') (hgoes : s.GoesOn s') : s'.IdsAreNew := by
  cases hstored with
  | omitted _ hplanner | failed _ _ hplanner | refused _ _ _ hplanner =>
    exact h.of_requirements_eq (congrArg _ hplanner) hgoes
  | added _ _ hadd hplanner hdrawn =>
    intro n hn hmem
    rw [hplanner, hgoes.ids] at hmem
    rcases List.mem_cons.mp ((Store.keys_add hadd).mem_iff.mp hmem) with hid | hbefore
    · have heq := s.ids.injective (RecordId.text.inj hid)
      omega
    · exact h n (by omega) hbefore

theorem proposeOrder (h : s.IdsAreNew) (r : ProposalRequest) :
    ((SupplyPlan.proposeOrder r).perform s).2.IdsAreNew := by
  have hgoes := proposeOrder_goesOn r s
  rcases proposeOrder_stored r s with ⟨_, _, _, hplanner, _⟩ | ⟨_, _, _, _, hstored, _⟩
  · exact h.of_requirements_eq (congrArg _ hplanner) hgoes
  · exact h.of_stored hstored hgoes

theorem after (h : s.IdsAreNew) (op : Operation) : (s.after op).IdsAreNew := by
  by_cases hpart : op.part = some .requirements
  · cases op with
    | createRequirement order =>
      rw [Session.after, Operation.run, Planning.perform_bind_pure]
      exact h.of_stored (createRequirement_stored order s) (createRequirement_goesOn order s)
    | proposeOrder r =>
      rw [Session.after, Operation.run, Planning.perform_bind_pure]
      exact h.proposeOrder r
    | _ => cases hpart
  · exact h.of_requirements_eq ((s.after_agreesOutside op).requirements hpart) (s.goesOn_after op)

end IdsAreNew

theorem Reached.idsAreNew {s : Session} (h : s.Reached) : s.IdsAreNew := by
  induction h with
  | inMemory ids options => exact fun _ _ => List.not_mem_nil
  | onTables ids options => exact fun _ _ => List.not_mem_nil
  | after _ op ih => exact ih.after op

end Session

end SupplyPlan
