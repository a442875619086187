import Mathlib.Logic.Equiv.Basic
import SupplyPlan.Proofs.Planning.Drawing
import SupplyPlan.Proofs.Planning.Proposal

namespace SupplyPlan

namespace Planner

variable {p q r : Planner} {added : List Requirement}

theorem explodeWithin_setRequirements (p : Planner) (requirements : Store Requirement) (facility : Option Text)
    (fuel : Nat) : { p with requirements }.explodeWithin facility fuel = p.explodeWithin facility fuel := by
  induction fuel with
  | zero => rfl
  | succ fuel ih =>
    funext path product required
    rw [explodeWithin, explodeWithin, ih]
    rfl

theorem recordedStart_setRequirements (p : Planner) (requirements : Store Requirement) (order : ProposedOrder) :
    { p with requirements }.recordedStart order = p.recordedStart order := by
  have hexplosion (product facility : Option Text) (required : Option Moment) :
      { p with requirements }.explosionStart product facility required =
        p.explosionStart product facility required := by
    unfold explosionStart
    simp only [explodeWithin_setRequirements]
    rfl
  unfold recordedStart
  simp only [hexplosion]

/-- One planner has some requirements that the other one does not have, and otherwise the same. -/
structure Gains (added : List Requirement) (p q : Planner) : Prop where
  others : q = { p with requirements := q.requirements }
  kind : q.requirements.kind = p.requirements.kind
  entries : q.requirements.entries.Perm (added.map (fun r => (.text r.id, r)) ++ p.requirements.entries)

namespace Gains

theorem refl (p : Planner) : Gains [] p p := ⟨rfl, rfl, .refl _⟩

theorem of_perm (h : Gains added p q) {added' : List Requirement} (hperm : added.Perm added') : Gains added' p q where
  others := h.others
  kind := h.kind
  entries := h.entries.trans ((hperm.map _).append_right _)

theorem add (h : Gains added p q) {record : Requirement} {requirements : Store Requirement}
    (hadd : q.requirements.add (.text record.id) record = .ok requirements) :
    Gains (record :: added) p { q with requirements } where
  others := by
    have hothers := h.others
    rw [hothers]
  kind := (Store.kind_of_add hadd).trans h.kind
  entries := (Store.perm_entries_of_add hadd).trans (h.entries.cons _)

theorem order_eq (h : Gains added p q) (r : ProposalRequest) : r.order q = r.order p := by
  rw [h.others]
  rfl

theorem recordedStart_eq (h : Gains added p q) (order : ProposedOrder) :
    q.recordedStart order = p.recordedStart order := by
  rw [h.others]
  exact p.recordedStart_setRequirements _ order

end Gains

end Planner

open Planner

namespace ProposalRequest

variable {p : Planner} {r : ProposalRequest}

/-- Whatever requirements there are besides, a proposal has this outcome and nothing is stored for it. -/
def IsIdle (r : ProposalRequest) (p : Planner) (outcome : Except PlanError ProposalOutcome) : Prop :=
  ∀ s added, p.Gains added s.planner →
    ((proposeOrder r).perform s).1 = outcome ∧ ((proposeOrder r).perform s).2.planner = s.planner ∧
      (p.requirements.kind ≠ .closed → ((proposeOrder r).perform s).2.drawn = s.drawn)

/-- Whatever requirements there are besides, a proposal has an outcome of this kind and is stored under the next id. -/
def IsRecorded (r : ProposalRequest) (p : Planner) (order : ProposedOrder) (calculation : StartDateCalculation)
    (start : Option Moment) : Prop :=
  ∀ s added, p.Gains added s.planner → s.IdsAreNew →
    ((proposeOrder r).perform s).1 = .ok { order, calculation, requirement := some (s.ids.draw (s.drawn + 1)) } ∧
      p.Gains (order.requirement (s.ids.draw (s.drawn + 1)) start :: added) ((proposeOrder r).perform s).2.planner ∧
      ((proposeOrder r).perform s).2.drawn = s.drawn + 1

theorem isIdle_of_order_error {e : PlanError} (horder : (r.order p).result = .error e) : r.IsIdle p (.error e) := by
  intro s added hgains
  rw [← hgains.order_eq r] at horder
  rcases proposeOrder_stored r s with ⟨e', he, hresult, hplanner, hdrawn⟩ | ⟨_, _, _, hok, _⟩
  · rw [horder] at he
    cases he
    exact ⟨hresult, hplanner, fun _ => hdrawn⟩
  · rw [horder] at hok
    cases hok

/-- What a proposal does once its order is computed. -/
theorem stored_of_order {order : ProposedOrder} {calculation : StartDateCalculation}
    (horder : (r.order p).result = .ok (order, calculation)) {s : Session} {added : List Requirement}
    (hgains : p.Gains added s.planner) :
    ∃ stored, order.Stored s.planner s.ids s.drawn stored ((proposeOrder r).perform s).2 ∧
      ((proposeOrder r).perform s).1 =
        (fun requirement => { order, calculation, requirement : ProposalOutcome }) <$> stored := by
  rw [← hgains.order_eq r] at horder
  rcases proposeOrder_stored r s with ⟨_, he, _⟩ | ⟨_, _, stored, hok, hstored, hresult⟩
  · rw [horder] at he
    cases he
  · rw [horder] at hok
    cases hok
    exact ⟨stored, hstored, hresult⟩

theorem isIdle_of_workInProcess {order : ProposedOrder} {calculation : StartDateCalculation}
    (horder : (r.order p).result = .ok (order, calculation)) (hproduct : order.product.productType = .workInProcess) :
    r.IsIdle p (.ok { order, calculation, requirement := none }) := by
  intro s added hgains
  obtain ⟨stored, hstored, hresult⟩ := stored_of_order horder hgains
  cases hstored with
  | omitted _ hplanner hdrawn => exact ⟨hresult, hplanner, fun _ => hdrawn⟩
  | failed hother => exact absurd hproduct hother
  | refused hother => exact absurd hproduct hother
  | added hother => exact absurd hproduct hother

theorem isIdle_of_recordedStart_error {order : ProposedOrder} {calculation : StartDateCalculation} {e : PlanError}
    (horder : (r.order p).result = .ok (order, calculation)) (hproduct : order.product.productType ≠ .workInProcess)
    (hstart : p.recordedStart order = .error e) : r.IsIdle p (.error e) := by
  intro s added hgains
  rw [← hgains.recordedStart_eq] at hstart
  obtain ⟨stored, hstored, hresult⟩ := stored_of_order horder hgains
  cases hstored with
  | omitted hother => exact absurd hother hproduct
  | failed _ he hplanner hdrawn =>
    rw [hstart] at he
    cases he
    exact ⟨hresult, hplanner, fun _ => hdrawn⟩
  | refused _ hok =>
    rw [hstart] at hok
    cases hok
  | added _ hok =>
    rw [hstart] at hok
    cases hok

theorem isIdle_of_closed {order : ProposedOrder} {calculation : StartDateCalculation} {start : Option Moment}
    (horder : (r.order p).result = .ok (order, calculation)) (hproduct : order.product.productType ≠ .workInProcess)
    (hstart : p.recordedStart order = .ok start) (hclosed : p.requirements.kind = .closed) :
    r.IsIdle p (.error .storeClosed) := by
  intro s added hgains
  rw [← hgains.recordedStart_eq] at hstart
  have hstore : s.planner.requirements = .closed := by
    have hkind := hgains.kind.trans hclosed
    cases hrequirements : s.planner.requirements with
    | closed => rfl
    | memory | table =>
      rw [hrequirements] at hkind
      cases hkind
  obtain ⟨stored, hstored, hresult⟩ := stored_of_order horder hgains
  cases hstored with
  | omitted hother => exact absurd hother hproduct
  | failed _ he =>
    rw [hstart] at he
    cases he
  | refused _ _ hadd hplanner =>
    rw [hstore] at hadd
    cases hadd
    exact ⟨hresult, hplanner, fun hopen => absurd hclosed hopen⟩
  | added _ _ hadd =>
    rw [hstore] at hadd
    cases hadd

theorem isRecorded_of_open {order : ProposedOrder} {calculation : StartDateCalculation} {start : Option Moment}
    (horder : (r.order p).result = .ok (order, calculation)) (hproduct : order.product.productType ≠ .workInProcess)
    (hstart : p.recordedStart order = .ok start) (hopen : p.requirements.kind ≠ .closed) :
    r.IsRecorded p order calculation start := by
  intro s added hgains hnew
  rw [← hgains.recordedStart_eq] at hstart
  obtain ⟨stored, hstored, hresult⟩ := stored_of_order horder hgains
  cases hstored with
  | omitted hother => exact absurd hother hproduct
  | failed _ he =>
    rw [hstart] at he
    cases he
  | refused _ _ hadd =>
    have hanswers : s.planner.requirements.Answers (s.ids.draw (s.drawn + 1)) := by
      have hkind := hgains.kind
      cases hrequirements : s.planner.requirements with
      | memory m => trivial
      | table t => exact s.ids.isEncodable _
      | closed =>
        rw [hrequirements] at hkind
        exact absurd hkind.symm hopen
    obtain ⟨_, hok⟩ := Store.exists_add hanswers (hnew _ (Nat.lt_succ_self _)) _
    rw [hadd] at hok
    cases hok
  | added _ hok hadd hplanner hdrawn =>
    rw [hstart] at hok
    cases hok
    exact ⟨hresult, hplanner ▸ hgains.add hadd, hdrawn⟩

theorem isIdle_or_isRecorded (r : ProposalRequest) (p : Planner) :
    (∃ outcome, r.IsIdle p outcome) ∨
      p.requirements.kind ≠ .closed ∧ ∃ order calculation start, r.IsRecorded p order calculation start := by
  cases horder : (r.order p).result with
  | error e => exact .inl ⟨_, isIdle_of_order_error horder⟩
  | ok found =>
    by_cases hproduct : found.1.product.productType = .workInProcess
    · exact .inl ⟨_, isIdle_of_workInProcess horder hproduct⟩
    · cases hstart : p.recordedStart found.1 with
      | error e => exact .inl ⟨_, isIdle_of_recordedStart_error horder hproduct hstart⟩
      | ok start =>
        by_cases hclosed : p.requirements.kind = .closed
        · exact .inl ⟨_, isIdle_of_closed horder hproduct hstart hclosed⟩
        · exact .inr ⟨hclosed, _, _, _, isRecorded_of_open horder hproduct hstart hclosed⟩

end ProposalRequest

/-- The record under another id. -/
def Requirement.renamed (rename : Text → Text) (record : Requirement) : Requirement :=
  { record with id := rename record.id }

/-- The outcome with another id for its requirement. -/
def ProposalOutcome.renamed (rename : Text → Text) (o : ProposalOutcome) : ProposalOutcome :=
  { o with requirement := o.requirement.map rename }

/-- Two proposals in both orders. Each has the same outcome whether it comes first or second, and the same records join
the requirements before; only the ids of these records may be exchanged. -/
structure ProposalRequest.Commutes (p q : ProposalRequest) (s : Session) (rename : Equiv.Perm Text)
    (added : List Requirement) : Prop where
  drawn : ∀ id, rename id ≠ id → ∃ record ∈ added, record.id = id
  first : ((proposeOrder p).perform ((proposeOrder q).perform s).2).1 =
    ProposalOutcome.renamed rename <$> ((proposeOrder p).perform s).1
  second : ((proposeOrder q).perform s).1 =
    ProposalOutcome.renamed rename <$> ((proposeOrder q).perform ((proposeOrder p).perform s).2).1
  gains : s.planner.Gains added ((proposeOrder q).perform ((proposeOrder p).perform s).2).2.planner
  gains' : s.planner.Gains (added.map (Requirement.renamed rename))
    ((proposeOrder p).perform ((proposeOrder q).perform s).2).2.planner

theorem Requirement.map_renamed_refl (records : List Requirement) :
    records.map (renamed (Equiv.refl Text)) = records := List.map_id records

theorem ProposalOutcome.map_renamed_refl (outcome : Except PlanError ProposalOutcome) :
    renamed (Equiv.refl Text) <$> outcome = outcome := by
  cases outcome with
  | error e => rfl
  | ok o => simp [Functor.map, Except.map, renamed]

theorem ProposalOutcome.map_renamed_recorded (rename : Text → Text) (order : ProposedOrder)
    (calculation : StartDateCalculation) (id : Text) :
    renamed rename <$> (.ok { order, calculation, requirement := some id } : Except PlanError ProposalOutcome) =
      .ok { order, calculation, requirement := some (rename id) } := rfl

theorem ProposedOrder.renamed_requirement (order : ProposedOrder) (rename : Text → Text) (id : Text)
    (start : Option Moment) : (order.requirement id start).renamed rename = order.requirement (rename id) start := rfl

theorem Requirement.map_renamed_symm (rename : Equiv.Perm Text) (records : List Requirement) :
    (records.map (renamed rename)).map (renamed rename.symm) = records := by
  rw [List.map_map]
  refine (List.map_congr_left fun record _ => ?_).trans (List.map_id records)
  simp [renamed]

theorem ProposalOutcome.map_renamed_symm (rename : Equiv.Perm Text) (outcome : Except PlanError ProposalOutcome) :
    renamed rename.symm <$> renamed rename <$> outcome = outcome := by
  cases outcome with
  | error e => rfl
  | ok o => simp [Functor.map, Except.map, renamed]

namespace ProposalRequest.Commutes

variable {p q : ProposalRequest} {s : Session} {rename : Equiv.Perm Text} {added : List Requirement}

theorem symm (h : p.Commutes q s rename added) :
    q.Commutes p s rename.symm (added.map (Requirement.renamed rename)) where
  drawn := by
    intro id hmoved
    have hbefore : rename (rename.symm id) ≠ rename.symm id := by
      rw [Equiv.apply_symm_apply]
      exact hmoved.symm
    obtain ⟨record, hrecord, hid⟩ := h.drawn _ hbefore
    refine ⟨_, List.mem_map_of_mem hrecord, ?_⟩
    rw [Requirement.renamed, hid, Equiv.apply_symm_apply]
  first := by rw [h.second, ProposalOutcome.map_renamed_symm]
  second := by rw [h.first, ProposalOutcome.map_renamed_symm]
  gains := h.gains'
  gains' := by
    rw [Requirement.map_renamed_symm]
    exact h.gains

theorem of_isIdle {outcome outcome' : Except PlanError ProposalOutcome} (hp : p.IsIdle s.planner outcome)
    (hq : q.IsIdle s.planner outcome') : p.Commutes q s (Equiv.refl Text) [] := by
  have hself := Gains.refl s.planner
  obtain ⟨hfirst, hafter, -⟩ := hp s [] hself
  obtain ⟨hfirst', hafter', -⟩ := hq s [] hself
  obtain ⟨hsecond, hend, -⟩ := hq ((proposeOrder p).perform s).2 [] (by rwa [hafter])
  obtain ⟨hsecond', hend', -⟩ := hp ((proposeOrder q).perform s).2 [] (by rwa [hafter'])
  exact {
    drawn := fun _ hmoved => absurd rfl hmoved
    first := by rw [hsecond', hfirst, ProposalOutcome.map_renamed_refl]
    second := by rw [hsecond, hfirst', ProposalOutcome.map_renamed_refl]
    gains := by rwa [hend, hafter]
    gains' := by rwa [hend', hafter'] }

theorem of_isIdle_isRecorded {outcome : Except PlanError ProposalOutcome} {order : ProposedOrder}
    {calculation : StartDateCalculation} {start : Option Moment} (hnew : s.IdsAreNew)
    (hopen : s.planner.requirements.kind ≠ .closed) (hp : p.IsIdle s.planner outcome)
    (hq : q.IsRecorded s.planner order calculation start) :
    p.Commutes q s (Equiv.refl Text) [order.requirement (s.ids.draw (s.drawn + 1)) start] := by
  have hself := Gains.refl s.planner
  obtain ⟨hfirst, hafter, hdrawn⟩ := hp s [] hself
  obtain ⟨hfirst', hgains', -⟩ := hq s [] hself hnew
  obtain ⟨hsecond, hgains, -⟩ := hq ((proposeOrder p).perform s).2 [] (by rwa [hafter]) (hnew.proposeOrder p)
  obtain ⟨hsecond', hend', -⟩ := hp ((proposeOrder q).perform s).2 _ hgains'
  rw [(proposeOrder_goesOn p s).ids, hdrawn hopen] at hsecond hgains
  exact {
    drawn := fun _ hmoved => absurd rfl hmoved
    first := by rw [hsecond', hfirst, ProposalOutcome.map_renamed_refl]
    second := by rw [hsecond, hfirst', ProposalOutcome.map_renamed_refl]
    gains := hgains
    gains' := by rwa [hend', Requirement.map_renamed_refl] }

/-- Whichever is recorded second gets the second id. -/
theorem of_isRecorded {order order' : ProposedOrder} {calculation calculation' : StartDateCalculation}
    {start start' : Option Moment} (hnew : s.IdsAreNew) (hp : p.IsRecorded s.planner order calculation start)
    (hq : q.IsRecorded s.planner order' calculation' start') :
    p.Commutes q s (Equiv.swap (s.ids.draw (s.drawn + 1)) (s.ids.draw (s.drawn + 1 + 1)))
      [order'.requirement (s.ids.draw (s.drawn + 1 + 1)) start',
        order.requirement (s.ids.draw (s.drawn + 1)) start] := by
  have hself := Gains.refl s.planner
  obtain ⟨hfirst, hafter, hdrawn⟩ := hp s [] hself hnew
  obtain ⟨hfirst', hafter', hdrawn'⟩ := hq s [] hself hnew
  obtain ⟨hsecond, hgains, -⟩ := hq _ _ hafter (hnew.proposeOrder p)
  obtain ⟨hsecond', hgains', -⟩ := hp _ _ hafter' (hnew.proposeOrder q)
  rw [(proposeOrder_goesOn p s).ids, hdrawn] at hsecond hgains
  rw [(proposeOrder_goesOn q s).ids, hdrawn'] at hsecond' hgains'
  exact {
    drawn := by
      intro id hmoved
      by_contra hother
      simp only [List.mem_cons, List.not_mem_nil, or_false, exists_eq_or_imp, exists_eq_left, not_or] at hother
      exact hmoved (Equiv.swap_apply_of_ne_of_ne (Ne.symm hother.2) (Ne.symm hother.1))
    first := by
      rw [hsecond', hfirst, ProposalOutcome.map_renamed_recorded, Equiv.swap_apply_left]
    second := by
      rw [hsecond, hfirst', ProposalOutcome.map_renamed_recorded, Equiv.swap_apply_right]
    gains := hgains
    gains' := by
      rw [List.map_cons, List.map_cons, List.map_nil, ProposedOrder.renamed_requirement,
        ProposedOrder.renamed_requirement, Equiv.swap_apply_left, Equiv.swap_apply_right]
      exact hgains'.of_perm (.swap _ _ _) }

end ProposalRequest.Commutes

/-- Proposals do not influence each other. Two of them have the same outcomes in both orders, be it failures or not, up
to an exchange of the ids that were drawn for what is recorded. After both orders the requirements before have been
joined by the same ones, up to these ids, and everything else is as it was. -/
theorem proposeOrder_independent (p q : ProposalRequest) {s : Session} (hnew : s.IdsAreNew) :
    ∃ (rename : Equiv.Perm Text) (added : List Requirement), p.Commutes q s rename added := by
  rcases p.isIdle_or_isRecorded s.planner with ⟨_, hp⟩ | ⟨hopen, _, _, _, hp⟩
  · rcases q.isIdle_or_isRecorded s.planner with ⟨_, hq⟩ | ⟨hopen, _, _, _, hq⟩
    · exact ⟨_, _, .of_isIdle hp hq⟩
    · exact ⟨_, _, .of_isIdle_isRecorded hnew hopen hp hq⟩
  · rcases q.isIdle_or_isRecorded s.planner with ⟨_, hq⟩ | ⟨-, _, _, _, hq⟩
    · exact ⟨_, _, (ProposalRequest.Commutes.of_isIdle_isRecorded hnew hopen hq hp).symm⟩
    · exact ⟨_, _, .of_isRecorded hnew hp hq⟩

/-- Tables that are made for two dates have the same start whichever date is asked for first. -/
theorem proposeOrder_independent_twoTables :
    ∃ s p q o o', s = Session.table ∧ s.IdsAreNew ∧ p = .made "TABLE" (.proper (.atNoon ⟨738600, by decide⟩)) ∧
      q = .made "TABLE" (.proper (.atNoon ⟨738593, by decide⟩)) ∧ ((proposeOrder p).perform s).1 = .ok o ∧
      ((proposeOrder p).perform ((proposeOrder q).perform s).2).1 = .ok o' ∧ o'.order = o.order ∧
      o'.calculation = o.calculation := by
  obtain ⟨s, hs⟩ : ∃ s, s = Session.table := exists_eq
  obtain ⟨due, hdue⟩ : ∃ due : Moment, due = .proper (.atNoon ⟨738600, by decide⟩) := exists_eq
  obtain ⟨due', hdue'⟩ : ∃ due : Moment, due = .proper (.atNoon ⟨738593, by decide⟩) := exists_eq
  have hnew : s.IdsAreNew := (hs ▸ Session.table_reached : s.Reached).idsAreNew
  have hproposed : ((proposeOrder (.made "TABLE" due)).perform s).1.isOk = true := by
    rw [hs, hdue]
    decide +kernel
  obtain ⟨rename, added, hcommutes⟩ := proposeOrder_independent (.made "TABLE" due) (.made "TABLE" due') hnew
  cases hresult : ((proposeOrder (.made "TABLE" due)).perform s).1 with
  | error e =>
    rw [hresult] at hproposed
    cases hproposed
  | ok o =>
    have hsecond := hcommutes.first
    rw [hresult] at hsecond
    exact ⟨s, _, _, o, o.renamed rename, hs, hnew, congrArg _ hdue, congrArg _ hdue', hresult, hsecond, rfl, rfl⟩

end SupplyPlan
