import SupplyPlan.Proofs.Sorting
import SupplyPlan.Proofs.Planning.Frame
import SupplyPlan.Proofs.Planning.Proposal

namespace SupplyPlan

open Planning

namespace Requirement

/-- The instant at which a requirement is due, if it is one. -/
def due? (r : Requirement) : Option Instant :=
  match r.requiredBy with
  | some (.proper t) => some t
  | _ => none

def isDated (r : Requirement) : Bool := r.due?.isSome

/-- Whether a requirement is due at an aware instant. -/
def isAware (r : Requirement) : Bool := r.due?.any (·.isAware)

/-- When a requirement is due, on the clock that comparable instants share. -/
def dueClock (r : Requirement) : Int := r.due?.elim 0 (·.onCommonClock)

/-- Whether a list that is limited to a product, or to none, holds a requirement. -/
def isFor (product : Option Text) (r : Requirement) : Bool := product.all (r.product = some ·)

theorem requiredBy_of_isDated {r : Requirement} (h : r.isDated) :
    ∃ t, r.requiredBy = some (.proper t) ∧ r.isAware = t.isAware ∧ r.dueClock = t.onCommonClock := by
  unfold isDated due? at h
  split at h
  · next t heq => exact ⟨t, heq, by simp [isAware, due?, heq], by simp [dueClock, due?, heq]⟩
  · cases h

end Requirement

namespace Planner

variable {p : Planner} {product : Option Text} {matching : List Requirement}

/-- Requirements are compared as instants: by the clock if all are naive or all aware, and not at all otherwise. -/
theorem isDueBefore_comparesWithin :
    Sorting.ComparesWithin isDueBefore (fun r => r.isDated = true) Requirement.isAware Requirement.dueClock
      .typeMismatch where
  alike := by
    intro r s hr hs halike
    obtain ⟨t, hrequired, haware, hclock⟩ := Requirement.requiredBy_of_isDated hr
    obtain ⟨u, hrequired', haware', hclock'⟩ := Requirement.requiredBy_of_isDated hs
    rw [haware, haware'] at halike
    rw [hclock, hclock']
    simp [isDueBefore, hrequired, hrequired', Instant.lt, halike]
  unlike := by
    intro r s hr hs hunlike
    obtain ⟨t, hrequired, haware, -⟩ := Requirement.requiredBy_of_isDated hr
    obtain ⟨u, hrequired', haware', -⟩ := Requirement.requiredBy_of_isDated hs
    rw [haware, haware'] at hunlike
    simp [isDueBefore, hrequired, hrequired', Instant.lt, hunlike]

theorem listRequirements_eq (hfind : p.requirements.find (·.isFor product) = .ok matching) :
    p.listRequirements product = Sorting.sorted isDueBefore matching := by
  have hfind : (p.requirements.find fun r => product.all (r.product = some ·)) = .ok matching := hfind
  rw [listRequirements, hfind]
  rfl

/-- Requirements that are all naive or all aware are listed in the order of their dates. -/
theorem exists_listRequirements (hfind : p.requirements.find (·.isFor product) = .ok matching)
    (hdated : ∀ r ∈ matching, r.isDated) (halike : ∀ r ∈ matching, ∀ s ∈ matching, r.isAware = s.isAware) :
    ∃ listed, p.listRequirements product = .ok listed ∧ Sorting.Orders Requirement.dueClock matching listed := by
  rw [listRequirements_eq hfind]
  cases matching with
  | nil => exact ⟨[], rfl, .refl .nil⟩
  | cons first rest =>
    apply Sorting.exists_sorted (isDueBefore_comparesWithin.comparesBy first.isAware)
    intro r hr
    exact ⟨hdated r hr, halike r hr first List.mem_cons_self⟩

/-- A naive and an aware requirement cannot be listed together. -/
theorem listRequirements_eq_error (hfind : p.requirements.find (·.isFor product) = .ok matching)
    (hdated : ∀ r ∈ matching, r.isDated) (hmixed : ∃ r ∈ matching, ∃ s ∈ matching, r.isAware ≠ s.isAware) :
    p.listRequirements product = .error .typeMismatch := by
  rw [listRequirements_eq hfind]
  exact Sorting.sorted_eq_error isDueBefore_comparesWithin hdated hmixed

/-- The requirements can be read, and all of them are due at instants. -/
structure HasDatedRequirements (p : Planner) : Prop where
  isOpen : p.requirements.kind ≠ .closed
  dated : ∀ e ∈ p.requirements.entries, e.2.isDated

theorem HasDatedRequirements.exists_find (h : p.HasDatedRequirements) (product : Option Text) :
    ∃ matching, p.requirements.find (·.isFor product) = .ok matching ∧ ∀ r ∈ matching, r.isDated := by
  obtain ⟨records, hrecords⟩ := Store.exists_toList h.isOpen
  refine ⟨records.filter (·.isFor product), by rw [Store.find, hrecords, Except.map_ok], fun r hr => ?_⟩
  obtain ⟨key, hentry⟩ := (Store.mem_toList_iff hrecords).mp (List.mem_of_mem_filter hr)
  exact h.dated (key, r) hentry

theorem HasDatedRequirements.of_recorded {order : ProposedOrder} {q : Planner} {result : Except PlanError (Option Text)}
    (h : p.HasDatedRequirements) (hdue : ∃ t, order.requiredBy = some (.proper t))
    (hrecorded : order.Recorded p result q) : q.HasDatedRequirements := by
  cases hrecorded with
  | omitted | failed => exact h
  | added id hproduct hstart hadd =>
    refine ⟨fun hclosed => h.isOpen ((Store.kind_of_add hadd).symm.trans hclosed), fun e he => ?_⟩
    obtain rfl | he := (Store.mem_entries_of_add hadd e).mp he
    · obtain ⟨t, ht⟩ := hdue
      simp [Requirement.isDated, Requirement.due?, ProposedOrder.requirement, ht]
    · exact h.dated e he

theorem HasDatedRequirements.of_proposed {request : ProposalRequest} {q : Planner}
    {result : Except PlanError ProposalOutcome} (h : p.HasDatedRequirements)
    (hdue : ∃ t, request.requiredBy = some (.proper t)) (hproposed : request.Proposed p result q) :
    q.HasDatedRequirements := by
  cases hproposed with
  | failed => exact h
  | made horder hrecorded =>
    have hrequired := (request.isAnsweredBy_of_order horder).requiredBy
    exact h.of_recorded (hrequired ▸ hdue) hrecorded

end Planner

/-- The orders and proposals of an operation are required by an instant; other operations can be any. -/
def Operation.IsDated : Operation → Prop
  | createRequirement order => ∃ t, order.requiredBy = some (.proper t)
  | proposeOrder request => ∃ t, request.requiredBy = some (.proper t)
  | _ => True

/-- One operation keeps all requirements dated, whether it fails or not. -/
theorem Planner.HasDatedRequirements.after {s : Session} (h : s.planner.HasDatedRequirements) {op : Operation}
    (hop : op.IsDated) : (s.after op).planner.HasDatedRequirements := by
  by_cases hpart : op.part = some .requirements
  · cases op with
    | createRequirement order =>
      have hafter := congrArg Session.planner (perform_bind_pure (createRequirement order) Answer.requirement s)
      exact hafter ▸ h.of_recorded hop (createRequirement_stored order s).recorded
    | proposeOrder request =>
      have hafter := congrArg Session.planner (perform_bind_pure (proposeOrder request) Answer.outcome s)
      exact hafter ▸ h.of_proposed hop (proposeOrder_proposed request s)
    | _ => cases hpart
  · have hkept := (s.after_agreesOutside op).requirements hpart
    exact ⟨hkept ▸ h.isOpen, hkept ▸ h.dated⟩

namespace Session

/-- The sessions that begin with a fresh planner, in memory or on tables, and plan for instants. -/
inductive Planned : Session → Prop where
  | inMemory (ids : IdStream) (options : PlanningOptions) : Planned (fresh ids (.inMemory options))
  | onTables (ids : IdStream) (options : PlanningOptions) : Planned (fresh ids (.onTables options))
  | after {s : Session} (h : Planned s) {op : Operation} (hop : op.IsDated) : Planned (s.after op)

theorem Planned.hasDatedRequirements {s : Session} (h : s.Planned) : s.planner.HasDatedRequirements := by
  induction h with
  | inMemory ids options =>
    constructor <;> simp [fresh, Planner.inMemory, Store.kind, Store.entries, Memory.empty]
  | onTables ids options =>
    constructor <;> simp [fresh, Planner.onTables, Store.kind, Store.entries, Table.empty]
  | after _ hop ih => exact ih.after hop

end Session

end SupplyPlan
