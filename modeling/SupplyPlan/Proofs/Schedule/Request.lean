import Mathlib.Data.List.Nodup
import SupplyPlan.Proofs.Result
import SupplyPlan.Schedule.Request

namespace SupplyPlan

namespace Chain

/-- The request that asks for a chain to be scheduled. -/
def request (c : Chain) : ScheduleRequest where
  steps := c.steps.map .proper
  completion := .proper c.completion
  quantity := .proper c.quantity
  trailingOffset := .proper c.trailingOffset

/-- Neither number is negative, and no two steps share an id. -/
structure IsValid (c : Chain) : Prop where
  quantity_nonneg : c.quantity.isNegative = false
  offset_nonneg : 0 ≤ c.trailingOffset.micros
  ids_nodup : (c.steps.map (·.id)).Nodup

end Chain

namespace ScheduleRequest

theorem checkCompletion_eq_ok_iff {given : Given Instant} {t : Instant} :
    checkCompletion given = .ok t ↔ given = .proper t := by
  cases given with
  | proper u => simp [checkCompletion]
  | other v =>
    unfold checkCompletion
    split <;> simp_all [invalid]

theorem checkQuantity_eq_ok_iff {given : Amount} {q : Quantity} :
    checkQuantity given = .ok q ↔ given = .proper q ∧ q.isNegative = false := by
  cases given with
  | proper p =>
    unfold checkQuantity
    by_cases h : p.isNegative = true
    · simp only [if_pos h, invalid, reduceCtorEq, Given.proper.injEq, false_iff, not_and]
      rintro rfl
      simp [h]
    · simp only [if_neg h, Except.ok.injEq, Given.proper.injEq]
      constructor
      · rintro rfl
        exact ⟨rfl, by simpa using h⟩
      · exact And.left
  | other v => simp [checkQuantity, invalid]

theorem checkOffset_eq_ok_iff {given : Span} {d : Duration} :
    checkOffset given = .ok d ↔ given = .proper d ∧ 0 ≤ d.micros := by
  cases given with
  | proper e =>
    unfold checkOffset Duration.isNegative
    by_cases h : e.micros < 0
    · simp only [decide_eq_true h, if_true, invalid, reduceCtorEq, Given.proper.injEq, false_iff, not_and]
      rintro rfl
      exact Int.not_le.mpr h
    · simp only [decide_eq_false h, Bool.false_eq_true, if_false, Except.ok.injEq, Given.proper.injEq]
      constructor
      · rintro rfl
        exact ⟨rfl, Int.not_lt.mp h⟩
      · exact And.left
  | other v => simp [checkOffset, invalid]

/-- A list of steps passes as it is if its ids are all different from each other and from those seen before. -/
theorem checkSteps_eq_ok_iff {seen : List (Option Text)} {given : List (Given Step)} {steps : List Step} :
    checkSteps seen given = .ok steps ↔
      given = steps.map .proper ∧ (steps.map (·.id)).Nodup ∧ ∀ step ∈ steps, step.id ∉ seen := by
  induction given generalizing seen steps with
  | nil =>
    simp only [checkSteps, Except.ok.injEq]
    constructor
    · rintro rfl
      simp
    · rintro ⟨hnil, _⟩
      simpa using hnil
  | cons head rest ih =>
    cases head with
    | other v =>
      simp only [checkSteps, invalid, reduceCtorEq, false_iff, not_and]
      intro hsteps
      cases steps <;> simp at hsteps
    | proper step =>
      unfold checkSteps
      cases steps with
      | nil =>
        by_cases hseen : step.id ∈ seen
        · simp [hseen, invalid]
        · simp [hseen, map_eq_ok_iff]
      | cons first others =>
        by_cases hseen : step.id ∈ seen
        · simp only [List.contains_iff_mem, hseen, if_true, invalid, reduceCtorEq, List.map_cons, List.cons.injEq,
            Given.proper.injEq, false_iff, not_and]
          rintro ⟨rfl, _⟩ _ hnew
          exact hnew _ (List.mem_cons_self ..) hseen
        · simp only [List.contains_iff_mem, hseen, if_false, map_eq_ok_iff, ih, List.map_cons, List.cons.injEq,
            Given.proper.injEq, List.nodup_cons, List.mem_cons, forall_eq_or_imp, not_or]
          constructor
          · rintro ⟨_, ⟨hrest, hnodup, hnew⟩, rfl, rfl⟩
            refine ⟨⟨rfl, hrest⟩, ⟨?_, hnodup⟩, hseen, fun s hs => (hnew s hs).2⟩
            intro hmem
            obtain ⟨s, hs, hid⟩ := List.mem_map.mp hmem
            exact (hnew s hs).1 hid
          · rintro ⟨⟨rfl, hrest⟩, ⟨hfirst, hnodup⟩, _, hnew⟩
            refine ⟨others, ⟨hrest, hnodup, fun s hs => ⟨fun hid => hfirst ?_, hnew s hs⟩⟩, rfl, rfl⟩
            exact List.mem_map.mpr ⟨s, hs, hid⟩

theorem check_eq_ok_iff {r : ScheduleRequest} {c : Chain} : r.check = .ok c ↔ r = c.request ∧ c.IsValid := by
  obtain ⟨steps, completion, quantity, trailingOffset⟩ := r
  obtain ⟨steps', completion', quantity', trailingOffset'⟩ := c
  simp only [check, bind_eq_ok_iff, checkCompletion_eq_ok_iff, checkQuantity_eq_ok_iff, checkOffset_eq_ok_iff,
    checkSteps_eq_ok_iff, Chain.request, mk.injEq]
  constructor
  · rintro ⟨_, rfl, _, ⟨rfl, hquantity⟩, _, ⟨rfl, hoffset⟩, _, ⟨rfl, hnodup, _⟩, hc⟩
    cases hc
    exact ⟨⟨rfl, rfl, rfl, rfl⟩, hquantity, hoffset, hnodup⟩
  · rintro ⟨⟨rfl, rfl, rfl, rfl⟩, hquantity, hoffset, hnodup⟩
    exact ⟨_, rfl, _, ⟨rfl, hquantity⟩, _, ⟨rfl, hoffset⟩, _, ⟨rfl, hnodup, by simp⟩, rfl⟩

end ScheduleRequest

end SupplyPlan
