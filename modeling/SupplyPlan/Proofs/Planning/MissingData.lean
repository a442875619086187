import SupplyPlan.Planning.StartDate
import SupplyPlan.Proofs.Calendar.Registry
import SupplyPlan.Proofs.Planning.Components
import SupplyPlan.Proofs.Schedule.Halting

namespace SupplyPlan

/-- The failure says that planning data is missing. -/
def PlanError.IsLookup : PlanError → Prop
  | lookupFailed .. => True
  | _ => False

/-- Whatever comes out, it is not that planning data is missing. -/
def MissesNothing {α : Type} (x : Except PlanError α) : Prop := ∀ e, x = .error e → ¬ e.IsLookup

namespace MissesNothing

variable {α β : Type}

theorem ok (a : α) : MissesNothing (.ok a) := fun _ h => nomatch h

theorem error {e : PlanError} (h : ¬ e.IsLookup) : MissesNothing (.error e : Except PlanError α) := by
  rintro _ ⟨⟩
  exact h

theorem ne_lookup {x : Except PlanError α} (hx : MissesNothing x) (subject : Option Text) (fault : LookupFault) :
    x ≠ .error (.lookupFailed subject fault) := fun h => hx _ h trivial

theorem of_ne_lookup {x : Except PlanError α} (h : ∀ subject fault, x ≠ .error (.lookupFailed subject fault)) :
    MissesNothing x := by
  intro e he
  cases e with
  | lookupFailed subject fault => exact absurd he (h subject fault)
  | _ => exact id

theorem bind {x : Except PlanError α} {f : α → Except PlanError β} (hx : MissesNothing x)
    (hf : ∀ a, MissesNothing (f a)) : MissesNothing (x >>= f) := by
  intro e h
  rcases bind_eq_error_iff.mp h with h | ⟨a, -, h⟩
  · exact hx e h
  · exact hf a e h

theorem map {x : Except PlanError α} (hx : MissesNothing x) (f : α → β) : MissesNothing (f <$> x) :=
  fun e h => hx e (map_eq_error_iff.mp h)

end MissesNothing

section Arithmetic

theorem Json.calculated_missesNothing (f : Quantity → Quantity → Option Quantity) (v w : Json) :
    MissesNothing (calculated f v w) := by
  unfold calculated
  split
  · split
    · exact .ok _
    · exact .error id
  · exact .error id

theorem Json.repeated_missesNothing {α : Type} (n : Int) (items : List α) : MissesNothing (repeated n items) := by
  unfold repeated
  split
  · exact .error id
  · split
    · exact .error id
    · split <;> exact .ok _

theorem Json.repeatedText_missesNothing (s : Text) (count : Json) : MissesNothing (times.repeatedText s count) := by
  unfold times.repeatedText
  split
  · split
    · exact .error id
    · exact .map (repeated_missesNothing _ _) _
  · exact .error id

theorem Json.repeatedArray_missesNothing (items : List Json) (count : Json) :
    MissesNothing (times.repeatedArray items count) := by
  unfold times.repeatedArray
  split
  · exact .map (repeated_missesNothing _ _) _
  · exact .error id

theorem Json.times_missesNothing (v w : Json) : MissesNothing (v.times w) := by
  unfold times
  split
  · exact repeatedText_missesNothing _ _
  · exact repeatedArray_missesNothing _ _
  · exact repeatedText_missesNothing _ _
  · exact repeatedArray_missesNothing _ _
  · exact calculated_missesNothing _ _ _

theorem Duration.ofMicros_missesNothing (n : Int) : MissesNothing (ofMicros n) := by
  unfold ofMicros
  split
  · exact .ok _
  · exact .error id

theorem Duration.scale_missesNothing (d : Duration) (q : Quantity) : MissesNothing (d.scale q) := by
  unfold scale
  split
  · exact ofMicros_missesNothing _
  · exact .error id
  · exact .error id
  · exact ofMicros_missesNothing _

theorem Instant.minus_missesNothing (t : Instant) (d : Duration) : MissesNothing (t.minus d) := by
  intro e h
  obtain rfl := minus_eq_error h
  exact id

theorem Amount.toQuantity_missesNothing (a : Amount) : MissesNothing a.toQuantity := by
  unfold toQuantity
  split
  · exact .ok _
  · exact .error id

theorem Amount.toBinary64_missesNothing (a : Amount) : MissesNothing a.toBinary64 := by
  unfold toBinary64
  split
  · split
    · exact .ok _
    · exact .error id
  · refine .bind (toQuantity_missesNothing _) fun q => ?_
    unfold Quantity.toBinary64
    split
    · exact .ok _
    · exact .error id

theorem Amount.times_missesNothing (a b : Amount) : MissesNothing (a.times b) := by
  unfold times
  split
  · exact Json.times_missesNothing _ _
  · exact .error id

theorem Span.times_missesNothing (d : Span) (a : Amount) : MissesNothing (d.times a) := by
  unfold times
  split
  · exact .bind a.toQuantity_missesNothing fun q => .bind (Duration.scale_missesNothing _ q) fun _ => .ok _
  · split
    · exact .bind (Json.times_missesNothing _ _) fun _ => .ok _
    · exact .error id
  · exact .error id

theorem Span.plus_missesNothing (d e : Span) : MissesNothing (d.plus e) := by
  unfold plus
  split
  · exact .map (Duration.ofMicros_missesNothing _) _
  · exact .map (Json.calculated_missesNothing _ _ _) _
  · exact .error id

theorem Amount.lt_missesNothing (a b : Amount) : MissesNothing (a.lt b) := by
  unfold lt
  split
  · split
    · exact .ok _
    · exact .error id
  · exact .error id

end Arithmetic

section Calendars

namespace WorkingCalendar

theorem ofShifts_missesNothing (calendar : ShiftCalendar) (lookback : Amount) :
    MissesNothing (ofShifts calendar lookback) := by
  unfold ofShifts
  split
  · refine .bind (.bind (Amount.lt_missesNothing _ _) fun less => ?_) fun given => ?_
    · cases less
      · exact .ok _
      · exact .ok _
    · split <;> exact .ok _
  · exact .error id

theorem refuseNegative_missesNothing (d : Duration) : MissesNothing (refuseNegative d) := by
  unfold refuseNegative
  split
  · exact .error id
  · exact .ok _

/-- A calendar never misses planning data: its windows are found or they are not, and a caller's own calendar has to do
without. -/
theorem subtract_missesNothing (calendar : WorkingCalendar) (finish : Instant) (d : Duration) :
    MissesNothing (calendar.subtract finish d) := by
  cases calendar with
  | continuous => exact .bind (refuseNegative_missesNothing d) fun _ => finish.minus_missesNothing d
  | shifts clock =>
    refine .bind (refuseNegative_missesNothing d) fun _ e h => ?_
    rcases clock.walk_isRegular finish finish.micros d.micros with ⟨ref, fault, hunavailable⟩ | hproceeds
    · cases hunavailable.symm.trans h
      exact id
    · rw [h] at hproceeds
      cases hproceeds <;> exact id
  | unsearchable =>
    refine .bind (refuseNegative_missesNothing d) fun _ => ?_
    split
    · exact .error id
    · exact .ok _
  | stretched factor =>
    refine .bind factor.toQuantity_missesNothing fun q => ?_
    exact .bind (d.scale_missesNothing q) fun stretched => finish.minus_missesNothing stretched
  | closed => exact .error id
  | rule r => exact .of_ne_lookup fun subject fault => r.missesNoData finish d subject fault

end WorkingCalendar

theorem Store.get_missesNothing {α : Type} (s : Store α) (name : Text) : MissesNothing (s.get (.text name)) := by
  by_cases hanswers : s.Answers name
  · obtain ⟨a, hget⟩ | ⟨record, hget⟩ := hanswers.get_cases
    · rw [hget]
      exact .ok a
    · rw [hget]
      exact .error id
  · cases s with
    | closed => exact .error id
    | _ =>
      rw [get_of_not_answers (by rintro ⟨⟩) hanswers]
      exact .error id

theorem CalendarRegistry.resolve_missesNothing (reg : CalendarRegistry) (ref : Option Text) :
    MissesNothing (reg.resolve ref) := by
  cases ref with
  | none => exact .error id
  | some name =>
    unfold resolve
    dsimp only
    split
    · exact .ok _
    · have hget := reg.stored.get_missesNothing name
      split
      · exact WorkingCalendar.ofShifts_missesNothing _ _
      · exact .error id
      · next e _ he => exact .error (hget e he)

theorem CalendarRegistry.subtract_missesNothing (reg : CalendarRegistry) (ref : Option Text) (finish : Instant)
    (d : Duration) : MissesNothing (reg.subtract ref finish d) :=
  .bind (reg.resolve_missesNothing ref) fun calendar => calendar.subtract_missesNothing finish d

theorem Planner.fallbackCalendar_missesNothing (p : Planner) : MissesNothing p.fallbackCalendar.result := by
  unfold fallbackCalendar
  cases p.options.fallbackCalendar with
  | none => exact .ok _
  | some ref =>
    have hresolve := p.registry.resolve_missesNothing (some ref)
    dsimp only
    split
    · exact .ok _
    · exact .ok _
    · next e _ he => exact .error (hresolve e he)

end Calendars

/-- The time that an estimator finds for a task. -/
def Estimator.timeOf (estimators : Estimators) (task : RoutingTask) (quantity : Amount) :
    Estimator → Except PlanError Span
  | .rule f => f quantity
  | .taskRule f => f task quantity
  | .likeTask other => RoutingTask.timeWithin estimators (RoutingTask.referenceLimit - 1) other quantity

namespace RoutingTask

variable {estimators : Estimators} {task : RoutingTask} {quantity : Amount} {subject : Option Text}
  {fault : LookupFault}

theorem time_of_none (h : task.method? = none) : task.time estimators quantity = task.standardTime quantity := by
  rw [time, timeWithin, h]

theorem time_of_some {method : Text} (h : task.method? = some method) :
    task.time estimators quantity =
      match estimators.named? method with
      | none => .error (.lookupFailed task.id (.unknownMethod method))
      | some estimator => estimator.timeOf estimators task quantity := by
  rw [time, timeWithin, h]
  cases hnamed : estimators.named? method with
  | none => simp only [hnamed]
  | some estimator => cases estimator <;> simp only [hnamed] <;> rfl

/-- The time of a task is not known: it names an estimate method that is not registered, or one whose estimator lacks
planning data itself. -/
inductive LacksTime (estimators : Estimators) (task : RoutingTask) (quantity : Amount) :
    Option Text → LookupFault → Prop where
  | unregistered {method : Text} (hmethod : task.method? = some method) (hnamed : estimators.named? method = none) :
      LacksTime estimators task quantity task.id (.unknownMethod method)
  | raised {method : Text} {estimator : Estimator} {subject : Option Text} {fault : LookupFault}
      (hmethod : task.method? = some method) (hnamed : estimators.named? method = some estimator)
      (h : estimator.timeOf estimators task quantity = .error (.lookupFailed subject fault)) :
      LacksTime estimators task quantity subject fault

theorem runTime_missesNothing (task : RoutingTask) (quantity : Amount) : MissesNothing (task.runTime quantity) :=
  .bind quantity.toBinary64_missesNothing fun _ => Span.times_missesNothing _ _

theorem standardTime_missesNothing (task : RoutingTask) (quantity : Amount) :
    MissesNothing (task.standardTime quantity) :=
  .bind (task.runTime_missesNothing quantity) fun _ => Span.plus_missesNothing _ _

/-- Setup and run times are never missed, so only a method can lack planning data. -/
theorem time_eq_lookup_iff :
    task.time estimators quantity = .error (.lookupFailed subject fault) ↔
      task.LacksTime estimators quantity subject fault := by
  cases hmethod : task.method? with
  | none =>
    rw [time_of_none hmethod]
    constructor
    · exact fun h => absurd h ((task.standardTime_missesNothing quantity).ne_lookup _ _)
    · rintro (⟨h, -⟩ | ⟨h, -, -⟩) <;> cases hmethod.symm.trans h
  | some method =>
    rw [time_of_some hmethod]
    cases hnamed : estimators.named? method with
    | none =>
      constructor
      · rintro ⟨⟩
        exact .unregistered hmethod hnamed
      · rintro (⟨hmethod', -⟩ | ⟨hmethod', hnamed', -⟩)
        · obtain rfl := Option.some.inj (hmethod.symm.trans hmethod')
          rfl
        · obtain rfl := Option.some.inj (hmethod.symm.trans hmethod')
          cases hnamed.symm.trans hnamed'
    | some estimator =>
      constructor
      · exact .raised hmethod hnamed
      · rintro (⟨hmethod', hnamed'⟩ | ⟨hmethod', hnamed', h⟩)
        · obtain rfl := Option.some.inj (hmethod.symm.trans hmethod')
          cases hnamed.symm.trans hnamed'
        · obtain rfl := Option.some.inj (hmethod.symm.trans hmethod')
          obtain rfl := Option.some.inj (hnamed.symm.trans hnamed')
          exact h

end RoutingTask

end SupplyPlan
