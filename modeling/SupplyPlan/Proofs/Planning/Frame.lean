import SupplyPlan.Proofs.Planning.Change

namespace SupplyPlan

namespace Planner

/-- Two planners that agree in all parts but one, or in all of them. -/
structure AgreesOutside (part : Option Part) (p q : Planner) : Prop where
  products : part ≠ some .products → q.products = p.products
  facilities : part ≠ some .facilities → q.facilities = p.facilities
  calendars : part ≠ some .calendars → q.calendars = p.calendars
  routings : part ≠ some .routings → q.routings = p.routings
  bom : part ≠ some .bom → q.bom = p.bom
  requirements : part ≠ some .requirements → q.requirements = p.requirements
  setup : part ≠ some .setup →
    q.options = p.options ∧ q.bound = p.bound ∧ q.lookback = p.lookback ∧ q.estimators = p.estimators

namespace AgreesOutside

variable {part : Option Part} {p q r : Planner}

theorem refl (part : Option Part) (p : Planner) : AgreesOutside part p p where
  products := fun _ => rfl
  facilities := fun _ => rfl
  calendars := fun _ => rfl
  routings := fun _ => rfl
  bom := fun _ => rfl
  requirements := fun _ => rfl
  setup := fun _ => ⟨rfl, rfl, rfl, rfl⟩

theorem trans (hpq : AgreesOutside part p q) (hqr : AgreesOutside part q r) : AgreesOutside part p r where
  products := fun h => (hqr.products h).trans (hpq.products h)
  facilities := fun h => (hqr.facilities h).trans (hpq.facilities h)
  calendars := fun h => (hqr.calendars h).trans (hpq.calendars h)
  routings := fun h => (hqr.routings h).trans (hpq.routings h)
  bom := fun h => (hqr.bom h).trans (hpq.bom h)
  requirements := fun h => (hqr.requirements h).trans (hpq.requirements h)
  setup := fun h => by
    obtain ⟨hoptions, hbound, hlookback, hestimators⟩ := hqr.setup h
    rw [hoptions, hbound, hlookback, hestimators]
    exact hpq.setup h

end AgreesOutside

variable {Known : Text → Prop} {part : Option Part} {p q : Planner}

theorem Change.agreesOutside (h : p.Change Known part q) : AgreesOutside part p q := by
  cases h with
  | product => exact { AgreesOutside.refl _ p with products := fun h => absurd rfl h }
  | facility => exact { AgreesOutside.refl _ p with facilities := fun h => absurd rfl h }
  | calendar | calendarEdited | calendarReplaced =>
    exact { AgreesOutside.refl _ p with calendars := fun h => absurd rfl h }
  | routing => exact { AgreesOutside.refl _ p with routings := fun h => absurd rfl h }
  | component => exact { AgreesOutside.refl _ p with bom := fun h => absurd rfl h }
  | requirement => exact { AgreesOutside.refl _ p with requirements := fun h => absurd rfl h }
  | options | bound | estimator => exact { AgreesOutside.refl _ p with setup := fun h => absurd rfl h }

theorem AgreesOutside.of_changes (h : Relation.ReflTransGen (·.Change Known part ·) p q) :
    AgreesOutside part p q := by
  induction h with
  | refl => exact refl part p
  | tail _ hchange ih => exact ih.trans hchange.agreesOutside

end Planner

/-- What is made of a result changes nothing of the session after it. -/
theorem Planning.perform_bind_pure {α β : Type} (x : Planning α) (g : α → β) (s : Session) :
    ((x >>= fun a => pure (g a)).perform s).2 = (x.perform s).2 := by
  rw [perform_bind]
  cases x.perform s with
  | mk result after => cases result <;> rfl

/-- What is made of a result leaves its failures as they are. -/
theorem Planning.result_bind_pure {α β : Type} (x : Planning α) (g : α → β) (s : Session) :
    ((x >>= fun a => pure (g a)).perform s).1 = g <$> (x.perform s).1 := by
  rw [perform_bind]
  cases x.perform s with
  | mk result after => cases result <;> rfl

/-- An operation changes nothing of the planner outside its part, whether it fails or not. -/
theorem Session.after_agreesOutside (s : Session) (op : Operation) :
    Planner.AgreesOutside op.part s.planner (s.after op).planner :=
  .of_changes (s.after_changes op)

end SupplyPlan
