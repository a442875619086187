import SupplyPlan.Error

namespace SupplyPlan

variable {α β : Type} {x : Except PlanError α} {f : α → Except PlanError β}

theorem exists_of_isOk {ε : Type} {y : Except ε α} (h : y.isOk = true) : ∃ a, y = .ok a := by
  cases y with
  | ok a => exact ⟨a, rfl⟩
  | error e => cases h

theorem eq_ok_of_toOption {ε : Type} {y : Except ε α} {a : α} (h : y.toOption = some a) : y = .ok a := by
  cases y with
  | ok b => exact congrArg _ (Option.some.inj h)
  | error e => cases h

theorem bind_eq_ok_iff {b : β} : x >>= f = .ok b ↔ ∃ a, x = .ok a ∧ f a = .ok b := by
  cases x <;> simp [Bind.bind, Except.bind]

theorem bind_eq_error_iff {e : PlanError} :
    x >>= f = .error e ↔ x = .error e ∨ ∃ a, x = .ok a ∧ f a = .error e := by
  cases x <;> simp [Bind.bind, Except.bind]

theorem map_eq_ok_iff {g : α → β} {b : β} : g <$> x = .ok b ↔ ∃ a, x = .ok a ∧ g a = b := by
  cases x <;> simp [Functor.map, Except.map]

theorem bind_congr_of_ok {g : α → Except PlanError β} (h : ∀ a, x = .ok a → f a = g a) : x >>= f = x >>= g := by
  cases x with
  | error e => rfl
  | ok a => exact h a rfl

end SupplyPlan
