import SupplyPlan.Error

namespace SupplyPlan.Text

variable {α : Type} [DecidableEq α]

/-- Whether the items of a part occur next to each other in a text; nothing occurs everywhere. -/
def occursIn (part : List α) : List α → Bool
  | [] => part.isEmpty
  | c :: rest => part.isPrefixOf (c :: rest) || occursIn part rest

theorem occursIn_iff {part s : List α} : occursIn part s ↔ part <:+: s := by
  induction s with
  | nil => simp [occursIn]
  | cons c rest ih => simp [occursIn, ih, List.infix_cons_iff]

/-- Whether a name holds a part; nothing can be said of a missing name or of a missing part. -/
def hasPart (name part : Option Text) : Except PlanError Bool :=
  match name, part with
  | some name, some part => .ok (occursIn part.points name.points)
  | _, _ => .error .typeMismatch

end SupplyPlan.Text
