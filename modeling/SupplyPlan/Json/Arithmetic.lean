import SupplyPlan.Error

namespace SupplyPlan.Json

/-- The items that a text or an array may have. -/
def lengthLimit : Nat := Nat.pow 2 32

/-- Items a number of times, none at all if the number is below one. It has to be one of 64 bits. -/
def repeated {α : Type} (n : Int) (items : List α) : Except PlanError (List α) :=
  if n < -Int.pow 2 63 || Int.pow 2 63 ≤ n then .error .outOfRange
  else if lengthLimit < n.toNat * items.length then .error .tooLong
  else if items.isEmpty then .ok []
  else .ok (List.replicate n.toNat items).flatten

/-- The integer a value counts as; truth values count as one and zero. -/
def toInt? : Json → Option Int
  | .number (.int n) => some n
  | .bool b => some (if b then 1 else 0)
  | _ => none

/-- The result of a calculation with numbers, unless one of them has no double. -/
def calculated (f : Quantity → Quantity → Option Quantity) (v w : Json) : Except PlanError Json :=
  match v.toQuantity?, w.toQuantity? with
  | some a, some b =>
    match f a b with
    | some q => .ok (.number q)
    | none => .error .outOfRange
  | _, _ => .error .typeMismatch

/-- The product of two numbers, or a text or an array a whole number of times. -/
def times : Json → Json → Except PlanError Json
  | .string s, w => repeatedText s w
  | .array items, w => repeatedArray items w
  | v, .string s => repeatedText s v
  | v, .array items => repeatedArray items v
  | v, w => calculated Quantity.mul? v w
where
  repeatedText (s : Text) (count : Json) : Except PlanError Json :=
    match count.toInt? with
    | some n =>
      if Nat.pow 2 63 ≤ n.toNat * s.points.length then .error .outOfRange
      else (fun points => .string ⟨points⟩) <$> repeated n s.points
    | none => .error .typeMismatch
  repeatedArray (items : List Json) (count : Json) : Except PlanError Json :=
    match count.toInt? with
    | some n => .array <$> repeated n items
    | none => .error .typeMismatch

/-- The sum of two numbers. -/
def plus : Json → Json → Except PlanError Json := calculated Quantity.add?

/-- The difference of two numbers. -/
def minus : Json → Json → Except PlanError Json := calculated Quantity.sub?

@[simp] theorem times_number (a b : Quantity) :
    times (.number a) (.number b) = calculated Quantity.mul? (.number a) (.number b) := rfl

end SupplyPlan.Json
