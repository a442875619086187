namespace SupplyPlan.Text

/-- Decimal digits, filled with zeros on the left up to a width. -/
def padded (width n : Nat) : String :=
  let digits := Nat.toDigits 10 n
  String.ofList (List.replicate (width - digits.length) '0' ++ digits)

/-- A fraction of a second: nothing for zero, else a point and six digits. -/
def fraction (micros : Nat) : String :=
  if micros = 0 then "" else "." ++ padded 6 micros

end SupplyPlan.Text
