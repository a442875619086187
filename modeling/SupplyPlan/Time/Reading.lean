import SupplyPlan.Number.Decimal
import SupplyPlan.Time.Instant

namespace SupplyPlan

namespace TimeText

/-- Exactly the given count of ASCII digits and the rest. -/
def takeNumber? (count : Nat) (s : List Char) : Option (Nat × List Char) :=
  let digits := s.take count
  if digits.length = count && digits.all Char.isDigit then
    some (Decimal.natOfDigits digits, s.drop count)
  else none

def takeDate? (s : List Char) : Option (Date × List Char) :=
  match takeNumber? 4 s with
  | some (year, '-' :: s) =>
    match takeNumber? 2 s with
    | some (month, '-' :: s) =>
      match takeNumber? 2 s with
      | some (day, s) => (Date.ofCivil? year month day).map (·, s)
      | none => none
    | _ => none
  | _ => none

/-- Microseconds of a fraction; digits after the sixth are read and dropped. -/
def takeFraction? (s : List Char) : Option (Nat × List Char) :=
  let digits := s.takeWhile Char.isDigit
  if digits = [] then none
  else
    some (Decimal.natOfDigits ((digits ++ List.replicate 6 '0').take 6), s.drop digits.length)

/-- Seconds with an optional fraction, in microseconds. -/
def takeSeconds? (s : List Char) : Option (Nat × List Char) :=
  match takeNumber? 2 s with
  | some (seconds, rest) =>
    if 60 ≤ seconds then none
    else
      match rest with
      | '.' :: rest | ',' :: rest =>
        (takeFraction? rest).map fun (micros, rest) => (seconds * 1000000 + micros, rest)
      | _ => some (seconds * 1000000, rest)
  | none => none

/-- Hours and minutes, then optional seconds. -/
def takeTime? (s : List Char) : Option (TimeOfDay × List Char) :=
  match takeNumber? 2 s with
  | some (hour, ':' :: s) =>
    match takeNumber? 2 s with
    | some (minute, s) =>
      if 24 ≤ hour || 60 ≤ minute then none
      else
        let seconds? :=
          match s with
          | ':' :: s => takeSeconds? s
          | _ => some (0, s)
        seconds?.bind fun (micros, s) =>
          (TimeOfDay.ofMicros? ((hour * 60 + minute) * 60000000 + micros : Nat)).map (·, s)
    | none => none
  | _ => none

def takeOffsetDigits? (s : List Char) : Option (Nat × List Char) :=
  match takeNumber? 2 s with
  | some (hours, s) =>
    let s := match s with
      | ':' :: s => s
      | _ => s
    match takeNumber? 2 s with
    | some (minutes, s) =>
      if 60 ≤ minutes || 24 ≤ hours then none else some (hours * 60 + minutes, s)
    | none => none
  | none => none

/-- The offset at the end of a text: none, universal time, or a sign with hours and minutes. -/
def readOffset? : List Char → Option (Option Int)
  | [] => some none
  | ['Z'] | ['z'] => some (some 0)
  | '+' :: s =>
    match takeOffsetDigits? s with
    | some (minutes, []) => some (some minutes)
    | _ => none
  | '-' :: s | '−' :: s =>
    match takeOffsetDigits? s with
    | some (minutes, []) => some (some (-minutes))
    | _ => none
  | _ => none

end TimeText

open TimeText

def Date.read? (s : String) : Option Date :=
  match takeDate? s.toList with
  | some (d, []) => some d
  | _ => none

def TimeOfDay.read? (s : String) : Option TimeOfDay :=
  match takeTime? s.toList with
  | some (t, []) => some t
  | _ => none

/-- A date alone is its midnight. Between date and time stands a `T`, a space or an underscore. -/
def Instant.read? (s : String) : Option Instant :=
  match takeDate? s.toList with
  | none => none
  | some (d, []) => some (Instant.combine d ⟨0, by decide⟩)
  | some (d, separator :: s) =>
    if ['T', 't', ' ', '_'].contains separator then
      match takeTime? s with
      | some (t, s) => (readOffset? s).map fun offset => { Instant.combine d t with offset }
      | none => none
    else none

end SupplyPlan
