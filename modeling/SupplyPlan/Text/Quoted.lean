import SupplyPlan.Text.Basic
import SupplyPlan.Text.Printable

namespace SupplyPlan.Text

/-- The lower-case hexadecimal digits of a number, filled with zeros up to a width. -/
def hexDigits (width n : Nat) : List Char :=
  let digits := Nat.toDigits 16 n
  List.replicate (width - digits.length) '0' ++ digits

/-- The shortest escape that holds the code point. -/
def escape (n : Nat) : List Char :=
  if n < 0x100 then '\\' :: 'x' :: hexDigits 2 n
  else if n < 0x10000 then '\\' :: 'u' :: hexDigits 4 n
  else '\\' :: 'U' :: hexDigits 8 n

/-- One code point between the given quotes. -/
def quotePoint (mark : Char) : CodePoint → List Char
  | .half n => escape (CodePoint.half n).value
  | .char c =>
    if c = mark || c = '\\' then ['\\', c]
    else if c = '\n' then ['\\', 'n']
    else if c = '\r' then ['\\', 'r']
    else if c = '\t' then ['\\', 't']
    else if isPrintable c then [c]
    else escape c.toNat

/-- Single quotes, or double quotes when the text holds single quotes and no double ones. -/
def quoteMark (s : Text) : Char :=
  if s.points.contains (.char '\'') && !s.points.contains (.char '"') then '"' else '\''

def quote (s : Text) : Text :=
  let mark := quoteMark s
  ofChars (mark :: s.points.flatMap (quotePoint mark) ++ [mark])

end SupplyPlan.Text
