import SupplyPlan.Json.Basic
import SupplyPlan.Text.Surrogate

namespace SupplyPlan.Json

/-- The escape of a 16-bit code unit. -/
def unitEscape (n : Nat) : List Char := '\\' :: 'u' :: Text.hexDigits 4 n

/-- Quotes, backslashes and everything that is no printable ASCII character are escaped, code points beyond 16 bits by
their two units. -/
def writePoint (p : CodePoint) : List Char :=
  match p with
  | .char '"' => ['\\', '"']
  | .char '\\' => ['\\', '\\']
  | .char c => if 0x20 ≤ c.toNat && c.toNat < 0x7f then [c] else (Text.units p).flatMap unitEscape
  | .half _ => (Text.units p).flatMap unitEscape

def writeText (s : Text) : String := String.ofList ('"' :: s.points.flatMap writePoint ++ ['"'])

mutual

def write : Json → String
  | .null => "null"
  | .bool true => "true"
  | .bool false => "false"
  | .number q => q.text
  | .string s => writeText s
  | .array items => "[" ++ ",".intercalate (writeItems items) ++ "]"
  | .object members => "\x7b" ++ ",".intercalate (writeMembers members) ++ "\x7d"

def writeItems : List Json → List String
  | [] => []
  | item :: rest => write item :: writeItems rest

def writeMembers : List (Text × Json) → List String
  | [] => []
  | (name, value) :: rest => (writeText name ++ ":" ++ write value) :: writeMembers rest

end

end SupplyPlan.Json
