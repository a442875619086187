import SupplyPlan.Number.Quantity
import SupplyPlan.Text.Quoted

namespace SupplyPlan

/-- A JSON value; the members of an object keep their order. -/
inductive Json where
  | null
  | bool (b : Bool)
  | number (q : Quantity)
  | string (s : Text)
  | array (items : List Json)
  | object (members : List (Text × Json))
  deriving Repr

namespace Json

/-- A member of a name that occurs already replaces its value where it stands. -/
def put (name : Text) (value : Json) : List (Text × Json) → List (Text × Json)
  | [] => [(name, value)]
  | (n, v) :: rest => if n = name then (n, value) :: rest else (n, v) :: put name value rest

/-- The object of members that may repeat names; the last value of a name counts. -/
def ofMembers (members : List (Text × Json)) : Json :=
  .object (members.foldl (fun done (name, value) => put name value done) [])

def field? (name : Text) : Json → Option Json
  | .object members => (members.find? (·.1 = name)).map (·.2)
  | _ => none

/-- The number a value counts as; truth values count as one and zero. -/
def toQuantity? : Json → Option Quantity
  | .number q => some q
  | .bool b => some (.int (if b then 1 else 0))
  | _ => none

mutual

/-- Whether two values are equal: numbers and truth values by size, members whatever their order. -/
def same : Json → Json → Bool
  | .null, .null => true
  | .string s, .string t => s = t
  | .array xs, .array ys => sameItems xs ys
  | .object ms, .object ns => ms.length = ns.length && sameMembers ns ms
  | v, w =>
    match v.toQuantity?, w.toQuantity? with
    | some a, some b => a.same b
    | _, _ => false

def sameItems : List Json → List Json → Bool
  | [], ys => ys.isEmpty
  | _ :: _, [] => false
  | x :: xs, y :: ys => same x y && sameItems xs ys

/-- Whether each of some members has an equal one of its name among the others. -/
def sameMembers (others : List (Text × Json)) : List (Text × Json) → Bool
  | [] => true
  | (name, v) :: rest =>
    (match others.find? (·.1 = name) with
      | some (_, w) => same v w
      | none => false) && sameMembers others rest

end

/-- How the two values of the first difference are compared, and the lengths if there is none. -/
inductive Comparison where
  | less
  | lessOrSame
  deriving DecidableEq, Repr

/-- Whether two texts, of which one may be a part of the other, are in order. -/
def Comparison.ofTexts : Comparison → Text → Text → Bool
  | .less, s, t => s.isLess t
  | .lessOrSame, s, t => !t.isLess s

def Comparison.ofNumbers : Comparison → Quantity → Quantity → Bool
  | .less, a, b => a.lt b
  | .lessOrSame, a, b => a.lt b || a.same b

mutual

/-- Whether two values are in order: numbers and truth values by size, texts by their code points, arrays by the first
place where they differ. Values of other kinds, and of two kinds, have no order. -/
def inOrder? (c : Comparison) : Json → Json → Option Bool
  | .string s, .string t => some (c.ofTexts s t)
  | .array xs, .array ys => itemsInOrder? c xs ys
  | v, w => do return c.ofNumbers (← v.toQuantity?) (← w.toQuantity?)

def itemsInOrder? (c : Comparison) : List Json → List Json → Option Bool
  | [], ys => some (c = .lessOrSame || !ys.isEmpty)
  | _ :: _, [] => some false
  | x :: xs, y :: ys => if same x y then itemsInOrder? c xs ys else inOrder? c x y

end

/-- Whether the first value is less. -/
def isLess? : Json → Json → Option Bool := inOrder? .less

/-- Whether the first value is less or equal; with a NaN it is neither. -/
def isAtMost? : Json → Json → Option Bool := inOrder? .lessOrSame

/-- Comma-separated texts. -/
def commaSeparated (parts : List Text) : Text := Text.joined ", " parts

mutual

/-- How a value is shown inside a message. -/
def literal : Json → Text
  | .null => "None"
  | .bool true => "True"
  | .bool false => "False"
  | .number q => q.text
  | .string s => Text.quote s
  | .array items => "[" ++ commaSeparated (literals items) ++ "]"
  | .object members => "\x7b" ++ commaSeparated (memberLiterals members) ++ "\x7d"

def literals : List Json → List Text
  | [] => []
  | item :: rest => literal item :: literals rest

def memberLiterals : List (Text × Json) → List Text
  | [] => []
  | (name, value) :: rest => (Text.quote name ++ ": " ++ literal value) :: memberLiterals rest

end

mutual

/-- How many arrays and objects lie around the innermost value. -/
def depth : Json → Nat
  | .array items => depthOfItems items + 1
  | .object members => depthOfMembers members + 1
  | _ => 0

def depthOfItems : List Json → Nat
  | [] => 0
  | item :: rest => max (depth item) (depthOfItems rest)

def depthOfMembers : List (Text × Json) → Nat
  | [] => 0
  | (_, value) :: rest => max (depth value) (depthOfMembers rest)

end

mutual

/-- Whether all texts in a value can be written as bytes, names of members among them. -/
def isEncodable : Json → Bool
  | .string s => s.isEncodable
  | .array items => areEncodable items
  | .object members => areEncodableMembers members
  | _ => true

def areEncodable : List Json → Bool
  | [] => true
  | item :: rest => isEncodable item && areEncodable rest

def areEncodableMembers : List (Text × Json) → Bool
  | [] => true
  | (name, value) :: rest => name.isEncodable && isEncodable value && areEncodableMembers rest

end

end Json

end SupplyPlan
