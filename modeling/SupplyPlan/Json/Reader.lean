import SupplyPlan.Json.Basic
import SupplyPlan.Text.Surrogate

namespace SupplyPlan.Json

/-- Why a text cannot be read. -/
inductive ReadingFault where
  /-- No JSON; the number is that of the characters left where the fault lies. -/
  | malformed (left : Nat)
  /-- An integer that is too long, or a value that nests too deeply; whatever follows is not looked at. -/
  | excessive
  deriving DecidableEq, Repr

/-- A value read and the rest of the text, or a fault. -/
abbrev Reading (α : Type) := Except ReadingFault (α × List CodePoint)

def malformed {α : Type} (left : Nat) : Reading α := .error (.malformed left)

/-- The digits that an integer may have. -/
def digitLimit : Nat := 4300

def isSpace (p : CodePoint) : Bool :=
  p = .char ' ' || p = .char '\t' || p = .char '\n' || p = .char '\r'

def skipSpace (s : List CodePoint) : List CodePoint := s.dropWhile isSpace

def digit? (p : CodePoint) : Option Char := p.char?.filter Char.isDigit

/-- The digits at the start of a text and the rest. -/
def takeDigits : List CodePoint → List Char × List CodePoint
  | [] => ([], [])
  | p :: rest =>
    match digit? p with
    | some d =>
      let (digits, left) := takeDigits rest
      (d :: digits, left)
    | none => ([], p :: rest)

def hexValue? : CodePoint → Option Nat
  | .half _ => none
  | .char c =>
    if c.isDigit then some (c.toNat - '0'.toNat)
    else if 'a' ≤ c && c ≤ 'f' then some (c.toNat - 'a'.toNat + 10)
    else if 'A' ≤ c && c ≤ 'F' then some (c.toNat - 'A'.toNat + 10)
    else none

/-- Four hexadecimal digits, with at least one more code point behind them. -/
def fourHex? : List CodePoint → Option (Nat × List CodePoint)
  | a :: b :: c :: d :: next :: rest => do
    let a ← hexValue? a
    let b ← hexValue? b
    let c ← hexValue? c
    let d ← hexValue? d
    return (((a * 16 + b) * 16 + c) * 16 + d, next :: rest)
  | _ => none

/-- The code point written behind a backslash and a `u`; a high surrogate takes the low one that follows it as a second
escape. A lone one is kept. -/
def readUnicode (s : List CodePoint) : Reading CodePoint :=
  match fourHex? s with
  | none => malformed (s.length + 1)
  | some (high, rest) =>
    match rest with
    | .char '\\' :: .char 'u' :: tail =>
      if Text.isHighSurrogate high && 4 < tail.length then
        match fourHex? tail with
        | none => malformed (tail.length + 1)
        | some (low, tail) =>
          if Text.isLowSurrogate low then .ok (Text.ofPair high low, tail)
          else .ok (.ofNat high, rest)
      else .ok (.ofNat high, rest)
    | _ => .ok (.ofNat high, rest)

def simpleEscape? : CodePoint → Option Char
  | .char '"' => some '"'
  | .char '\\' => some '\\'
  | .char '/' => some '/'
  | .char 'b' => some '\x08'
  | .char 'f' => some '\x0c'
  | .char 'n' => some '\n'
  | .char 'r' => some '\r'
  | .char 't' => some '\t'
  | _ => none

/-- The text up to the closing quote. A missing quote is a fault at the opening one, where `opening` code points were
left. The fuel bounds the code points read. -/
def readText (opening : Nat) : Nat → List CodePoint → List CodePoint → Reading Text
  | 0, _, _ => malformed opening
  | _, _, [] => malformed opening
  | fuel + 1, done, p :: rest =>
    if p = .char '"' then .ok (⟨done.reverse⟩, rest)
    else if p = .char '\\' then
      match rest with
      | [] => malformed opening
      | .char 'u' :: tail =>
        match readUnicode tail with
        | .error fault => .error fault
        | .ok (read, tail) => readText opening fuel (read :: done) tail
      | e :: tail =>
        match simpleEscape? e with
        | none => malformed (tail.length + 2)
        | some read => readText opening fuel (.char read :: done) tail
    else if p.value < 0x20 then malformed (rest.length + 1)
    else readText opening fuel (p :: done) rest

/-- The fraction of a number: a point counts only before a digit. -/
def takeFraction : List CodePoint → List Char × List CodePoint
  | .char '.' :: s =>
    let (digits, rest) := takeDigits s
    if digits = [] then ([], .char '.' :: s) else (digits, rest)
  | s => ([], s)

/-- Splits off a sign; true is minus. -/
def takeSign : List CodePoint → Bool × List CodePoint
  | .char '-' :: rest => (true, rest)
  | .char '+' :: rest => (false, rest)
  | rest => (false, rest)

/-- The exponent of a number: the letter counts only if digits follow it. -/
def takeExponent? : List CodePoint → Option (Int × List CodePoint)
  | .char 'e' :: s | .char 'E' :: s =>
    let (negative, s) := takeSign s
    let (digits, rest) := takeDigits s
    if digits = [] then none
    else
      let n : Int := Decimal.natOfDigits digits
      some (if negative then -n else n, rest)
  | _ => none

/-- The digits of a whole number; a zero in front stands alone. -/
def takeWhole : List CodePoint → List Char × List CodePoint
  | .char '0' :: rest => (['0'], rest)
  | s => takeDigits s

/-- A number without fraction and exponent is an integer. -/
def readNumber (s : List CodePoint) : Reading Json :=
  let (negative, body) := match s with
    | .char '-' :: rest => (true, rest)
    | _ => (false, s)
  let (whole, rest) := takeWhole body
  if whole = [] then malformed s.length
  else
    let (fraction, rest) := takeFraction rest
    let digits := Decimal.natOfDigits (whole ++ fraction)
    match takeExponent? rest with
    | some (e, rest) =>
      .ok (.number (.float (.ofDecimal negative ⟨digits, e - fraction.length⟩)), rest)
    | none =>
      if fraction = [] then
        if digitLimit < whole.length then .error .excessive
        else .ok (.number (.int (if negative then -digits else digits)), rest)
      else .ok (.number (.float (.ofDecimal negative ⟨digits, -fraction.length⟩)), rest)

/-- Words that stand for a value. -/
def words : List (Text × Json) :=
  [("null", .null), ("true", .bool true), ("false", .bool false), ("NaN", .number (.float .nan)),
   ("Infinity", .number (.float (.infinite false))), ("-Infinity", .number (.float (.infinite true)))]

def readWord? (s : List CodePoint) : Option (Json × List CodePoint) :=
  words.findSome? fun (word, value) =>
    if word.points.isPrefixOf s then some (value, s.drop word.points.length) else none

mutual

/-- A value at the start of the text. The fuel bounds the productions used, the depth the arrays and objects around a
value inside it. -/
def readValue : Nat → Nat → List CodePoint → Reading Json
  | 0, _, s => malformed s.length
  | fuel + 1, depth, s =>
    match s with
    | .char '"' :: rest =>
      match readText s.length s.length [] rest with
      | .ok (text, rest) => .ok (.string text, rest)
      | .error fault => .error fault
    | .char '[' :: rest =>
      match depth with
      | 0 => .error .excessive
      | depth + 1 =>
        match skipSpace rest with
        | .char ']' :: rest => .ok (.array [], rest)
        | rest =>
          match readItems fuel depth rest with
          | .ok (items, rest) => .ok (.array items, rest)
          | .error fault => .error fault
    | .char '\x7b' :: rest =>
      match depth with
      | 0 => .error .excessive
      | depth + 1 =>
        match skipSpace rest with
        | .char '\x7d' :: rest => .ok (.object [], rest)
        | rest =>
          match readMembers fuel depth rest with
          | .ok (members, rest) => .ok (.ofMembers members, rest)
          | .error fault => .error fault
    | _ =>
      match readWord? s with
      | some found => .ok found
      | none => readNumber s

/-- Items up to the closing bracket. -/
def readItems : Nat → Nat → List CodePoint → Reading (List Json)
  | 0, _, s => malformed s.length
  | fuel + 1, depth, s =>
    match readValue fuel depth s with
    | .error fault => .error fault
    | .ok (item, rest) =>
      match skipSpace rest with
      | .char ']' :: rest => .ok ([item], rest)
      | .char ',' :: rest =>
        match readItems fuel depth (skipSpace rest) with
        | .ok (items, rest) => .ok (item :: items, rest)
        | .error fault => .error fault
      | rest => malformed rest.length

/-- Members up to the closing brace. -/
def readMembers : Nat → Nat → List CodePoint → Reading (List (Text × Json))
  | 0, _, s => malformed s.length
  | fuel + 1, depth, s =>
    match s with
    | .char '"' :: rest =>
      match readText s.length s.length [] rest with
      | .error fault => .error fault
      | .ok (name, rest) =>
        match skipSpace rest with
        | .char ':' :: rest =>
          match readValue fuel depth (skipSpace rest) with
          | .error fault => .error fault
          | .ok (value, rest) =>
            match skipSpace rest with
            | .char '\x7d' :: rest => .ok ([(name, value)], rest)
            | .char ',' :: rest =>
              match readMembers fuel depth (skipSpace rest) with
              | .ok (members, rest) => .ok ((name, value) :: members, rest)
              | .error fault => .error fault
            | rest => malformed rest.length
        | rest => malformed rest.length
    | _ => malformed s.length

end

/-- Reads a whole text whose values nest no deeper than a limit. -/
def read (limit : Nat) (text : List CodePoint) : Except ReadingFault Json :=
  match readValue (2 * text.length + 2) limit (skipSpace text) with
  | .error fault => .error fault
  | .ok (value, rest) =>
    match skipSpace rest with
    | [] => .ok value
    | rest => .error (.malformed rest.length)

end SupplyPlan.Json
