namespace SupplyPlan

/-- A character, or one half of a surrogate pair, counted from the first of them: text that arrives as JSON may name one
half without the other. -/
inductive CodePoint where
  | char (c : Char)
  | half (n : Fin 0x800)
  deriving DecidableEq, Repr

namespace CodePoint

/-- The number by which code points are ordered. -/
def value : CodePoint → Nat
  | char c => c.toNat
  | half n => 0xD800 + n

/-- The code point of a number below 0x110000. -/
def ofNat (n : Nat) : CodePoint :=
  if h : 0xD800 ≤ n ∧ n < 0xE000 then half ⟨n - 0xD800, by omega⟩ else char (Char.ofNat n)

def char? : CodePoint → Option Char
  | char c => some c
  | half _ => none

theorem value_ofNat {n : Nat} (h : n < 0x110000) : (ofNat n).value = n := by
  unfold ofNat
  split
  · simp only [value]
    omega
  · have hvalid : n.isValidChar := by
      unfold Nat.isValidChar
      omega
    rw [value, Char.ofNat, dif_pos hvalid]
    rfl

end CodePoint

/-- A sequence of code points. -/
structure Text where
  points : List CodePoint
  deriving DecidableEq, Repr

namespace Text

def ofChars (cs : List Char) : Text := ⟨cs.map .char⟩

def ofString (s : String) : Text := ofChars s.toList

instance : Coe String Text := ⟨ofString⟩

instance : Append Text := ⟨fun s t => ⟨s.points ++ t.points⟩⟩

/-- The characters of a text, if it has no halves of surrogate pairs. -/
def chars? (t : Text) : Option (List Char) := t.points.mapM CodePoint.char?

def toString? (t : Text) : Option String := t.chars?.map String.ofList

/-- Halves of surrogate pairs are shown as replacement characters. -/
instance : ToString Text := ⟨fun t => String.ofList (t.points.map fun p => p.char?.getD '\uFFFD')⟩

/-- Only a text without halves of surrogate pairs can be written as bytes. -/
def isEncodable (t : Text) : Bool := t.points.all fun p => p.char?.isSome

/-- Whether the first text comes before the second: at the first place where they differ it has the smaller code point,
or it ends there. -/
def isLess (s t : Text) : Bool := s.points.map CodePoint.value < t.points.map CodePoint.value

/-- An empty text counts as none. -/
def nonEmpty (t : Option Text) : Option Text := t.filter fun s => s ≠ ""

/-- How a text that may be missing is written in running text. -/
def shown (t : Option Text) : Text := t.getD "None"

/-- Texts one after the other with a text between them. -/
def joined (separator : Text) (parts : List Text) : Text :=
  ⟨separator.points.intercalate (parts.map Text.points)⟩

theorem isEncodable_append (s t : Text) : (s ++ t).isEncodable = (s.isEncodable && t.isEncodable) :=
  List.all_append

theorem isEncodable_ofString (s : String) : (ofString s).isEncodable := by
  simp [isEncodable, ofString, ofChars, CodePoint.char?]

theorem chars?_ofChars (cs : List Char) : (ofChars cs).chars? = some cs := by
  unfold ofChars chars?
  induction cs with
  | nil => rfl
  | cons c rest ih => simp_all [CodePoint.char?]

end Text

end SupplyPlan
