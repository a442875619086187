import SupplyPlan.Text.Basic

namespace SupplyPlan.Text

def isHighSurrogate (n : Nat) : Bool := 0xD800 ≤ n && n < 0xDC00

def isLowSurrogate (n : Nat) : Bool := 0xDC00 ≤ n && n < 0xE000

/-- The code point of a high and a low surrogate. -/
def ofPair (high low : Nat) : CodePoint :=
  .ofNat (0x10000 + (high - 0xD800) * 0x400 + (low - 0xDC00))

/-- The units of 16 bits of a code point. -/
def units (p : CodePoint) : List Nat :=
  if p.value < 0x10000 then [p.value]
  else
    let beyond := p.value - 0x10000
    [0xD800 + beyond / 0x400, 0xDC00 + beyond % 0x400]

theorem units_ofPair {high low : Nat} (hhigh : isHighSurrogate high) (hlow : isLowSurrogate low) :
    units (ofPair high low) = [high, low] := by
  have hh : 0xD800 ≤ high ∧ high < 0xDC00 := by simpa [isHighSurrogate] using hhigh
  have hl : 0xDC00 ≤ low ∧ low < 0xE000 := by simpa [isLowSurrogate] using hlow
  have hvalue := CodePoint.value_ofNat
    (show 0x10000 + (high - 0xD800) * 0x400 + (low - 0xDC00) < 0x110000 by omega)
  unfold units ofPair
  rw [hvalue, if_neg (by omega)]
  dsimp only
  rw [show 0xD800 + (0x10000 + (high - 0xD800) * 0x400 + (low - 0xDC00) - 0x10000) / 0x400 = high by omega,
    show 0xDC00 + (0x10000 + (high - 0xD800) * 0x400 + (low - 0xDC00) - 0x10000) % 0x400 = low by omega]

end SupplyPlan.Text
