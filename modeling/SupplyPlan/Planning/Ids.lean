import SupplyPlan.Text.Basic

namespace SupplyPlan

/-- The ids that are drawn for new records one after the other: texts that have bytes, fit between the slashes of a path
and never come twice. -/
structure IdStream where
  draw : Nat → Text
  isEncodable : ∀ n, (draw n).isEncodable
  fitsPath : ∀ n, draw n ≠ "" ∧ .char '/' ∉ (draw n).points
  injective : ∀ {m n}, draw m = draw n → m = n

def numberedId (n : Nat) : Text := "id-" ++ toString n

theorem isEncodable_numberedId (n : Nat) : (numberedId n).isEncodable := by
  simp [numberedId, Text.isEncodable_append, Text.isEncodable_ofString]

theorem slash_not_mem_numberedId (n : Nat) : .char '/' ∉ (numberedId n).points := by
  intro hslash
  rcases List.mem_append.mp hslash with hfront | hdigits
  · revert hfront
    decide
  · obtain ⟨c, hc, hslash⟩ := List.mem_map.mp hdigits
    obtain rfl := CodePoint.char.inj hslash
    rw [Nat.toString_eq_repr, Nat.toList_repr] at hc
    have hdigit := Nat.isDigit_of_mem_toDigits (by decide) (by decide) hc
    revert hdigit
    decide

theorem numberedId_injective {m n : Nat} (h : numberedId m = numberedId n) : m = n := by
  have hpoints : (toString m).toList.map CodePoint.char = (toString n).toList.map CodePoint.char :=
    List.append_cancel_left (congrArg Text.points h)
  have hdigits : Nat.toDigits 10 m = Nat.toDigits 10 n := by
    have hchars := (List.map_inj_right fun _ _ h => CodePoint.char.inj h).mp hpoints
    simpa only [Nat.toString_eq_repr, Nat.toList_repr] using hchars
  rw [← Nat.ofDigitChars_ten_toDigits (n := m), hdigits, Nat.ofDigitChars_ten_toDigits]

/-- The ids `id-1`, `id-2` and so on. -/
def IdStream.numbered : IdStream where
  draw := numberedId
  isEncodable := isEncodable_numberedId
  fitsPath n := ⟨fun hempty => (nomatch congrArg Text.points hempty), slash_not_mem_numberedId n⟩
  injective := numberedId_injective

end SupplyPlan
