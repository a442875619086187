namespace SupplyPlan

/-- The integer nearest to `n / d`; halfway between two integers it is the even one. -/
def roundHalfEven (n : Int) (d : Nat) : Int :=
  let whole := n / d
  let twice := 2 * (n % d)
  if twice < d then whole
  else if twice = d then whole + whole % 2
  else whole + 1

theorem roundHalfEven_near {n : Int} {d : Nat} (hd : 0 < d) :
    2 * n - d ≤ 2 * (roundHalfEven n d * d) ∧ 2 * (roundHalfEven n d * d) ≤ 2 * n + d := by
  have hsplit := Int.mul_ediv_add_emod n d
  have hlow := Int.emod_nonneg n (by omega : (d : Int) ≠ 0)
  have hhigh := Int.emod_lt_of_pos n (by omega : (0 : Int) < d)
  have hparity := Int.emod_two_eq (n / d)
  unfold roundHalfEven
  rw [Int.mul_comm] at hsplit
  dsimp only
  split
  · omega
  · split
    · rcases hparity with h | h <;> simp only [h, Int.add_mul] <;> omega
    · simp only [Int.add_mul]; omega

theorem roundHalfEven_tie {n : Int} {d : Nat} (htie : 2 * (n % d) = d) :
    roundHalfEven n d % 2 = 0 := by
  unfold roundHalfEven
  dsimp only
  rw [if_neg (by omega), if_pos htie]
  omega

/-- The number nearest to `n / d`; halfway between two numbers it is the larger one. -/
def roundHalfUp (n d : Nat) : Nat := (2 * n + d) / (2 * d)

theorem roundHalfUp_near {n d : Nat} (hd : 0 < d) :
    2 * n < 2 * (roundHalfUp n d * d) + d ∧ 2 * (roundHalfUp n d * d) ≤ 2 * n + d := by
  have hsplit := Nat.div_add_mod (2 * n + d) (2 * d)
  have hlow : (2 * n + d) % (2 * d) < 2 * d := Nat.mod_lt _ (by omega)
  have hassoc : 2 * d * roundHalfUp n d = 2 * (roundHalfUp n d * d) := by
    rw [Nat.mul_comm (roundHalfUp n d) d, Nat.mul_assoc]
  unfold roundHalfUp at *
  omega

end SupplyPlan
