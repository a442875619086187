namespace SupplyPlan.Sorting

variable {α ε : Type}

/-- The front of a list in which every item is less than the one before it, or in which none is, and the rest. `before`
stands in front of the list. -/
def front (less : α → α → Except ε Bool) (falling : Bool) (before : α) :
    List α → Except ε (List α × List α)
  | [] => .ok ([], [])
  | x :: rest => do
    if (← less x before) = falling then
      let (more, rest) ← front less falling x rest
      return (x :: more, rest)
    else return ([], x :: rest)

/-- The number of items between `low` and `high` that stay before an item, and `low`: half of them are set aside with
each comparison. -/
def place (less : α → α → Except ε Bool) (x : α) (items : List α) (low high : Nat) : Except ε Nat :=
  if h : low < high ∧ high ≤ items.length then do
    let middle := low + (high - low) / 2
    if ← less x (items.get ⟨middle, by omega⟩) then place less x items low middle
    else place less x items (middle + 1) high
  else .ok low
termination_by high - low

/-- Puts an item behind the last one that is not greater. -/
def insert (less : α → α → Except ε Bool) (items : List α) (x : α) : Except ε (List α) := do
  let n ← place less x items 0 items.length
  return items.take n ++ x :: items.drop n

/-- The items in ascending order; equal ones stay in theirs. A front that is in order already is kept or turned round,
and every later item finds its place by halving. -/
def sorted (less : α → α → Except ε Bool) : List α → Except ε (List α)
  | [] => .ok []
  | [x] => .ok [x]
  | x :: y :: rest => do
    let falling ← less y x
    let (more, rest) ← front less falling y rest
    let start := x :: y :: more
    rest.foldlM (insert less) (if falling then start.reverse else start)

theorem append_of_front {less : α → α → Except ε Bool} {falling : Bool} {before : α}
    {items more rest : List α} (h : front less falling before items = .ok (more, rest)) :
    more ++ rest = items := by
  induction items generalizing before more rest with
  | nil => simp_all [front]
  | cons x items ih =>
    simp only [front, bind, Except.bind] at h
    split at h
    · cases h
    · split at h
      · split at h
        · cases h
        · next found hfound =>
          simp only [pure, Except.pure, Except.ok.injEq, Prod.mk.injEq] at h
          obtain ⟨rfl, rfl⟩ := h
          simpa using ih hfound
      · simp only [pure, Except.pure, Except.ok.injEq, Prod.mk.injEq] at h
        obtain ⟨rfl, rfl⟩ := h
        rfl

theorem perm_of_insert {less : α → α → Except ε Bool} {items result : List α} {x : α}
    (h : insert less items x = .ok result) : result.Perm (x :: items) := by
  simp only [insert, bind, Except.bind] at h
  split at h
  · cases h
  · simp only [pure, Except.pure, Except.ok.injEq] at h
    rw [← h]
    exact List.perm_middle.trans (by rw [List.take_append_drop])

end SupplyPlan.Sorting
