import Mathlib.Data.List.Sort
import SupplyPlan.Sorting

namespace SupplyPlan.Sorting

variable {α ε : Type} {less : α → α → Except ε Bool} {P : α → Prop} {key : α → Int} {items result : List α} {x : α}

/-- The items with a property are compared by a number. -/
def ComparesBy (less : α → α → Except ε Bool) (P : α → Prop) (key : α → Int) : Prop :=
  ∀ x y, P x → P y → less x y = .ok (decide (key x < key y))

/-- The items in ascending order, and equal ones in theirs. -/
structure Orders (key : α → Int) (items result : List α) : Prop where
  perm : result.Perm items
  ascending : result.Pairwise fun a b => key a ≤ key b
  stable : ∀ k, (result.filter fun a => key a = k) = items.filter fun a => key a = k

/-- Halving ends behind the last item that is not greater, if all items below the range are not greater and all items
above it are. -/
theorem exists_place (hless : ComparesBy less P key) (hx : P x) (hitems : ∀ a ∈ items, P a)
    (hascending : items.Pairwise fun a b => key a ≤ key b) {low high : Nat} (hrange : low ≤ high ∧ high ≤ items.length)
    (hbelow : ∀ (i : Nat) (hi : i < items.length), i < low → key items[i] ≤ key x)
    (habove : ∀ (i : Nat) (hi : i < items.length), high ≤ i → key x < key items[i]) :
    ∃ n, place less x items low high = .ok n ∧
      (∀ (i : Nat) (hi : i < items.length), i < n → key items[i] ≤ key x) ∧
      ∀ (i : Nat) (hi : i < items.length), n ≤ i → key x < key items[i] := by
  have hle : ∀ (i j : Nat) (hi : i < items.length) (hj : j < items.length), i ≤ j → key items[i] ≤ key items[j] := by
    intro i j hi hj hij
    obtain rfl | hlt := Nat.eq_or_lt_of_le hij
    · exact le_rfl
    · exact List.pairwise_iff_getElem.mp hascending i j hi hj hlt
  induction hn : high - low using Nat.strong_induction_on generalizing low high with
  | _ n ih =>
    by_cases hopen : low < high
    · have hmiddle : low + (high - low) / 2 < items.length := by omega
      have hcompare : less x items[low + (high - low) / 2] = .ok (decide (key x < key items[low + (high - low) / 2])) :=
        hless x _ hx (hitems _ (List.getElem_mem hmiddle))
      rw [place, dif_pos ⟨hopen, hrange.2⟩]
      simp only [List.get_eq_getElem, hcompare, bind, Except.bind]
      by_cases hgreater : key x < key items[low + (high - low) / 2]
      · simp only [hgreater, decide_true, if_true]
        refine ih _ (by omega) (by omega) hbelow (fun i hi hmi => ?_) rfl
        exact hgreater.trans_le (hle _ i hmiddle hi hmi)
      · simp only [hgreater, decide_false, Bool.false_eq_true, if_false]
        refine ih _ (by omega) (by omega) (fun i hi him => ?_) habove rfl
        exact (hle i _ hi hmiddle (by omega)).trans (not_lt.mp hgreater)
    · obtain rfl : low = high := by omega
      rw [place, dif_neg (by omega)]
      exact ⟨low, rfl, hbelow, habove⟩

theorem Orders.refl (hascending : items.Pairwise fun a b => key a ≤ key b) : Orders key items items :=
  ⟨.refl items, hascending, fun _ => rfl⟩

/-- Items in order can be taken for the items they come from. -/
theorem Orders.extend {rest middle : List α} (hmiddle : Orders key items middle)
    (h : Orders key (middle ++ rest) result) : Orders key (items ++ rest) result where
  perm := h.perm.trans (hmiddle.perm.append_right rest)
  ascending := h.ascending
  stable := by
    intro k
    rw [h.stable, List.filter_append, hmiddle.stable, ← List.filter_append]

theorem exists_insert (hless : ComparesBy less P key) (hx : P x) (hitems : ∀ a ∈ items, P a)
    (hascending : items.Pairwise fun a b => key a ≤ key b) :
    ∃ result, insert less items x = .ok result ∧ Orders key (items ++ [x]) result := by
  obtain ⟨n, hplace, hbefore, hbehind⟩ := exists_place hless hx hitems hascending ⟨Nat.zero_le _, le_rfl⟩
    (fun i _ hi => absurd hi (Nat.not_lt_zero i)) (fun i hi hle => absurd hi (Nat.not_lt.mpr hle))
  have hinsert : insert less items x = .ok (items.take n ++ x :: items.drop n) := by
    simp [insert, hplace, bind, Except.bind, pure, Except.pure]
  have hbefore : ∀ a ∈ items.take n, key a ≤ key x := by
    intro a ha
    obtain ⟨i, hi, rfl⟩ := List.mem_take_iff_getElem.mp ha
    exact hbefore i (by omega) (by omega)
  have hbehind : ∀ a ∈ items.drop n, key x < key a := by
    intro a ha
    obtain ⟨i, hi, rfl⟩ := List.mem_drop_iff_getElem.mp ha
    exact hbehind (n + i) (by omega) (by omega)
  refine ⟨_, hinsert, ?_, ?_, fun k => ?_⟩
  · exact (perm_of_insert hinsert).trans (List.perm_append_singleton x items).symm
  · refine List.pairwise_append.mpr ⟨hascending.take, ?_, fun a ha b hb => ?_⟩
    · exact List.pairwise_cons.mpr ⟨fun b hb => (hbehind b hb).le, hascending.drop⟩
    · obtain rfl | hb := List.mem_cons.mp hb
      · exact hbefore a ha
      · exact (hbefore a ha).trans (hbehind b hb).le
  · have hsplit : (items.filter fun a => key a = k) =
        (items.take n).filter (fun a => key a = k) ++ (items.drop n).filter fun a => key a = k := by
      rw [← List.filter_append, List.take_append_drop]
    rw [List.filter_append, List.filter_append, hsplit, List.append_assoc, List.filter_cons]
    by_cases hkey : key x = k
    · -- no item behind the new one is equal to it
      have hnone : (items.drop n).filter (fun a => key a = k) = [] := by
        refine List.filter_eq_nil_iff.mpr fun a ha => ?_
        simpa using (hkey ▸ hbehind a ha).ne'
      simp [hkey, hnone]
    · simp [hkey]

theorem exists_insertAll (hless : ComparesBy less P key) {start rest : List α} (hstart : ∀ a ∈ start, P a)
    (hrest : ∀ a ∈ rest, P a) (hascending : start.Pairwise fun a b => key a ≤ key b) :
    ∃ result, rest.foldlM (insert less) start = .ok result ∧ Orders key (start ++ rest) result := by
  induction rest generalizing start with
  | nil => exact ⟨start, rfl, by simpa using Orders.refl hascending⟩
  | cons x rest ih =>
    obtain ⟨hx, hrest⟩ := List.forall_mem_cons.mp hrest
    obtain ⟨next, hinsert, horders⟩ := exists_insert hless hx hstart hascending
    have hnext : ∀ a ∈ next, P a := by
      intro a ha
      obtain ha | ha := List.mem_append.mp (horders.perm.mem_iff.mp ha)
      · exact hstart a ha
      · exact List.mem_singleton.mp ha ▸ hx
    obtain ⟨result, hfold, hall⟩ := ih hnext hrest horders.ascending
    refine ⟨result, ?_, ?_⟩
    · simpa [hinsert, bind, Except.bind] using hfold
    · simpa using horders.extend hall

/-- A step that falls, or does not, in front of a list that does so from item to item. -/
theorem pairwise_cons_of_step {falling : Bool} {a b : α} {more : List α} (hstep : decide (key b < key a) = falling)
    (hmore : (b :: more).Pairwise fun a b => decide (key b < key a) = falling) :
    (a :: b :: more).Pairwise fun a b => decide (key b < key a) = falling := by
  refine List.pairwise_cons.mpr ⟨fun c hc => ?_, hmore⟩
  obtain rfl | hc := List.mem_cons.mp hc
  · exact hstep
  · have hnext := (List.pairwise_cons.mp hmore).1 c hc
    cases falling <;> simp at hstep hnext ⊢ <;> omega

/-- The front of a list falls from item to item, or does not fall at all. -/
theorem exists_front (hless : ComparesBy less P key) (falling : Bool) {before : α} (hbefore : P before)
    (hitems : ∀ a ∈ items, P a) :
    ∃ more rest, front less falling before items = .ok (more, rest) ∧
      (before :: more).Pairwise fun a b => decide (key b < key a) = falling := by
  induction items generalizing before with
  | nil => exact ⟨[], [], rfl, List.pairwise_singleton _ _⟩
  | cons x items ih =>
    obtain ⟨hx, hitems⟩ := List.forall_mem_cons.mp hitems
    by_cases hstep : decide (key x < key before) = falling
    · obtain ⟨more, rest, hfront, hmore⟩ := ih hx hitems
      refine ⟨x :: more, rest, ?_, pairwise_cons_of_step hstep hmore⟩
      simp [front, hless x before hx hbefore, hstep, hfront, bind, Except.bind, pure, Except.pure]
    · refine ⟨[], x :: items, ?_, List.pairwise_singleton _ _⟩
      simp [front, hless x before hx hbefore, hstep, bind, Except.bind, pure, Except.pure]

/-- Turning round a strictly falling list moves no equal items past each other. -/
theorem Orders.reverse (hfalling : items.Pairwise fun a b => key b < key a) : Orders key items items.reverse where
  perm := List.reverse_perm items
  ascending := List.pairwise_reverse.mpr (hfalling.imp le_of_lt)
  stable := by
    intro k
    rw [List.filter_reverse]
    have hequal : (items.filter fun a => key a = k).Pairwise fun a b => key b < key a := hfalling.filter _
    have hkeys : ∀ a ∈ items.filter fun a => key a = k, key a = k := by simp
    match items.filter (fun a => key a = k), hequal, hkeys with
    | [], _, _ => rfl
    | [a], _, _ => rfl
    | a :: b :: _, hequal, hkeys =>
      have hlt := (List.pairwise_cons.mp hequal).1 b List.mem_cons_self
      rw [hkeys a List.mem_cons_self, hkeys b (List.mem_cons_of_mem a List.mem_cons_self)] at hlt
      exact absurd hlt (lt_irrefl k)

/-- The front is put in order as it is, or turned round. -/
theorem Orders.ofFront {falling : Bool} (h : items.Pairwise fun a b => decide (key b < key a) = falling) :
    Orders key items (if falling then items.reverse else items) := by
  cases falling with
  | true => exact .reverse (h.imp of_decide_eq_true)
  | false => exact .refl (h.imp fun hstep => not_lt.mp (of_decide_eq_false hstep))

/-- Items that are compared by a number are put in order. -/
theorem exists_sorted (hless : ComparesBy less P key) (hitems : ∀ a ∈ items, P a) :
    ∃ result, sorted less items = .ok result ∧ Orders key items result := by
  match items, hitems with
  | [], _ => exact ⟨[], rfl, .refl .nil⟩
  | [x], _ => exact ⟨[x], rfl, .refl (List.pairwise_singleton _ _)⟩
  | x :: y :: items, hitems =>
    obtain ⟨hx, hothers⟩ := List.forall_mem_cons.mp hitems
    obtain ⟨hy, hothers⟩ := List.forall_mem_cons.mp hothers
    obtain ⟨more, rest, hfront, hmore⟩ := exists_front hless (decide (key y < key x)) hy hothers
    obtain rfl := append_of_front hfront
    have hstart := Orders.ofFront (pairwise_cons_of_step rfl hmore)
    generalize hbegin : (if decide (key y < key x) then (x :: y :: more).reverse else x :: y :: more) = start at hstart
    have hproperty : ∀ a ∈ start, P a := fun a ha => hitems a (List.mem_append_left rest (hstart.perm.mem_iff.mp ha))
    have hrest : ∀ a ∈ rest, P a := fun a ha => hothers a (List.mem_append_right more ha)
    obtain ⟨result, hfold, horders⟩ := exists_insertAll hless hproperty hrest hstart.ascending
    refine ⟨result, ?_, hstart.extend horders⟩
    simp only [sorted, hless y x hy hx, bind, Except.bind, hfront, hbegin]
    exact hfold

/-- The items with a property are compared by a number if they are of one kind, and not at all if they are not. -/
structure ComparesWithin (less : α → α → Except ε Bool) (P : α → Prop) (kind : α → Bool) (key : α → Int) (e : ε) :
    Prop where
  alike : ∀ x y, P x → P y → kind x = kind y → less x y = .ok (decide (key x < key y))
  unlike : ∀ x y, P x → P y → kind x ≠ kind y → less x y = .error e

variable {kind : α → Bool} {e : ε}

theorem ComparesWithin.comparesBy (h : ComparesWithin less P kind key e) (k : Bool) :
    ComparesBy less (fun a => P a ∧ kind a = k) key :=
  fun x y hx hy => h.alike x y hx.1 hy.1 (hx.2.trans hy.2.symm)

/-- The first item that an item is compared with tells that it is of another kind. -/
theorem insert_eq_error (h : ComparesWithin less P kind key e) (hx : P x) (hitems : ∀ a ∈ items, P a) (hne : items ≠ [])
    (hkind : ∀ a ∈ items, kind x ≠ kind a) : insert less items x = .error e := by
  have hpos : 0 < items.length := List.length_pos_iff.mpr hne
  have hmiddle : items.length / 2 < items.length := by omega
  have hmem : items[items.length / 2] ∈ items := List.getElem_mem hmiddle
  have hcompare := h.unlike x _ hx (hitems _ hmem) (hkind _ hmem)
  rw [insert, place, dif_pos ⟨hpos, le_rfl⟩]
  simp [hcompare, bind, Except.bind]

theorem insertAll_eq_error (h : ComparesWithin less P kind key e) {k : Bool} {start rest : List α}
    (hstart : ∀ a ∈ start, P a ∧ kind a = k) (hne : start ≠ []) (hascending : start.Pairwise fun a b => key a ≤ key b)
    (hrest : ∀ a ∈ rest, P a) (hmixed : ∃ a ∈ rest, kind a ≠ k) : rest.foldlM (insert less) start = .error e := by
  induction rest generalizing start with
  | nil => simp at hmixed
  | cons x rest ih =>
    obtain ⟨hx, hrest⟩ := List.forall_mem_cons.mp hrest
    by_cases hkind : kind x = k
    · obtain ⟨next, hinsert, horders⟩ := exists_insert (h.comparesBy k) ⟨hx, hkind⟩ hstart hascending
      have hmem (a : α) (ha : a ∈ next) : a ∈ start ∨ a = x := by simpa using horders.perm.mem_iff.mp ha
      have hnext : ∀ a ∈ next, P a ∧ kind a = k := by
        intro a ha
        obtain ha | rfl := hmem a ha
        · exact hstart a ha
        · exact ⟨hx, hkind⟩
      have hnonempty : next ≠ [] := by
        rintro rfl
        simpa using horders.perm.length_eq
      have hmixed : ∃ a ∈ rest, kind a ≠ k := by
        obtain ⟨a, ha, hother⟩ := hmixed
        obtain rfl | ha := List.mem_cons.mp ha
        · exact absurd hkind hother
        · exact ⟨a, ha, hother⟩
      simpa [hinsert, bind, Except.bind] using ih hnext hnonempty horders.ascending hrest hmixed
    · have herror : insert less start x = .error e :=
        insert_eq_error h hx (fun a ha => (hstart a ha).1) hne fun a ha => (hstart a ha).2.symm ▸ hkind
      simp [herror, bind, Except.bind]

/-- The front of a list is of one kind, or an item of another kind is met in it. -/
theorem front_cases (h : ComparesWithin less P kind key e) (falling : Bool) {before : α} (hbefore : P before)
    (hitems : ∀ a ∈ items, P a) :
    front less falling before items = .error e ∨
      ∃ more rest, front less falling before items = .ok (more, rest) ∧ (∀ a ∈ more, kind a = kind before) ∧
        (before :: more).Pairwise fun a b => decide (key b < key a) = falling := by
  induction items generalizing before with
  | nil => exact .inr ⟨[], [], rfl, by simp, List.pairwise_singleton _ _⟩
  | cons x items ih =>
    obtain ⟨hx, hitems⟩ := List.forall_mem_cons.mp hitems
    by_cases hkind : kind x = kind before
    · have hcompare := h.alike x before hx hbefore hkind
      by_cases hstep : decide (key x < key before) = falling
      · obtain herror | ⟨more, rest, hfront, halike, hmore⟩ := ih hx hitems
        · exact .inl (by simp [front, hcompare, hstep, herror, bind, Except.bind])
        · refine .inr ⟨x :: more, rest, ?_, ?_, pairwise_cons_of_step hstep hmore⟩
          · simp [front, hcompare, hstep, hfront, bind, Except.bind, pure, Except.pure]
          · exact List.forall_mem_cons.mpr ⟨hkind, fun a ha => (halike a ha).trans hkind⟩
      · refine .inr ⟨[], x :: items, ?_, by simp, List.pairwise_singleton _ _⟩
        simp [front, hcompare, hstep, bind, Except.bind, pure, Except.pure]
    · exact .inl (by simp [front, h.unlike x before hx hbefore hkind, bind, Except.bind])

/-- If there are items of both kinds, two of them are compared. -/
theorem sorted_eq_error (h : ComparesWithin less P kind key e) (hitems : ∀ a ∈ items, P a)
    (hmixed : ∃ a ∈ items, ∃ b ∈ items, kind a ≠ kind b) : sorted less items = .error e := by
  obtain ⟨a, ha, b, hb, hne⟩ := hmixed
  match items, hitems with
  | [], _ => cases ha
  | [x], _ => exact absurd ((List.mem_singleton.mp ha).trans (List.mem_singleton.mp hb).symm ▸ rfl) hne
  | x :: y :: items, hitems =>
    obtain ⟨hx, hothers⟩ := List.forall_mem_cons.mp hitems
    obtain ⟨hy, hothers⟩ := List.forall_mem_cons.mp hothers
    by_cases hkind : kind y = kind x
    · have hcompare := h.alike y x hy hx hkind
      obtain herror | ⟨more, rest, hfront, halike, hmore⟩ := front_cases h (decide (key y < key x)) hy hothers
      · simp only [sorted, hcompare, bind, Except.bind, herror]
      · obtain rfl := append_of_front hfront
        have hstart := Orders.ofFront (pairwise_cons_of_step rfl hmore)
        have hfirst : ∀ c ∈ x :: y :: more, kind c = kind x := by
          intro c hc
          obtain rfl | rfl | hc : c = x ∨ c = y ∨ c ∈ more := by simpa using hc
          · rfl
          · exact hkind
          · exact (halike c hc).trans hkind
        generalize hbegin : (if decide (key y < key x) then (x :: y :: more).reverse else x :: y :: more) = start
          at hstart
        have hproperty : ∀ c ∈ start, P c ∧ kind c = kind x := by
          intro c hc
          have hc := hstart.perm.mem_iff.mp hc
          exact ⟨hitems c (List.mem_append_left rest hc), hfirst c hc⟩
        have hnonempty : start ≠ [] := by
          rintro rfl
          simpa using hstart.perm.length_eq
        have hrest : ∀ c ∈ rest, P c := fun c hc => hothers c (List.mem_append_right more hc)
        have hlater : ∃ c ∈ rest, kind c ≠ kind x := by
          by_contra hnone
          have hall : ∀ c ∈ (x :: y :: more) ++ rest, kind c = kind x := by
            intro c hc
            obtain hc | hc := List.mem_append.mp hc
            · exact hfirst c hc
            · exact not_not.mp fun hother => hnone ⟨c, hc, hother⟩
          exact hne ((hall a ha).trans (hall b hb).symm)
        simp only [sorted, hcompare, bind, Except.bind, hfront, hbegin]
        exact insertAll_eq_error h hproperty hnonempty hstart.ascending hrest hlater
    · simp only [sorted, h.unlike y x hy hx hkind, bind, Except.bind]

end SupplyPlan.Sorting
