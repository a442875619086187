import SupplyPlan.Proofs.Store.Loading

namespace SupplyPlan

namespace Memory

variable {α : Type} {m : Memory α} {id other : RecordId} {a : α}

theorem find?_put_of_ne {key : RecordId} (hne : other ≠ key) (es : List (RecordId × α)) :
    (put key a es).find? (·.1 = other) = es.find? (·.1 = other) := by
  induction es with
  | nil => simp [put, hne.symm]
  | cons first rest ih =>
    unfold put
    split
    · next hkey => simp [hkey, hne.symm]
    · rw [List.find?_cons, ih, List.find?_cons]

theorem get?_upsert_of_ne (hne : other.key ≠ id.key) : (m.upsert id a).get? other = m.get? other :=
  congrArg (Option.map Prod.snd) (find?_put_of_ne hne m.entries)

theorem get?_append_of_ne {key : RecordId} (hne : other.key ≠ key) :
    (Memory.mk (m.entries ++ [(key, a)])).get? other = m.get? other := by
  simp [get?, List.find?_append, hne.symm]

theorem get?_append_of_new (hnew : m.get? id = none) :
    (Memory.mk (m.entries ++ [(id.key, a)])).get? id = some a := by
  have hnone : m.entries.find? (·.1 = id.key) = none := Option.map_eq_none_iff.mp hnew
  simp [get?, List.find?_append, hnone]

theorem get_congr {m' : Memory α} (h : m'.get? id = m.get? id) : m'.get id = m.get id := by
  rw [get, h, get]

end Memory

namespace Table

variable {α : Type} {t : Table α} {id other : Text} {a : α}

theorem find?_insert_of_ne (hne : other ≠ id) : (t.insert id a).find? other = t.find? other := by
  simp [find?, insert, hne.symm]

theorem find?_put_of_ne (hne : other ≠ id) : (t.put id a).find? other = t.find? other := by
  unfold put
  split
  · have hrow (row : Row α) : (if row.id = id then { row with record := a } else row).id = row.id := by
      split <;> rfl
    have hkept : ∀ row ∈ t.find? other, (if row.id = id then { row with record := a } else row) = row := by
      intro row hrow
      obtain ⟨-, rfl⟩ := mem_of_find? hrow
      exact if_neg hne
    rw [find?, List.find?_map]
    simp only [Function.comp_def, hrow]
    exact (Option.map_congr hkept).trans Option.map_id'
  · exact find?_insert_of_ne hne

theorem find?_put (t : Table α) (id : Text) (a : α) : ∃ row, (t.put id a).find? id = some row ∧ row.record = a := by
  unfold put
  split
  · next hsome =>
    obtain ⟨row, hfind⟩ := Option.isSome_iff_exists.mp hsome
    have hrow (row : Row α) : (if row.id = id then { row with record := a } else row).id = row.id := by
      split <;> rfl
    have hid : row.id = id := (mem_of_find? hfind).2
    refine ⟨{ row with record := a }, ?_, rfl⟩
    rw [find?, List.find?_map]
    simp only [Function.comp_def, hrow]
    have hfind : t.rows.find? (fun row => row.id = id) = some row := hfind
    rw [hfind, Option.map_some, if_pos hid]
  · exact ⟨⟨t.nextSeq, id, a⟩, by simp [find?, insert], rfl⟩

/-- What a table finds under a text depends on nothing but the row with that id. -/
theorem get_congr {t' : Table α} (h : t'.find? id = t.find? id) : t'.get (.text id) = t.get (.text id) := by
  by_cases hencodable : id.isEncodable
  · simp only [get, stored_of_isEncodable hencodable, bind, Except.bind, Option.bind_some, h]
  · have hstored : (RecordId.text id).stored = .error .unencodable := if_neg hencodable
    simp only [get, hstored, bind, Except.bind]

theorem get_of_find? {row : Row α} (hencodable : id.isEncodable) (h : t.find? id = some row) :
    t.get (.text id) = .ok row.record := by
  simp only [get, stored_of_isEncodable hencodable, bind, Except.bind, Option.bind_some, h]

theorem get_of_find?_eq_none (hencodable : id.isEncodable) (h : t.find? id = none) :
    t.get (.text id) = .error (.recordNotFound (.keyed (.text id))) := by
  simp only [get, stored_of_isEncodable hencodable, bind, Except.bind, Option.bind_some, h]

end Table

namespace Store

variable {α : Type} {s s' : Store α} {id other : Text} {a : α} {records : List α}

theorem answers_of_add (h : s.add (.text id) a = .ok s') : s.Answers id := by
  cases s with
  | memory m => trivial
  | table t =>
    obtain ⟨t', hadd, rfl⟩ := map_eq_ok_iff.mp h
    obtain ⟨found, hcontains, -⟩ := bind_eq_ok_iff.mp hadd
    obtain ⟨name, hstored, -⟩ := bind_eq_ok_iff.mp hcontains
    exact (Table.stored_text_eq_ok hstored).2
  | closed => cases h

/-- What a memory takes in was not there. -/
theorem get?_of_add {m : Memory α} (h : (memory m).add (.text id) a = .ok s') : m.get? (.text id) = none := by
  obtain ⟨m', hadd, -⟩ := map_eq_ok_iff.mp h
  unfold Memory.add at hadd
  split at hadd
  · cases hadd
  · next hnot =>
    rw [Memory.contains_eq_isSome] at hnot
    exact Option.not_isSome_iff_eq_none.mp hnot

theorem get_added (h : s.add (.text id) a = .ok s') : s'.get (.text id) = .ok a := by
  have hanswers := answers_of_add h
  cases s with
  | memory m =>
    obtain rfl := add_memory_eq_ok h
    exact Memory.get_eq_ok_iff.mpr (Memory.get?_append_of_new (get?_of_add h))
  | table t =>
    obtain ⟨rfl, -⟩ := add_table_eq_ok h
    have hfind : (t.insert id a).find? id = some ⟨t.nextSeq, id, a⟩ := by simp [Table.find?, Table.insert]
    exact Table.get_of_find? hanswers hfind
  | closed => cases h

theorem get_of_add_eq_error (h : s.add (.text id) a = .ok s') :
    s.get (.text id) = .error (.recordNotFound (.keyed (.text id))) := by
  have hanswers := answers_of_add h
  cases s with
  | memory m => rw [get, Memory.get, get?_of_add h]
  | table t =>
    obtain ⟨-, hnew⟩ := add_table_eq_ok h
    exact Table.get_of_find?_eq_none hanswers hnew
  | closed => cases h

theorem get_add_of_ne (h : s.add (.text id) a = .ok s') (hne : other ≠ id) :
    s'.get (.text other) = s.get (.text other) := by
  cases s with
  | memory m =>
    obtain rfl := add_memory_eq_ok h
    exact Memory.get_congr (Memory.get?_append_of_ne (by simpa using hne))
  | table t =>
    obtain ⟨rfl, -⟩ := add_table_eq_ok h
    exact Table.get_congr (Table.find?_insert_of_ne hne)
  | closed => cases h

/-- An added record comes behind all others. -/
theorem IsOrderly.toList_add (horderly : s.IsOrderly) (h : s.add (.text id) a = .ok s') :
    ∃ records, s.toList = .ok records ∧ s'.toList = .ok (records ++ [a]) := by
  cases s with
  | memory m =>
    obtain rfl := add_memory_eq_ok h
    exact ⟨m.toList, rfl, congrArg Except.ok (by simp [Memory.toList])⟩
  | table t =>
    obtain ⟨rfl, hnew⟩ := add_table_eq_ok h
    have hrows : t.IsOrderly := horderly
    refine ⟨t.toList, rfl, congrArg Except.ok ?_⟩
    rw [← (hrows.insert hnew a).loaded_toList, ← hrows.loaded_toList, Table.loaded_insert]
    simp [Memory.toList]
  | closed => cases h

theorem answers_of_upsert (h : s.upsert (.text id) a = .ok s') : s.Answers id := by
  cases s with
  | memory m => trivial
  | table t =>
    obtain ⟨t', hupsert, rfl⟩ := map_eq_ok_iff.mp h
    obtain ⟨name, hstored, -⟩ := bind_eq_ok_iff.mp hupsert
    exact (Table.stored_text_eq_ok hstored).2
  | closed => cases h

theorem get_upserted (h : s.upsert (.text id) a = .ok s') : s'.get (.text id) = .ok a := by
  have hanswers := answers_of_upsert h
  cases s with
  | memory m =>
    obtain rfl : memory (m.upsert (.text id) a) = s' := Except.ok.inj h
    exact Memory.get_eq_ok_iff.mpr (Memory.get?_upsert m _ a)
  | table t =>
    have hnamed : (table t).upsert (.named (some id)) a = .ok s' := h
    obtain ⟨id', hid, rfl⟩ := upsert_table_eq_ok hnamed
    obtain rfl := Option.some.inj hid
    obtain ⟨row, hfind, rfl⟩ := t.find?_put id a
    exact Table.get_of_find? hanswers hfind
  | closed => cases h

theorem get_upsert_of_ne (h : s.upsert (.text id) a = .ok s') (hne : other ≠ id) :
    s'.get (.text other) = s.get (.text other) := by
  cases s with
  | memory m =>
    obtain rfl : memory (m.upsert (.text id) a) = s' := Except.ok.inj h
    exact Memory.get_congr (Memory.get?_upsert_of_ne (by simpa using hne))
  | table t =>
    have hnamed : (table t).upsert (.named (some id)) a = .ok s' := h
    obtain ⟨id', hid, rfl⟩ := upsert_table_eq_ok hnamed
    obtain rfl := Option.some.inj hid
    exact Table.get_congr (Table.find?_put_of_ne hne)
  | closed => cases h

end Store

end SupplyPlan
