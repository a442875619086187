import SupplyPlan.Proofs.Result
import SupplyPlan.Proofs.Calendar.Registry

namespace SupplyPlan

@[simp] theorem RecordId.key_named (name : Option Text) : (named name).key = named name := by
  cases name <;> rfl

@[simp] theorem RecordId.key_text (id : Text) : (text id).key = text id := rfl

namespace Memory

variable {α : Type} {m : Memory α} {id : RecordId} {a : α}

theorem mem_of_get? (h : m.get? id = some a) : (id.key, a) ∈ m.entries := by
  obtain ⟨e, hfind, rfl⟩ := Option.map_eq_some_iff.mp h
  have hkey : e.1 = id.key := by simpa using List.find?_some hfind
  exact hkey ▸ List.mem_of_find?_eq_some hfind

theorem get_eq_ok_iff : m.get id = .ok a ↔ m.get? id = some a := by
  unfold get
  cases m.get? id <;> simp

theorem contains_eq_isSome : m.contains id = (m.get? id).isSome := by
  rw [contains, get?, Option.isSome_map, Bool.eq_iff_iff, List.find?_isSome, List.any_eq_true]

theorem mem_put {key : RecordId} {e : RecordId × α} {es : List (RecordId × α)} (h : e ∈ put key a es) :
    e = (key, a) ∨ e ∈ es := by
  induction es with
  | nil => exact .inl (List.mem_singleton.mp h)
  | cons first rest ih =>
    unfold put at h
    split at h
    · next hkey =>
      rcases List.mem_cons.mp h with rfl | hrest
      · exact .inl (by rw [hkey])
      · exact .inr (List.mem_cons_of_mem first hrest)
    · rcases List.mem_cons.mp h with rfl | hrest
      · exact .inr List.mem_cons_self
      · exact (ih hrest).imp_right (List.mem_cons_of_mem first)

theorem get?_upsert (m : Memory α) (id : RecordId) (a : α) : (m.upsert id a).get? id = some a := by
  suffices hfind : ∀ es, (put id.key a es).find? (·.1 = id.key) = some (id.key, a) by
    rw [upsert, get?, hfind]
    rfl
  intro es
  induction es with
  | nil => simp [put]
  | cons first rest ih =>
    unfold put
    split
    · next hkey => simp [hkey]
    · next hkey => simpa [hkey] using ih

/-- A record that a key had before stays its record when another key is added. -/
theorem get?_of_append {added : RecordId × α} (h : m.get? id = some a) :
    (Memory.mk (m.entries ++ [added])).get? id = some a := by
  obtain ⟨e, hfind, rfl⟩ := Option.map_eq_some_iff.mp h
  simp [get?, List.find?_append, hfind]

end Memory

namespace Table

variable {α : Type} {t : Table α} {id : Text} {a : α}

theorem mem_of_find? {row : Row α} (h : t.find? id = some row) : row ∈ t.rows ∧ row.id = id :=
  ⟨List.mem_of_find?_eq_some h, by simpa using List.find?_some h⟩

theorem mem_put {row : Row α} (h : row ∈ (t.put id a).rows) :
    (row.id = id ∧ row.record = a) ∨ row ∈ t.rows := by
  unfold put at h
  split at h
  · obtain ⟨before, hbefore, rfl⟩ := List.mem_map.mp h
    split
    · next hid => exact .inl ⟨hid, rfl⟩
    · exact .inr hbefore
  · rcases List.mem_cons.mp h with rfl | hrest
    · exact .inl ⟨rfl, rfl⟩
    · exact .inr hrest

theorem stored_of_isEncodable (h : id.isEncodable) : (RecordId.text id).stored = .ok (some id) := if_pos h

theorem stored_text_eq_ok {name : Option Text} (h : (RecordId.text id).stored = .ok name) :
    name = some id ∧ id.isEncodable := by
  by_cases hencodable : id.isEncodable
  · rw [stored_of_isEncodable hencodable] at h
    exact ⟨(Except.ok.inj h).symm, hencodable⟩
  · cases (if_neg hencodable).symm.trans h

end Table

namespace Store

variable {α : Type} {s s' : Store α} {id : Text} {a : α}

inductive Kind where
  | memory
  | table
  | closed
  deriving DecidableEq

def kind : Store α → Kind
  | memory _ => .memory
  | table _ => .table
  | closed => .closed

/-- All records with the keys they are stored under, in no particular order. -/
def entries : Store α → List (RecordId × α)
  | memory m => m.entries
  | table t => t.rows.map fun row => (.text row.id, row.record)
  | closed => []

theorem answers_iff_of_kind_eq {β : Type} {r : Store β} (h : s.kind = r.kind) (id : Text) :
    s.Answers id ↔ r.Answers id := by
  cases s <;> cases r <;> first | rfl | cases h

theorem exists_toList (h : s.kind ≠ .closed) : ∃ records, s.toList = .ok records := by
  cases s with
  | memory m => exact ⟨_, rfl⟩
  | table t => exact ⟨_, rfl⟩
  | closed => exact absurd rfl h

theorem mem_toList_iff {records : List α} (h : s.toList = .ok records) :
    a ∈ records ↔ ∃ key, (key, a) ∈ s.entries := by
  cases s with
  | memory m =>
    obtain rfl : m.toList = records := Except.ok.inj h
    simp [Memory.toList, entries]
  | table t =>
    obtain rfl : t.toList = records := Except.ok.inj h
    simp only [Table.toList, Table.ordered, List.mem_map, List.mem_mergeSort, entries, Prod.mk.injEq]
    constructor
    · rintro ⟨row, hrow, hrecord⟩
      exact ⟨.text row.id, row, hrow, rfl, hrecord⟩
    · rintro ⟨_, row, hrow, -, hrecord⟩
      exact ⟨row, hrow, hrecord⟩
  | closed => cases h

theorem answers_of_get (h : s.get (.text id) = .ok a) : s.Answers id := by
  cases s with
  | memory m => trivial
  | table t =>
    obtain ⟨name, hstored, -⟩ := bind_eq_ok_iff.mp h
    exact (Table.stored_text_eq_ok hstored).2
  | closed => cases h

theorem get_of_not_answers (hopen : s.kind ≠ .closed) (h : ¬ s.Answers id) :
    s.get (.text id) = .error .unencodable := by
  cases s with
  | memory m => exact absurd trivial h
  | table t =>
    have hstored : (RecordId.text id).stored = .error .unencodable := if_neg h
    simp [get, Table.get, hstored, bind, Except.bind]
  | closed => exact absurd rfl hopen

/-- A table finds rows by their ids. -/
theorem find?_of_get_table {t : Table α} (h : (table t).get (.text id) = .ok a) :
    ∃ row, t.find? id = some row ∧ row.record = a := by
  obtain ⟨name, hstored, hget⟩ := bind_eq_ok_iff.mp h
  obtain ⟨rfl, -⟩ := Table.stored_text_eq_ok hstored
  cases hfind : t.find? id with
  | none => simp [hfind] at hget
  | some row => exact ⟨row, rfl, by simpa [hfind] using hget⟩

theorem mem_entries_of_get {name : Option Text} (h : s.get (.named name) = .ok a) :
    (.named name, a) ∈ s.entries := by
  cases s with
  | memory m => simpa [entries] using Memory.mem_of_get? (Memory.get_eq_ok_iff.mp h)
  | table t =>
    cases name with
    | none => cases h
    | some id =>
      obtain ⟨row, hfind, rfl⟩ := find?_of_get_table h
      obtain ⟨hrow, rfl⟩ := Table.mem_of_find? hfind
      exact List.mem_map.mpr ⟨row, hrow, rfl⟩
  | closed => cases h

/-- Whoever has an id has its record. -/
theorem exists_get_of_contains (h : s.contains (.text id) = .ok true) : ∃ a, s.get (.text id) = .ok a := by
  cases s with
  | memory m =>
    obtain ⟨a, hget⟩ := Option.isSome_iff_exists.mp (Memory.contains_eq_isSome.symm.trans (Except.ok.inj h))
    exact ⟨a, Memory.get_eq_ok_iff.mpr hget⟩
  | table t =>
    obtain ⟨name, hstored, hfound⟩ := bind_eq_ok_iff.mp h
    obtain ⟨rfl, -⟩ := Table.stored_text_eq_ok hstored
    obtain ⟨row, hfind⟩ := Option.isSome_iff_exists.mp (Except.ok.inj hfound)
    have hfind : t.find? id = some row := by simpa using hfind
    exact ⟨row.record, by simp [get, Table.get, hstored, bind, Except.bind, hfind]⟩
  | closed => cases h

/-- What a table inserts is encodable and was not there. -/
theorem add_table_eq_ok {t : Table α} (h : (table t).add (.text id) a = .ok s') :
    s' = table (t.insert id a) ∧ t.find? id = none := by
  obtain ⟨t', hadd, rfl⟩ := map_eq_ok_iff.mp h
  obtain ⟨found, -, hadd⟩ := bind_eq_ok_iff.mp hadd
  cases found with
  | true => cases hadd
  | false =>
    obtain ⟨name, hstored, hadd⟩ := bind_eq_ok_iff.mp hadd
    obtain ⟨rfl, -⟩ := Table.stored_text_eq_ok hstored
    cases hfind : t.find? id with
    | some row => simp [hfind] at hadd
    | none =>
      have hinsert : t.insert id a = t' := by simpa [hfind] using hadd
      exact ⟨by rw [hinsert], rfl⟩

theorem add_memory_eq_ok {m : Memory α} (h : (memory m).add (.text id) a = .ok s') :
    s' = memory ⟨m.entries ++ [(.text id, a)]⟩ := by
  obtain ⟨m', hadd, rfl⟩ := map_eq_ok_iff.mp h
  unfold Memory.add at hadd
  split at hadd
  · cases hadd
  · rw [← Except.ok.inj hadd]
    rfl

theorem mem_entries_of_add (h : s.add (.text id) a = .ok s') (e : RecordId × α) :
    e ∈ s'.entries ↔ e = (.text id, a) ∨ e ∈ s.entries := by
  cases s with
  | memory m =>
    obtain rfl := add_memory_eq_ok h
    simp [entries, or_comm]
  | table t =>
    obtain ⟨rfl, -⟩ := add_table_eq_ok h
    simp [entries, Table.insert]
  | closed => cases h

theorem kind_of_add (h : s.add (.text id) a = .ok s') : s'.kind = s.kind := by
  cases s with
  | memory m => rw [add_memory_eq_ok h]; rfl
  | table t => rw [(add_table_eq_ok h).1]; rfl
  | closed => cases h

/-- Adding a record takes none away. -/
theorem get_of_add (h : s.add (.text id) a = .ok s') {other : Text} {b : α}
    (hget : s.get (.text other) = .ok b) : s'.get (.text other) = .ok b := by
  cases s with
  | memory m =>
    obtain rfl := add_memory_eq_ok h
    exact Memory.get_eq_ok_iff.mpr (Memory.get?_of_append (Memory.get_eq_ok_iff.mp hget))
  | table t =>
    obtain ⟨rfl, hnew⟩ := add_table_eq_ok h
    have hencodable : other.isEncodable := answers_of_get hget
    obtain ⟨row, hfind, rfl⟩ := find?_of_get_table hget
    have hne : id ≠ other := by
      rintro rfl
      rw [hnew] at hfind
      cases hfind
    have hfind : (t.insert id a).find? other = some row := by
      rw [← hfind]
      simp [Table.find?, Table.insert, hne]
    simp [get, Table.get, Table.stored_of_isEncodable hencodable, bind, Except.bind, hfind]
  | closed => cases h

theorem upsert_table_eq_ok {t : Table α} {name : Option Text} (h : (table t).upsert (.named name) a = .ok s') :
    ∃ id, name = some id ∧ s' = table (t.put id a) := by
  obtain ⟨t', hupsert, rfl⟩ := map_eq_ok_iff.mp h
  cases name with
  | none => cases hupsert
  | some id =>
    obtain ⟨stored, hstored, hupsert⟩ := bind_eq_ok_iff.mp hupsert
    obtain ⟨rfl, -⟩ := Table.stored_text_eq_ok hstored
    exact ⟨id, rfl, by rw [Except.ok.inj hupsert]⟩

theorem mem_entries_of_upsert {name : Option Text} (h : s.upsert (.named name) a = .ok s') {e : RecordId × α}
    (he : e ∈ s'.entries) : e = (.named name, a) ∨ e ∈ s.entries := by
  cases s with
  | memory m =>
    obtain rfl : memory (m.upsert (.named name) a) = s' := Except.ok.inj h
    simpa [entries] using Memory.mem_put he
  | table t =>
    obtain ⟨id, rfl, rfl⟩ := upsert_table_eq_ok h
    obtain ⟨row, hrow, rfl⟩ := List.mem_map.mp he
    rcases Table.mem_put hrow with ⟨hid, hrecord⟩ | hrow
    · exact .inl (by rw [hid, hrecord]; rfl)
    · exact .inr (List.mem_map_of_mem hrow)
  | closed => cases h

theorem kind_of_upsert {name : Option Text} (h : s.upsert (.named name) a = .ok s') : s'.kind = s.kind := by
  cases s with
  | memory m => rw [← Except.ok.inj h]; rfl
  | table t =>
    obtain ⟨id, -, rfl⟩ := upsert_table_eq_ok h
    rfl
  | closed => cases h

/-- An edited record is one that was fetched; where copies are handed out nothing is edited. -/
theorem editFetched_eq_ok {name : Option Text} {f : α → α} (h : s.editFetched (.named name) f = .ok s') :
    ∃ a, s.get (.named name) = .ok a ∧ (s' = s ∨ s.upsert (.named name) (f a) = .ok s') := by
  obtain ⟨a, hget, hedit⟩ := bind_eq_ok_iff.mp h
  refine ⟨a, hget, ?_⟩
  cases s with
  | memory m => exact .inr hedit
  | table t => exact .inl (Except.ok.inj hedit).symm
  | closed => cases hget

theorem get_of_editFetched {name : Option Text} {f : α → α} (h : s.editFetched (.named name) f = .ok s') :
    ∃ a, s.get (.named name) = .ok a ∧ (s'.get (.named name) = .ok a ∨ s'.get (.named name) = .ok (f a)) := by
  obtain ⟨a, hget, hedit⟩ := bind_eq_ok_iff.mp h
  refine ⟨a, hget, ?_⟩
  cases s with
  | memory m =>
    obtain rfl : memory (m.upsert (.named name) (f a)) = s' := Except.ok.inj hedit
    exact .inr (Memory.get_eq_ok_iff.mpr (Memory.get?_upsert m _ _))
  | table t =>
    obtain rfl : table t = s' := Except.ok.inj hedit
    exact .inl hget
  | closed => cases hget

end Store

end SupplyPlan
