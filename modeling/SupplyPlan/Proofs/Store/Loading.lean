import Mathlib.Data.List.Sort
import SupplyPlan.Proofs.Store.Entries

namespace SupplyPlan

/-- Whether a table can be asked for a name. A missing one it never has. -/
def Text.isStorable (name : Option Text) : Bool := name.all isEncodable

def Row.entry {α : Type} (row : Row α) : RecordId × α := (.text row.id, row.record)

namespace Memory

variable {α : Type} {key : RecordId} {a b : α} {es : List (RecordId × α)}

theorem put_of_not_mem (h : ∀ e ∈ es, e.1 ≠ key) : put key a es = es ++ [(key, a)] := by
  induction es with
  | nil => rfl
  | cons first rest ih =>
    obtain ⟨hfirst, hrest⟩ := List.forall_mem_cons.mp h
    rw [put, if_neg hfirst, ih hrest, List.cons_append]

/-- Where keys differ, the record of a key is replaced in its place. -/
theorem put_of_mem (hnodup : (es.map (·.1)).Nodup) (h : ∃ e ∈ es, e.1 = key) :
    put key a es = es.map fun e => if e.1 = key then (e.1, a) else e := by
  induction es with
  | nil => simp at h
  | cons first rest ih =>
    obtain ⟨hnew, hrest⟩ := List.nodup_cons.mp hnodup
    by_cases hfirst : first.1 = key
    · have hothers : rest.map (fun e => if e.1 = key then (e.1, a) else e) = rest := by
        refine (List.map_congr_left fun e he => if_neg fun hkey => hnew ?_).trans (List.map_id rest)
        exact List.mem_map.mpr ⟨e, he, hkey.trans hfirst.symm⟩
      rw [put, if_pos hfirst, List.map_cons, if_pos hfirst, hothers]
    · obtain ⟨e, he, hkey⟩ := h
      have hin : ∃ e ∈ rest, e.1 = key := by
        rcases List.mem_cons.mp he with rfl | he
        · exact absurd hkey hfirst
        · exact ⟨e, he, hkey⟩
      rw [put, if_neg hfirst, List.map_cons, if_neg hfirst, ih hrest hin]

/-- Only the last record that was put under a key counts. -/
theorem put_put : put key b (put key a es) = put key b es := by
  induction es with
  | nil => simp [put]
  | cons first rest ih =>
    by_cases hfirst : first.1 = key
    · simp [put, hfirst]
    · simp [put, hfirst, ih]

end Memory

namespace Table

variable {α : Type} {t : Table α} {id : Text} {a : α}

/-- Rows as they come in: newer ones stand before older ones and have larger numbers, and no id comes twice. -/
structure IsOrderly (t : Table α) : Prop where
  descending : t.rows.Pairwise fun newer older => older.seq < newer.seq
  below_next : ∀ row ∈ t.rows, row.seq < t.nextSeq
  distinct : (t.rows.map (·.id)).Nodup

/-- The memory that takes in all rows from the first to the last. -/
def loaded (t : Table α) : Memory α := ⟨t.rows.reverse.map Row.entry⟩

theorem isOrderly_empty : (empty : Table α).IsOrderly := ⟨.nil, by simp [empty], .nil⟩

theorem find?_eq_none_iff : t.find? id = none ↔ ∀ row ∈ t.rows, row.id ≠ id := by
  simp [find?, List.find?_eq_none]

namespace IsOrderly

theorem insert (h : t.IsOrderly) (hnew : t.find? id = none) (a : α) : (t.insert id a).IsOrderly where
  descending := List.pairwise_cons.mpr ⟨h.below_next, h.descending⟩
  below_next := by
    intro row hrow
    rcases List.mem_cons.mp hrow with rfl | hrow
    · exact Nat.lt_succ_self _
    · exact Nat.lt_succ_of_lt (h.below_next row hrow)
  distinct := by
    refine List.nodup_cons.mpr ⟨fun hmem => ?_, h.distinct⟩
    obtain ⟨row, hrow, hid⟩ := List.mem_map.mp hmem
    exact find?_eq_none_iff.mp hnew row hrow hid

theorem put (h : t.IsOrderly) (id : Text) (a : α) : (t.put id a).IsOrderly := by
  unfold Table.put
  split
  · have hseq (row : Row α) : (if row.id = id then { row with record := a } else row).seq = row.seq := by
      split <;> rfl
    have hid (row : Row α) : (if row.id = id then { row with record := a } else row).id = row.id := by
      split <;> rfl
    constructor
    · simpa only [List.pairwise_map, hseq] using h.descending
    · intro row hrow
      obtain ⟨before, hbefore, rfl⟩ := List.mem_map.mp hrow
      exact (hseq before).symm ▸ h.below_next before hbefore
    · simpa only [List.map_map, Function.comp_def, hid] using h.distinct
  · next hnone => exact h.insert (Option.not_isSome_iff_eq_none.mp hnone) a

/-- Reading by numbers is reading from the oldest row to the newest. -/
theorem ordered_eq (h : t.IsOrderly) : t.ordered = t.rows.reverse := by
  have hnumbers : (t.rows.map (·.seq)).Nodup :=
    List.pairwise_map.mpr (h.descending.imp fun hlt => (Nat.ne_of_lt hlt).symm)
  have hperm : t.ordered.Perm t.rows.reverse :=
    (List.mergeSort_perm t.rows _).trans (List.reverse_perm t.rows).symm
  have hsorted : t.ordered.Pairwise fun r s => r.seq ≤ s.seq := by
    have hsorted := @List.pairwise_mergeSort _ (fun r s : Row α => decide (r.seq ≤ s.seq))
      (fun r s u => by simpa using Nat.le_trans) (fun r s => by simpa using Nat.le_total r.seq s.seq) t.rows
    exact hsorted.imp fun hle => by simpa using hle
  have hreversed : t.rows.reverse.Pairwise fun r s => r.seq ≤ s.seq :=
    List.pairwise_reverse.mpr (h.descending.imp Nat.le_of_lt)
  refine List.Perm.eq_of_pairwise (fun r s hr hs hle hge => ?_) hsorted hreversed hperm
  exact List.inj_on_of_nodup_map hnumbers (List.mem_reverse.mp (hperm.subset hr)) (List.mem_reverse.mp hs)
    (Nat.le_antisymm hle hge)

theorem loaded_toList (h : t.IsOrderly) : t.loaded.toList = t.toList := by
  rw [toList, h.ordered_eq, Memory.toList, loaded, List.map_map]
  rfl

theorem loaded_keys_nodup (h : t.IsOrderly) : (t.loaded.entries.map (·.1)).Nodup := by
  have hkeys : t.loaded.entries.map (·.1) = ((t.rows.map (·.id)).map RecordId.text).reverse := by
    simp [loaded, Row.entry, Function.comp_def]
  rw [hkeys, List.nodup_reverse]
  exact h.distinct.map fun id other heq => by simpa using heq

end IsOrderly

theorem mem_loaded_iff {e : RecordId × α} : e ∈ t.loaded.entries ↔ ∃ row ∈ t.rows, row.entry = e := by
  simp [loaded]

/-- Ids that are no texts lead to no row. -/
theorem loaded_get?_absent : t.loaded.get? .absent = none := by
  have hnone : t.loaded.entries.find? (·.1 = RecordId.absent) = none := by
    refine List.find?_eq_none.mpr fun e he => ?_
    obtain ⟨row, -, rfl⟩ := mem_loaded_iff.mp he
    simp [Row.entry]
  exact congrArg (Option.map (·.2)) hnone

theorem IsOrderly.loaded_get? (h : t.IsOrderly) (id : Text) :
    t.loaded.get? (.text id) = (t.find? id).map (·.record) := by
  cases hfind : t.find? id with
  | none =>
    have hnone : t.loaded.entries.find? (·.1 = RecordId.text id) = none := by
      refine List.find?_eq_none.mpr fun e he => ?_
      obtain ⟨row, hrow, rfl⟩ := mem_loaded_iff.mp he
      simpa [Row.entry] using find?_eq_none_iff.mp hfind row hrow
    exact congrArg (Option.map (·.2)) hnone
  | some row =>
    obtain ⟨hrow, rfl⟩ := mem_of_find? hfind
    cases hget : t.loaded.get? (.text row.id) with
    | none =>
      have hnone := List.find?_eq_none.mp (Option.map_eq_none_iff.mp hget) row.entry
        (mem_loaded_iff.mpr ⟨row, hrow, rfl⟩)
      simp [Row.entry] at hnone
    | some b =>
      obtain ⟨other, hother, heq⟩ := mem_loaded_iff.mp (Memory.mem_of_get? hget)
      obtain ⟨hid, rfl⟩ := Prod.mk.inj heq
      rw [List.inj_on_of_nodup_map h.distinct hother hrow (RecordId.text.inj hid)]
      rfl

theorem loaded_insert : (t.insert id a).loaded = ⟨t.loaded.entries ++ [(.text id, a)]⟩ := by
  simp [loaded, insert, Row.entry]

theorem IsOrderly.loaded_put (h : t.IsOrderly) (id : Text) (a : α) :
    (t.put id a).loaded = t.loaded.upsert (.text id) a := by
  unfold Table.put
  split
  · next hsome =>
    obtain ⟨row, hfind⟩ := Option.isSome_iff_exists.mp hsome
    obtain ⟨hrow, rfl⟩ := mem_of_find? hfind
    have hin : ∃ e ∈ t.loaded.entries, e.1 = RecordId.text row.id :=
      ⟨row.entry, mem_loaded_iff.mpr ⟨row, hrow, rfl⟩, rfl⟩
    have hentry (r : Row α) :
        (if r.id = row.id then { r with record := a } else r).entry =
          if r.entry.1 = RecordId.text row.id then (r.entry.1, a) else r.entry := by
      by_cases heq : r.id = row.id <;> simp [Row.entry, heq]
    rw [Memory.upsert, RecordId.key_text, Memory.put_of_mem h.loaded_keys_nodup hin]
    simp [loaded, ← List.map_reverse, Function.comp_def, hentry]
  · next hnone =>
    have hnew : ∀ e ∈ t.loaded.entries, e.1 ≠ RecordId.text id := by
      intro e he
      obtain ⟨row, hrow, rfl⟩ := mem_loaded_iff.mp he
      simpa [Row.entry] using find?_eq_none_iff.mp (Option.not_isSome_iff_eq_none.mp hnone) row hrow
    rw [loaded_insert, Memory.upsert, RecordId.key_text, Memory.put_of_not_mem hnew]

end Table

namespace Store

variable {α : Type} {s s' : Store α}

/-- A table is read into memory; other stores stay what they are. -/
def loaded : Store α → Store α
  | table t => memory t.loaded
  | s => s

def IsOrderly : Store α → Prop
  | table t => t.IsOrderly
  | _ => True

theorem IsOrderly.of_add {id : Text} {a : α} (h : s.IsOrderly) (hadd : s.add (.text id) a = .ok s') :
    s'.IsOrderly := by
  cases s with
  | memory m => rw [add_memory_eq_ok hadd]; trivial
  | table t =>
    obtain ⟨rfl, hnew⟩ := add_table_eq_ok hadd
    exact Table.IsOrderly.insert h hnew a
  | closed => cases hadd

theorem IsOrderly.of_upsert {name : Option Text} {a : α} (h : s.IsOrderly)
    (hupsert : s.upsert (.named name) a = .ok s') : s'.IsOrderly := by
  cases s with
  | memory m => rw [← Except.ok.inj hupsert]; trivial
  | table t =>
    obtain ⟨id, -, rfl⟩ := upsert_table_eq_ok hupsert
    exact Table.IsOrderly.put h id a
  | closed => cases hupsert

theorem IsOrderly.of_editFetched {name : Option Text} {f : α → α} (h : s.IsOrderly)
    (hedit : s.editFetched (.named name) f = .ok s') : s'.IsOrderly := by
  obtain ⟨a, -, rfl | hupsert⟩ := editFetched_eq_ok hedit
  · exact h
  · exact h.of_upsert hupsert

theorem IsOrderly.loaded_toList (h : s.IsOrderly) : s.loaded.toList = s.toList := by
  cases s with
  | table t => exact congrArg Except.ok (Table.IsOrderly.loaded_toList h)
  | memory _ | closed => rfl

theorem IsOrderly.loaded_find (h : s.IsOrderly) (p : α → Bool) : s.loaded.find p = s.find p := by
  rw [find, h.loaded_toList, find]

section Named

variable {name : Option Text} (hname : Text.isStorable name)

include hname

theorem IsOrderly.loaded_get (h : s.IsOrderly) : s.loaded.get (.named name) = s.get (.named name) := by
  cases s with
  | table t =>
    cases name with
    | none => simp [loaded, get, RecordId.named, Memory.get, Table.loaded_get?_absent, Table.get, RecordId.stored,
        bind, Except.bind]
    | some id =>
      have hstored : (RecordId.text id).stored = .ok (some id) := Table.stored_of_isEncodable hname
      simp only [loaded, get, RecordId.named, Memory.get, Table.IsOrderly.loaded_get? h, Table.get, hstored, bind,
        Except.bind, Option.bind_some]
      cases t.find? id <;> rfl
  | memory _ | closed => rfl

end Named

section Texts

variable {id : Text} (hid : id.isEncodable) {a : α}

include hid

theorem contains_table (t : Table α) : (table t).contains (.text id) = .ok (t.find? id).isSome := by
  simp [contains, Table.contains, Table.stored_of_isEncodable hid, bind, Except.bind, pure, Except.pure]

theorem IsOrderly.loaded_contains (h : s.IsOrderly) : s.loaded.contains (.text id) = s.contains (.text id) := by
  cases s with
  | table t =>
    rw [contains_table hid]
    simp [loaded, contains, Memory.contains_eq_isSome, Table.IsOrderly.loaded_get? h]
  | memory _ | closed => rfl

theorem IsOrderly.loaded_add (h : s.IsOrderly) (a : α) :
    s.loaded.add (.text id) a = loaded <$> s.add (.text id) a := by
  cases s with
  | table t =>
    have hcontains := contains_table hid t
    cases hfind : t.find? id with
    | none =>
      have hadd : t.add (.text id) a = .ok (t.insert id a) := by
        simp only [contains] at hcontains
        simp [Table.add, hcontains, Table.stored_of_isEncodable hid, bind, Except.bind, hfind]
      simp [loaded, add, hadd, Memory.add, Memory.contains_eq_isSome, Table.IsOrderly.loaded_get? h, hfind,
        Table.loaded_insert, Functor.map, Except.map]
    | some row =>
      have hadd : t.add (.text id) a = .error (.duplicateRecord (.text id)) := by
        simp only [contains] at hcontains
        simp [Table.add, hcontains, bind, Except.bind, hfind]
      simp [loaded, add, hadd, Memory.add, Memory.contains_eq_isSome, Table.IsOrderly.loaded_get? h, hfind,
        Functor.map, Except.map]
  | memory m =>
    simp only [loaded, add]
    cases m.add (.text id) a <;> rfl
  | closed => rfl

theorem IsOrderly.loaded_upsert (h : s.IsOrderly) (a : α) :
    s.loaded.upsert (.text id) a = loaded <$> s.upsert (.text id) a := by
  cases s with
  | table t =>
    have hupsert : t.upsert (.text id) a = .ok (t.put id a) := by
      simp [Table.upsert, Table.stored_of_isEncodable hid, bind, Except.bind]
    simp [loaded, upsert, hupsert, Table.IsOrderly.loaded_put h, Functor.map, Except.map]
  | memory _ | closed => rfl

end Texts

/-- A record that is edited where it is handed out and stored again is stored as if nothing had been edited before. -/
theorem editFetched_upsert {id : Text} {a : α} (hget : s.get (.text id) = .ok a) (f : α → α) :
    ∃ edited, s.editFetched (.text id) f = .ok edited ∧ edited.kind = s.kind ∧
      edited.upsert (.text id) (f a) = s.upsert (.text id) (f a) := by
  cases s with
  | memory m =>
    refine ⟨memory (m.upsert (.text id) (f a)), ?_, rfl, ?_⟩
    · simp only [editFetched, hget]
      rfl
    · simp [upsert, Memory.upsert, Memory.put_put]
  | table t => exact ⟨table t, by simp only [editFetched, hget]; rfl, rfl, rfl⟩
  | closed => cases hget

theorem exists_upsert_of_answers {id : Text} (h : s.Answers id) (a : α) : ∃ s', s.upsert (.text id) a = .ok s' := by
  cases s with
  | memory m => exact ⟨_, rfl⟩
  | table t =>
    exact ⟨table (t.put id a), by simp [upsert, Table.upsert, Table.stored_of_isEncodable h, bind, Except.bind]⟩
  | closed => exact h.elim

end Store

end SupplyPlan
