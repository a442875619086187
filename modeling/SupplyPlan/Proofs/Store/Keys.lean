import SupplyPlan.Proofs.Store.Lookup

namespace SupplyPlan

/-- A key that is there stays where it is, and any other one comes last. -/
theorem Memory.map_fst_put {α : Type} (key : RecordId) (a : α) (es : List (RecordId × α)) :
    (put key a es).map (·.1) = es.map (·.1) ∨
      key ∉ es.map (·.1) ∧ (put key a es).map (·.1) = es.map (·.1) ++ [key] := by
  induction es with
  | nil => exact .inr ⟨List.not_mem_nil, rfl⟩
  | cons first rest ih =>
    unfold put
    split
    · exact .inl rfl
    · next hne =>
      simp only [List.map_cons, List.cons_append, List.cons.injEq, true_and, List.mem_cons, not_or]
      rcases ih with hsame | ⟨hnew, hkeys⟩
      · exact .inl hsame
      · exact .inr ⟨⟨Ne.symm hne, hnew⟩, hkeys⟩

/-- Replacing the record of a row leaves the ids of all rows as they are. -/
theorem Table.map_id_put {α : Type} (t : Table α) (id : Text) (a : α) :
    (t.put id a).rows.map (·.id) = t.rows.map (·.id) ∨
      id ∉ t.rows.map (·.id) ∧ (t.put id a).rows.map (·.id) = id :: t.rows.map (·.id) := by
  unfold put
  split
  · refine .inl ?_
    rw [List.map_map]
    refine List.map_congr_left fun row _ => ?_
    rw [Function.comp_apply]
    split <;> rfl
  · next hnone =>
    have hnew := find?_eq_none_iff.mp (Option.not_isSome_iff_eq_none.mp hnone)
    exact .inr ⟨by simpa using hnew, rfl⟩

namespace Store

variable {α : Type} {s s' : Store α} {idOf : α → Option Text} {id : Text} {a : α}

/-- The keys under which records are stored. -/
def keys (s : Store α) : List RecordId := s.entries.map (·.1)

/-- Every record is stored under the id that it has itself, and no id is used twice. -/
structure IsKeyed (s : Store α) (idOf : α → Option Text) : Prop where
  own : ∀ e ∈ s.entries, ∃ id, e.1 = .text id ∧ idOf e.2 = some id
  nodup : s.keys.Nodup

theorem isKeyed_of_entries_eq_nil (h : s.entries = []) (idOf : α → Option Text) : s.IsKeyed idOf where
  own := by simp [h]
  nodup := by simp [keys, h]

theorem isOrderly_of_entries_eq_nil (h : s.entries = []) : s.IsOrderly := by
  cases s with
  | table t =>
    have hrows : t.rows = [] := List.map_eq_nil_iff.mp h
    constructor <;> simp [hrows]
  | memory _ | closed => trivial

theorem IsKeyed.eq_of_mem (h : s.IsKeyed idOf) {key : RecordId} {b : α} (ha : (key, a) ∈ s.entries)
    (hb : (key, b) ∈ s.entries) : a = b :=
  (Prod.mk.inj (List.inj_on_of_nodup_map h.nodup ha hb rfl)).2

/-- What is found under a name has that name as its id. -/
theorem IsKeyed.of_get (h : s.IsKeyed idOf) {name : Option Text} (hget : s.get (.named name) = .ok a) :
    ∃ id, name = some id ∧ idOf a = some id := by
  obtain ⟨id, hkey, hid⟩ := h.own _ (mem_entries_of_get hget)
  cases name with
  | none => cases hkey
  | some name => exact ⟨id, congrArg some (RecordId.text.inj hkey), hid⟩

/-- A listed record with an id is the one that is found under it. -/
theorem IsKeyed.eq_of_get (h : s.IsKeyed idOf) {records : List α} (hrecords : s.toList = .ok records) {b : α}
    (hb : b ∈ records) (hid : idOf b = some id) (hget : s.get (.text id) = .ok a) : b = a := by
  obtain ⟨key, hmem⟩ := (mem_toList_iff hrecords).mp hb
  obtain ⟨id', hkey, hid'⟩ := h.own _ hmem
  obtain rfl : id' = id := Option.some.inj (hid'.symm.trans hid)
  have hget : s.get (.named (some id')) = .ok a := hget
  have hfound := mem_entries_of_get hget
  simp only at hkey
  rw [hkey] at hmem
  exact h.eq_of_mem hmem hfound

theorem keys_table (t : Table α) : (table t).keys = (t.rows.map (·.id)).map RecordId.text := by
  simp [keys, entries]

theorem perm_entries_of_add (h : s.add (.text id) a = .ok s') : s'.entries.Perm ((.text id, a) :: s.entries) := by
  cases s with
  | memory m =>
    obtain rfl := add_memory_eq_ok h
    exact List.perm_append_singleton _ _
  | table t =>
    obtain ⟨rfl, -⟩ := add_table_eq_ok h
    exact .refl _
  | closed => cases h

theorem keys_add (h : s.add (.text id) a = .ok s') : s'.keys.Perm (.text id :: s.keys) :=
  (perm_entries_of_add h).map Prod.fst

theorem not_mem_keys_of_add (h : s.add (.text id) a = .ok s') : RecordId.text id ∉ s.keys := by
  intro hmem
  cases s with
  | memory m =>
    have hnone := Option.map_eq_none_iff.mp (get?_of_add h)
    obtain ⟨e, he, hkey⟩ := List.mem_map.mp hmem
    exact List.find?_eq_none.mp hnone e he (decide_eq_true hkey)
  | table t =>
    obtain ⟨-, hnew⟩ := add_table_eq_ok h
    obtain ⟨e, he, hkey⟩ := List.mem_map.mp hmem
    obtain ⟨row, hrow, rfl⟩ := List.mem_map.mp he
    exact Table.find?_eq_none_iff.mp hnew row hrow (RecordId.text.inj hkey)
  | closed => cases h

/-- Nothing but the id can keep an open store from taking in a record. -/
theorem exists_add (hanswers : s.Answers id) (hnew : RecordId.text id ∉ s.keys) (a : α) :
    ∃ s', s.add (.text id) a = .ok s' := by
  cases s with
  | memory m =>
    have hnot : ¬ m.contains (.text id) = true := by
      rw [Memory.contains, List.any_eq_true]
      rintro ⟨e, he, hkey⟩
      exact hnew (List.mem_map.mpr ⟨e, he, of_decide_eq_true hkey⟩)
    refine ⟨memory ⟨m.entries ++ [(.text id, a)]⟩, ?_⟩
    rw [add, Memory.add, if_neg hnot]
    rfl
  | table t =>
    have hnone : t.find? id = none := by
      refine Table.find?_eq_none_iff.mpr fun row hrow hid => hnew ?_
      exact List.mem_map.mpr ⟨_, List.mem_map_of_mem hrow, congrArg RecordId.text hid⟩
    have hstored := Table.stored_of_isEncodable hanswers
    refine ⟨table (t.insert id a), ?_⟩
    simp [add, Table.add, Table.contains, hstored, hnone, bind, Except.bind, pure, Except.pure]
  | closed => exact hanswers.elim

theorem IsKeyed.of_add (h : s.IsKeyed idOf) (hadd : s.add (.text id) a = .ok s') (hid : idOf a = some id) :
    s'.IsKeyed idOf where
  own := by
    intro e he
    rcases (mem_entries_of_add hadd e).mp he with rfl | he
    · exact ⟨id, rfl, hid⟩
    · exact h.own e he
  nodup := (keys_add hadd).nodup_iff.mpr (List.nodup_cons.mpr ⟨not_mem_keys_of_add hadd, h.nodup⟩)

/-- A key that is there is not put in again. -/
theorem keys_upsert (h : s.upsert (.text id) a = .ok s') :
    s'.keys = s.keys ∨ RecordId.text id ∉ s.keys ∧ s'.keys.Perm (.text id :: s.keys) := by
  cases s with
  | memory m =>
    obtain rfl : memory (m.upsert (.text id) a) = s' := Except.ok.inj h
    refine (Memory.map_fst_put (.text id) a m.entries).imp_right fun ⟨hnew, hkeys⟩ => ⟨hnew, ?_⟩
    have hkeys : (memory (m.upsert (.text id) a)).keys = m.entries.map (·.1) ++ [.text id] := hkeys
    rw [hkeys]
    exact List.perm_append_singleton _ _
  | table t =>
    have hnamed : (table t).upsert (.named (some id)) a = .ok s' := h
    obtain ⟨id', hid, rfl⟩ := upsert_table_eq_ok hnamed
    obtain rfl := Option.some.inj hid
    rw [keys_table, keys_table]
    rcases t.map_id_put id a with hids | ⟨hnew, hids⟩
    · exact .inl (by rw [hids])
    · rw [hids]
      exact .inr ⟨by simpa using hnew, .refl _⟩
  | closed => cases h

theorem IsKeyed.of_upsert (h : s.IsKeyed idOf) (hupsert : s.upsert (.text id) a = .ok s') (hid : idOf a = some id) :
    s'.IsKeyed idOf where
  own := by
    have hnamed : s.upsert (.named (some id)) a = .ok s' := hupsert
    intro e he
    rcases mem_entries_of_upsert hnamed he with rfl | he
    · exact ⟨id, rfl, hid⟩
    · exact h.own e he
  nodup := by
    rcases keys_upsert hupsert with hsame | ⟨hnew, hperm⟩
    · rw [hsame]
      exact h.nodup
    · exact hperm.nodup_iff.mpr (List.nodup_cons.mpr ⟨hnew, h.nodup⟩)

theorem IsKeyed.of_editFetched (h : s.IsKeyed idOf) {name : Option Text} {f : α → α}
    (hedit : s.editFetched (.named name) f = .ok s') (hf : ∀ b, idOf (f b) = idOf b) : s'.IsKeyed idOf := by
  obtain ⟨b, hget, rfl | hupsert⟩ := editFetched_eq_ok hedit
  · exact h
  · obtain ⟨id, rfl, hid⟩ := h.of_get hget
    exact h.of_upsert hupsert ((hf b).trans hid)

end Store

end SupplyPlan
