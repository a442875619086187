import SupplyPlan.Store.Command
import SupplyPlan.Proofs.Store.Keys

namespace SupplyPlan

namespace Table

variable {α : Type} {t : Table α} {id : Text}

/-- The rows that are left when an id is removed. -/
def without (t : Table α) (id : Text) : Table α := { t with rows := t.rows.filter (·.id ≠ id) }

theorem IsOrderly.without (h : t.IsOrderly) (id : Text) : (t.without id).IsOrderly where
  descending := h.descending.filter _
  below_next := fun row hrow => h.below_next row (List.mem_of_mem_filter hrow)
  distinct := h.distinct.sublist (List.filter_sublist.map _)

theorem loaded_without (t : Table α) (id : Text) :
    (t.without id).loaded = ⟨t.loaded.entries.filter (·.1 ≠ .text id)⟩ := by
  simp [loaded, without, Row.entry, List.filter_map, List.filter_reverse, Function.comp_def]

theorem remove_eq (hid : id.isEncodable) : t.remove (.text id) =
    if (t.find? id).isSome then .ok (t.without id) else .error (.recordNotFound (.keyed (.text id))) := by
  simp only [remove, stored_of_isEncodable hid, bind, Except.bind, Option.bind_some]
  cases hfind : t.find? id with
  | none => rfl
  | some row =>
    obtain ⟨_, rfl⟩ := mem_of_find? hfind
    rfl

end Table

namespace Store

variable {α : Type} {s s' : Store α} {id : Text} {a : α}

theorem IsOrderly.of_remove (h : s.IsOrderly) (hremove : s.remove (.text id) = .ok s') : s'.IsOrderly := by
  cases s with
  | memory m =>
    obtain ⟨m', _, rfl⟩ := map_eq_ok_iff.mp hremove
    trivial
  | table t =>
    obtain ⟨t', hrows, rfl⟩ := map_eq_ok_iff.mp hremove
    obtain ⟨name, hstored, _⟩ := bind_eq_ok_iff.mp hrows
    rw [Table.remove_eq (Table.stored_text_eq_ok hstored).2] at hrows
    split at hrows
    · obtain rfl := Except.ok.inj hrows
      exact Table.IsOrderly.without h id
    · cases hrows
  | closed => cases hremove

theorem IsOrderly.loaded_remove (h : s.IsOrderly) (hid : id.isEncodable) :
    s.loaded.remove (.text id) = loaded <$> s.remove (.text id) := by
  cases s with
  | table t =>
    have hloaded := Table.IsOrderly.loaded_get? h id
    simp only [loaded, remove, Table.remove_eq hid, Memory.remove, Memory.contains_eq_isSome, hloaded,
      Option.isSome_map, RecordId.key_text]
    split
    · exact congrArg (fun m => Except.ok (memory m)) (t.loaded_without id).symm
    · rfl
  | memory m =>
    simp only [loaded, remove]
    cases m.remove (.text id) <;> rfl
  | closed => rfl

theorem IsOrderly.loaded_run (h : s.IsOrderly) {c : Command α} (hids : ∀ id ∈ c.ids, id.isEncodable) :
    s.loaded.run c = (fun (reply, s') => (reply, s'.loaded)) <$> s.run c := by
  cases c with
  | add id a =>
    have hid := hids id (List.mem_singleton_self id)
    simp only [run, h.loaded_add hid]
    cases s.add (.text id) a <;> rfl
  | upsert id a =>
    have hid := hids id (List.mem_singleton_self id)
    simp only [run, h.loaded_upsert hid]
    cases s.upsert (.text id) a <;> rfl
  | get id =>
    have hid : Text.isStorable (some id) := hids id (List.mem_singleton_self id)
    have hget : s.loaded.get (.text id) = s.get (.text id) := h.loaded_get hid
    simp only [run, hget]
    cases s.get (.text id) <;> rfl
  | remove id =>
    have hid := hids id (List.mem_singleton_self id)
    simp only [run, h.loaded_remove hid]
    cases s.remove (.text id) <;> rfl
  | contains id =>
    have hid := hids id (List.mem_singleton_self id)
    simp only [run, h.loaded_contains hid]
    cases s.contains (.text id) <;> rfl
  | length =>
    simp only [run, length, h.loaded_toList]
    cases s.toList <;> rfl
  | list | iterate =>
    simp only [run, h.loaded_toList]
    cases s.toList <;> rfl
  | find p =>
    simp only [run, findWith, h.loaded_toList]
    cases s.toList >>= (·.filterM p) <;> rfl

theorem IsOrderly.of_run (h : s.IsOrderly) {c : Command α} {reply : Reply α} (hrun : s.run c = .ok (reply, s')) :
    s'.IsOrderly := by
  cases c with
  | add id a =>
    obtain ⟨_, hadd, hdone⟩ := bind_eq_ok_iff.mp hrun
    cases hdone
    exact h.of_add hadd
  | upsert id a =>
    obtain ⟨_, hupsert, hdone⟩ := bind_eq_ok_iff.mp hrun
    cases hdone
    have hnamed : s.upsert (.named (some id)) a = .ok s' := hupsert
    exact h.of_upsert hnamed
  | remove id =>
    obtain ⟨_, hremove, hdone⟩ := bind_eq_ok_iff.mp hrun
    cases hdone
    exact h.of_remove hremove
  | get | contains | length | list | iterate | find =>
    obtain ⟨_, _, hdone⟩ := bind_eq_ok_iff.mp hrun
    cases hdone
    exact h

theorem IsOrderly.loaded_contents (h : s.IsOrderly) : s.loaded.contents = s.contents := by
  cases s with
  | table t =>
    have hrows : t.ordered = t.rows.reverse := Table.IsOrderly.ordered_eq h
    simp only [loaded, contents, hrows]
    rfl
  | memory _ | closed => rfl

section Steps

variable {c : Command α} (h : s.IsOrderly) (hids : ∀ id ∈ c.ids, id.isEncodable)

include h

theorem IsOrderly.after : (s.after c).IsOrderly := by
  unfold Store.after
  split
  · next hrun => exact h.of_run hrun
  · exact h

include hids

theorem IsOrderly.loaded_answer : s.loaded.answer c = s.answer c := by
  rw [answer, h.loaded_run hids, answer]
  cases s.run c <;> rfl

theorem IsOrderly.loaded_after : s.loaded.after c = (s.after c).loaded := by
  rw [Store.after, h.loaded_run hids, Store.after]
  cases s.run c <;> rfl

end Steps

end Store

namespace Command

variable {α : Type} {es : List (RecordId × α)}

/-- What a map with these contents answers to a command. -/
def replied (c : Command α) (es : List (RecordId × α)) : Except PlanError (Reply α) :=
  match c with
  | add id _ => if es.any (·.1 = .text id) then .error (.duplicateRecord (.text id)) else .ok .done
  | upsert _ _ => .ok .done
  | get id =>
    match es.find? (·.1 = .text id) with
    | some e => .ok (.record e.2)
    | none => .error (.recordNotFound (.keyed (.text id)))
  | remove id => if es.any (·.1 = .text id) then .ok .done else .error (.recordNotFound (.keyed (.text id)))
  | contains id => .ok (.truth (es.any (·.1 = .text id)))
  | length => .ok (.count es.length)
  | list | iterate => .ok (.records (es.map (·.2)))
  | find p => .records <$> (es.map (·.2)).filterM p

/-- What a command makes of the contents of a map that is ordered by when its ids came in: a new id comes last, and one
that is there keeps its place until it is removed. -/
def revised (c : Command α) (es : List (RecordId × α)) : List (RecordId × α) :=
  match c with
  | add id a => if es.any (·.1 = .text id) then es else es ++ [(.text id, a)]
  | upsert id a =>
    if es.any (·.1 = .text id) then es.map fun e => if e.1 = .text id then (e.1, a) else e
    else es ++ [(.text id, a)]
  | remove id => es.filter (·.1 ≠ .text id)
  | _ => es

/-- The answer of such a map to each command and its contents after it. -/
def history (es : List (RecordId × α)) : List (Command α) → List (Except PlanError (Reply α) × List (RecordId × α))
  | [] => []
  | c :: rest => (c.replied es, c.revised es) :: history (c.revised es) rest

theorem any_iff {id : Text} : es.any (·.1 = .text id) = true ↔ ∃ e ∈ es, e.1 = .text id := by
  simp

/-- A command that fails changes nothing. -/
theorem revised_of_error {c : Command α} {e : PlanError} (h : c.replied es = .error e) : c.revised es = es := by
  cases c with
  | add id a =>
    by_cases hfound : es.any (·.1 = .text id)
    · exact if_pos hfound
    · cases (if_neg hfound).symm.trans h
  | remove id =>
    by_cases hfound : es.any (·.1 = .text id)
    · cases (if_pos hfound).symm.trans h
    · refine List.filter_eq_self.mpr fun e he => decide_eq_true fun hid => hfound ?_
      exact any_iff.mpr ⟨e, he, hid⟩
  | upsert => cases h
  | get | contains | length | list | iterate | find => rfl

theorem nodup_revised (c : Command α) (h : (es.map (·.1)).Nodup) : ((c.revised es).map (·.1)).Nodup := by
  have hlast (id : Text) (a : α) (hnew : ¬ es.any (·.1 = .text id) = true) :
      ((es ++ [(RecordId.text id, a)]).map (·.1)).Nodup := by
    have hnew : RecordId.text id ∉ es.map (·.1) := by simpa using hnew
    rw [List.map_append, List.nodup_append_comm]
    exact List.nodup_cons.mpr ⟨hnew, h⟩
  cases c with
  | add id a =>
    by_cases hfound : es.any (·.1 = .text id)
    · rwa [revised, if_pos hfound]
    · rw [revised, if_neg hfound]
      exact hlast id a hfound
  | upsert id a =>
    by_cases hfound : es.any (·.1 = .text id)
    · have hkept (e : RecordId × α) : (if e.1 = .text id then (e.1, a) else e).1 = e.1 := by
        split <;> rfl
      rw [revised, if_pos hfound, List.map_map]
      simpa only [Function.comp_def, hkept] using h
    · rw [revised, if_neg hfound]
      exact hlast id a hfound
  | remove id => exact h.sublist (List.filter_sublist.map _)
  | get | contains | length | list | iterate | find => exact h

end Command

namespace Store

variable {α : Type} {s : Store α} {c : Command α} {id : Text} {a : α}

theorem after_of_error {e : PlanError} (h : s.answer c = .error e) : s.after c = s := by
  unfold answer at h
  unfold after
  cases hrun : s.run c with
  | ok => simp [hrun, Functor.map, Except.map] at h
  | error => rfl

/-- A memory in which no key comes twice is a map that is ordered by when its ids came in. -/
theorem run_memory {m : Memory α} (h : (m.entries.map (·.1)).Nodup) (c : Command α) :
    (memory m).run c = (fun reply => (reply, memory ⟨c.revised m.entries⟩)) <$> c.replied m.entries := by
  cases c with
  | add id a =>
    by_cases hfound : m.contains (.text id)
    · have hreplied : (Command.add id a).replied m.entries = .error (.duplicateRecord (.text id)) := if_pos hfound
      simp only [run, add, Memory.add, if_pos hfound, hreplied]
      rfl
    · have hreplied : (Command.add id a).replied m.entries = .ok .done := if_neg hfound
      have hrevised : (Command.add id a).revised m.entries = m.entries ++ [(.text id, a)] := if_neg hfound
      simp only [run, add, Memory.add, if_neg hfound, hreplied, hrevised]
      rfl
  | upsert id a =>
    by_cases hfound : m.contains (.text id)
    · have hrevised : (Command.upsert id a).revised m.entries = Memory.put (.text id) a m.entries :=
        (if_pos hfound).trans (Memory.put_of_mem h (Command.any_iff.mp hfound)).symm
      rw [hrevised]
      rfl
    · have hnew : ∀ e ∈ m.entries, e.1 ≠ .text id := fun e he hid => hfound (Command.any_iff.mpr ⟨e, he, hid⟩)
      have hrevised : (Command.upsert id a).revised m.entries = Memory.put (.text id) a m.entries :=
        (if_neg hfound).trans (Memory.put_of_not_mem hnew).symm
      rw [hrevised]
      rfl
  | get id =>
    have hget : m.get? (.text id) = (m.entries.find? (·.1 = .text id)).map (·.2) := rfl
    simp only [run, get, Memory.get, hget, Command.replied]
    cases m.entries.find? (·.1 = .text id) <;> rfl
  | remove id =>
    by_cases hfound : m.contains (.text id)
    · have hreplied : (Command.remove id).replied m.entries = .ok .done := if_pos hfound
      simp only [run, remove, Memory.remove, if_pos hfound, hreplied]
      rfl
    · have hreplied : (Command.remove id).replied m.entries = .error (.recordNotFound (.keyed (.text id))) :=
        if_neg hfound
      simp only [run, remove, Memory.remove, if_neg hfound, hreplied]
      rfl
  | length =>
    have hlength : m.toList.length = m.entries.length := List.length_map _
    simp only [run, length, toList, Functor.map, Except.map, hlength]
    rfl
  | find p =>
    have hfind : (memory m).findWith p = (m.entries.map (·.2)).filterM p := rfl
    simp only [run, hfind, Command.replied]
    cases (m.entries.map (·.2)).filterM p <;> rfl
  | contains | list | iterate => rfl

theorem answer_memory {m : Memory α} (h : (m.entries.map (·.1)).Nodup) (c : Command α) :
    (memory m).answer c = c.replied m.entries := by
  rw [answer, run_memory h]
  cases c.replied m.entries <;> rfl

theorem after_memory {m : Memory α} (h : (m.entries.map (·.1)).Nodup) (c : Command α) :
    (memory m).after c = memory ⟨c.revised m.entries⟩ := by
  rw [after, run_memory h]
  cases hreplied : c.replied m.entries with
  | ok reply => rfl
  | error e =>
    rw [Command.revised_of_error hreplied]
    rfl

/-- A store that is orderly and not closed, in which no id comes twice. -/
structure IsIndexed (s : Store α) : Prop where
  orderly : s.IsOrderly
  distinct : (s.contents.map (·.1)).Nodup
  loads : s.loaded = memory ⟨s.contents⟩

theorem isIndexed_memory_empty : (memory (.empty : Memory α)).IsIndexed where
  orderly := trivial
  distinct := List.nodup_nil
  loads := rfl

theorem isIndexed_table_empty : (table (.empty : Table α)).IsIndexed where
  orderly := Table.isOrderly_empty
  distinct := by simp [contents, Table.ordered, Table.empty]
  loads := by simp [loaded, Table.loaded, contents, Table.ordered, Table.empty]

namespace IsIndexed

section Steps

variable (h : s.IsIndexed) (hids : ∀ id ∈ c.ids, id.isEncodable)

include h hids

theorem answer_eq : s.answer c = c.replied s.contents := by
  rw [← h.orderly.loaded_answer hids, h.loads]
  exact answer_memory h.distinct c

theorem loaded_after : (s.after c).loaded = memory ⟨c.revised s.contents⟩ := by
  rw [← h.orderly.loaded_after hids, h.loads]
  exact after_memory h.distinct c

theorem contents_after : (s.after c).contents = c.revised s.contents := by
  rw [← h.orderly.after.loaded_contents, h.loaded_after hids]
  rfl

theorem after : (s.after c).IsIndexed where
  orderly := h.orderly.after
  distinct := by
    rw [h.contents_after hids]
    exact c.nodup_revised h.distinct
  loads := by rw [h.loaded_after hids, h.contents_after hids]

end Steps

variable {cs : List (Command α)}

/-- Whatever the commands were, the store is still indexed. -/
theorem foldl_after (h : s.IsIndexed) (hids : ∀ c ∈ cs, ∀ id ∈ c.ids, id.isEncodable) :
    (cs.foldl Store.after s).IsIndexed := by
  induction cs generalizing s with
  | nil => exact h
  | cons c rest ih =>
    obtain ⟨hc, hrest⟩ := List.forall_mem_cons.mp hids
    exact ih (h.after hc) hrest

/-- A store does what a map with its contents does, command by command. -/
theorem trace_eq (h : s.IsIndexed) (hids : ∀ c ∈ cs, ∀ id ∈ c.ids, id.isEncodable) :
    s.trace cs = Command.history s.contents cs := by
  induction cs generalizing s with
  | nil => rfl
  | cons c rest ih =>
    obtain ⟨hc, hrest⟩ := List.forall_mem_cons.mp hids
    rw [trace, Command.history, h.answer_eq hc, ih (h.after hc) hrest, h.contents_after hc]

theorem contents_after_of_mem (h : s.IsIndexed) (hid : id.isEncodable) (hfound : ∃ e ∈ s.contents, e.1 = .text id)
    (a : α) : (s.after (.upsert id a)).contents = s.contents.map fun e => if e.1 = .text id then (e.1, a) else e := by
  rw [h.contents_after (by simpa [Command.ids] using hid)]
  exact if_pos (Command.any_iff.mpr hfound)

theorem contents_after_of_not_mem (h : s.IsIndexed) (hid : id.isEncodable) (hnew : ∀ e ∈ s.contents, e.1 ≠ .text id)
    (a : α) (hc : c = .add id a ∨ c = .upsert id a) : (s.after c).contents = s.contents ++ [(.text id, a)] := by
  have hmissing : ¬ s.contents.any (·.1 = .text id) = true := by
    rw [Command.any_iff]
    rintro ⟨e, he, hkey⟩
    exact hnew e he hkey
  rcases hc with rfl | rfl
  · rw [h.contents_after (by simpa [Command.ids] using hid)]
    exact if_neg hmissing
  · rw [h.contents_after (by simpa [Command.ids] using hid)]
    exact if_neg hmissing

end IsIndexed

end Store

/-- Records in memory and as table rows are the same map, ordered by when ids came in. From empty stores any sequence of
commands has the answers and failures of such a map and leaves its contents after each command; the ids have to be ones
that tables can take in. So on both a stored id keeps its place when its record is replaced and loses it when it is
removed, an id that is not there comes last, and a command that fails changes nothing. -/
theorem trace_memory_eq_trace_table {α : Type} {cs : List (Command α)}
    (hids : ∀ c ∈ cs, ∀ id ∈ c.ids, id.isEncodable) :
    (Store.memory .empty).trace cs = (Store.table .empty).trace cs ∧
      (Store.table .empty).trace cs = Command.history [] cs ∧
      ∀ s ∈ [cs.foldl Store.after (.memory .empty), cs.foldl Store.after (.table .empty)],
        (∀ (id : Text) (a : α), id.isEncodable →
          ((∃ e ∈ s.contents, e.1 = .text id) → (s.after (.upsert id a)).contents =
            s.contents.map fun e => if e.1 = .text id then (e.1, a) else e) ∧
          (s.after (.remove id)).contents = s.contents.filter (·.1 ≠ .text id) ∧
          ∀ c, c = .add id a ∨ c = .upsert id a →
            ((∀ e ∈ s.contents, e.1 ≠ .text id) → (s.after c).contents = s.contents ++ [(.text id, a)]) ∧
            ((s.after (.remove id)).after c).contents = s.contents.filter (·.1 ≠ .text id) ++ [(.text id, a)]) ∧
        ∀ c e, s.answer c = .error e → (s.after c).contents = s.contents := by
  have hmemory : (Store.memory .empty).trace cs = Command.history [] cs := Store.isIndexed_memory_empty.trace_eq hids
  have htable : (Store.table .empty).trace cs = Command.history [] cs := by
    rw [Store.isIndexed_table_empty.trace_eq hids]
    simp [Store.contents, Table.ordered, Table.empty]
  refine ⟨hmemory.trans htable.symm, htable, fun s hs => ?_⟩
  have hs : s.IsIndexed := by
    simp only [List.mem_cons, List.not_mem_nil, or_false] at hs
    rcases hs with rfl | rfl
    · exact Store.isIndexed_memory_empty.foldl_after hids
    · exact Store.isIndexed_table_empty.foldl_after hids
  refine ⟨fun id a hid => ?_, fun c e herror => by rw [Store.after_of_error herror]⟩
  have hremove : ∀ other ∈ (Command.remove (α := α) id).ids, other.isEncodable := by simpa [Command.ids] using hid
  have hremoved := hs.contents_after hremove
  have hnew : ∀ e ∈ (s.after (.remove id)).contents, e.1 ≠ .text id := by
    rw [hremoved]
    simp [Command.revised]
  refine ⟨fun hfound => hs.contents_after_of_mem hid hfound a, hremoved, fun c hc => ⟨fun hmissing => ?_, ?_⟩⟩
  · exact hs.contents_after_of_not_mem hid hmissing a hc
  · rw [(hs.after hremove).contents_after_of_not_mem hid hnew a hc, hremoved]
    rfl

/-- Two ids of which one is replaced, removed and added again, and a third one that is never there. -/
def Command.shelf : List (Command Nat) :=
  [add "LEFT" 1, add "RIGHT" 2, upsert "LEFT" 3, list, add "RIGHT" 4, remove "LEFT", get "LEFT", remove "MIDDLE",
    length, upsert "LEFT" 5, contains "LEFT", iterate, find fun n => if n = 5 then .error .typeMismatch else .ok true]

/-- The replaced record stays first, and comes last once its id has been added again. -/
theorem trace_memory_eq_trace_table_shelf :
    (∀ c ∈ Command.shelf, ∀ id ∈ c.ids, id.isEncodable) ∧
      (Store.memory .empty).trace Command.shelf = (Store.table .empty).trace Command.shelf ∧
      ((Store.table .empty).trace Command.shelf)[3]? =
        some (.ok (.records [3, 2]), [(.text "LEFT", 3), (.text "RIGHT", 2)]) ∧
      ((Store.table .empty).trace Command.shelf)[11]? =
        some (.ok (.records [2, 5]), [(.text "RIGHT", 2), (.text "LEFT", 5)]) ∧
      ((Store.table .empty).trace Command.shelf)[12]? =
        some (.error .typeMismatch, [(.text "RIGHT", 2), (.text "LEFT", 5)]) := by
  have hids : ∀ c ∈ Command.shelf, ∀ id ∈ c.ids, id.isEncodable := by decide +kernel
  have hsame := (trace_memory_eq_trace_table hids).1
  refine ⟨hids, hsame, ?_⟩
  rw [← hsame]
  exact ⟨rfl, rfl, rfl⟩

end SupplyPlan
