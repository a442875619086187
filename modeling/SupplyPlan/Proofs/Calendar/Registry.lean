import SupplyPlan.Calendar.Registry
import SupplyPlan.Proofs.Calendar.Subtraction

namespace SupplyPlan

namespace Store

variable {α : Type} {s : Store α} {id : Text}

/-- A store can be asked for a text: memory always, a table for texts that have bytes, and never a closed one. -/
def Answers (s : Store α) (id : Text) : Prop :=
  match s with
  | memory _ => True
  | table _ => id.isEncodable
  | closed => False

/-- Whoever can be asked has the record or says that it does not exist. -/
theorem Answers.get_cases (h : s.Answers id) :
    (∃ a, s.get (.text id) = .ok a) ∨ ∃ record, s.get (.text id) = .error (.recordNotFound record) := by
  cases s with
  | memory m =>
    simp only [get, Memory.get]
    cases m.get? (.text id) with
    | none => exact .inr ⟨_, rfl⟩
    | some a => exact .inl ⟨a, rfl⟩
  | table t =>
    have hencodable : id.isEncodable = true := h
    have hstored : (RecordId.text id).stored = .ok (some id) := if_pos hencodable
    simp only [get, Table.get, hstored]
    cases hfind : t.find? id with
    | none => exact .inr ⟨.keyed (.text id), by simp [bind, Except.bind, hfind]⟩
    | some row => exact .inl ⟨row.record, by simp [bind, Except.bind, hfind]⟩
  | closed => exact h.elim

end Store

theorem Quantity.lt_int (a b : Int) : (int a).lt (.int b) = decide (a < b) := by
  have hscale (n : Int) : n * Int.pow 2 0 = n := Int.mul_one n
  change decide (a * Int.pow 2 0 < b * Int.pow 2 0) = _
  rw [hscale, hscale]

theorem Quantity.larger_int (a b : Int) : (int a).larger (.int b) = .int (max a b) := by
  unfold larger
  rw [lt_int]
  by_cases h : a < b
  · simp [h, max_eq_right h.le]
  · simp [h, max_eq_left (not_lt.mp h)]

/-- The shifts of a calendar are searched the given number of dates back, but at least one. -/
theorem WorkingCalendar.ofShifts_int {calendar : ShiftCalendar} (hasShifts : calendar.shifts ≠ []) (n : Int) :
    ofShifts calendar (.proper (.int n)) =
      .ok (.shifts { calendar, lookback := max n 1, given := .proper (.int (max n 1)), hasShifts
                     lookback_pos := le_max_right n 1 }) := by
  rw [ofShifts, dif_pos hasShifts, Amount.larger_proper, Quantity.larger_int]
  simp [bind, Except.bind, pure, Except.pure]

theorem WorkingCalendar.ofShifts_of_shifts_eq_nil {calendar : ShiftCalendar} (h : calendar.shifts = [])
    (lookback : Amount) :
    ofShifts calendar lookback = .error (.calendarUnavailable calendar.id .noShifts) := by
  rw [ofShifts, dif_neg (not_not.mpr h)]

namespace CalendarRegistry

variable {reg : CalendarRegistry} {ref : Option Text}

/-- A registry that holds calendars with shifts and without breaks only, and a whole number of dates to search them
for. -/
structure IsPlain (reg : CalendarRegistry) : Prop where
  bound_plain : ∀ entry ∈ reg.bound, entry.2.IsPlain
  lookback_int : ∃ n : Int, reg.lookback = .proper (.int n)

/-- References that lead nowhere: none at all, one that is not known, and one to a calendar without shifts. -/
inductive LeadsNowhere (reg : CalendarRegistry) : Option Text → Prop where
  | unassigned : LeadsNowhere reg none
  | unresolved {ref : Text} {record : MissingRecord} (hbound : reg.bound? ref = none)
      (hget : reg.stored.get (.text ref) = .error (.recordNotFound record)) : LeadsNowhere reg (some ref)
  | withoutShifts {ref : Text} {calendar : ShiftCalendar} (hbound : reg.bound? ref = none)
      (hget : reg.stored.get (.text ref) = .ok calendar) (hshifts : calendar.shifts = []) :
      LeadsNowhere reg (some ref)

theorem LeadsNowhere.resolve_eq (h : reg.LeadsNowhere ref) :
    ∃ named fault, reg.resolve ref = .error (.calendarUnavailable named fault) := by
  cases h with
  | unassigned => exact ⟨none, .unassigned, rfl⟩
  | @unresolved ref record hbound hget => exact ⟨some ref, .unresolved, by simp [resolve, hbound, hget]⟩
  | @withoutShifts ref calendar hbound hget hshifts =>
    refine ⟨calendar.id, .noShifts, ?_⟩
    simp only [resolve, hbound, hget]
    exact WorkingCalendar.ofShifts_of_shifts_eq_nil hshifts reg.lookback

theorem IsPlain.of_bound? (h : reg.IsPlain) {ref : Text} {calendar : WorkingCalendar}
    (hbound : reg.bound? ref = some calendar) : calendar.IsPlain := by
  obtain ⟨entry, hfind, rfl⟩ := Option.map_eq_some_iff.mp hbound
  exact h.bound_plain entry (List.mem_of_find?_eq_some hfind)

/-- Every other reference leads to a plain calendar. -/
theorem IsPlain.resolve_cases (h : reg.IsPlain) (hanswers : ∀ name ∈ ref, reg.stored.Answers name) :
    reg.LeadsNowhere ref ∨ ∃ calendar, reg.resolve ref = .ok calendar ∧ calendar.IsPlain := by
  cases ref with
  | none => exact .inl .unassigned
  | some name =>
    cases hbound : reg.bound? name with
    | some calendar => exact .inr ⟨calendar, by simp [resolve, hbound], h.of_bound? hbound⟩
    | none =>
      rcases (hanswers name rfl).get_cases with ⟨calendar, hget⟩ | ⟨record, hget⟩
      · by_cases hshifts : calendar.shifts = []
        · exact .inl (.withoutShifts hbound hget hshifts)
        · obtain ⟨n, hlookback⟩ := h.lookback_int
          have hresolve : reg.resolve (some name) = WorkingCalendar.ofShifts calendar (.proper (.int n)) := by
            simp only [resolve, hbound, hget, hlookback]
          exact .inr ⟨_, hresolve.trans (WorkingCalendar.ofShifts_int hshifts n), trivial⟩
      · exact .inl (.unresolved hbound hget)

/-- A reference that is of no use for work of a given length before a given instant. -/
def IsUnusable (reg : CalendarRegistry) (ref : Option Text) (finish : Instant) (d : Duration) : Prop :=
  reg.LeadsNowhere ref ∨ ∃ calendar, reg.resolve ref = .ok calendar ∧ IsUnavailable (calendar.subtract finish d)

theorem subtract_of_resolve {calendar : WorkingCalendar} (h : reg.resolve ref = .ok calendar) (finish : Instant)
    (d : Duration) : reg.subtract ref finish d = calendar.subtract finish d := by
  rw [subtract, h]
  rfl

theorem LeadsNowhere.isUnavailable (h : reg.LeadsNowhere ref) (finish : Instant) (d : Duration) :
    IsUnavailable (reg.subtract ref finish d) := by
  obtain ⟨named, fault, hresolve⟩ := h.resolve_eq
  refine ⟨named, fault, ?_⟩
  rw [subtract, hresolve]
  rfl

/-- A plain registry fails a step in the four ways there are, and in no other. -/
theorem IsPlain.isUnavailable_subtract_iff (h : reg.IsPlain) (hanswers : ∀ name ∈ ref, reg.stored.Answers name)
    (finish : Instant) (d : Duration) :
    IsUnavailable (reg.subtract ref finish d) ↔ reg.IsUnusable ref finish d := by
  constructor
  · intro hunavailable
    rcases h.resolve_cases hanswers with hnowhere | ⟨calendar, hresolve, _⟩
    · exact .inl hnowhere
    · rw [subtract_of_resolve hresolve] at hunavailable
      exact .inr ⟨calendar, hresolve, hunavailable⟩
  · rintro (hnowhere | ⟨calendar, hresolve, hunavailable⟩)
    · exact hnowhere.isUnavailable finish d
    · rwa [subtract_of_resolve hresolve]

theorem IsPlain.subtract_isRegular (h : reg.IsPlain) (hanswers : ∀ name ∈ ref, reg.stored.Answers name)
    (finish : Instant) {d : Duration} (hd : 0 ≤ d.micros) : IsRegular finish (reg.subtract ref finish d) := by
  rcases h.resolve_cases hanswers with hnowhere | ⟨calendar, hresolve, hplain⟩
  · exact .inl (hnowhere.isUnavailable finish d)
  · rw [subtract_of_resolve hresolve]
    exact hplain.subtract_isRegular finish hd

end CalendarRegistry

end SupplyPlan
