import SupplyPlan.Planning.Planner
import SupplyPlan.Proofs.Store.Entries

namespace SupplyPlan

/-- A comparison fails for values that cannot be compared, and for no other reason. -/
theorem Moment.lt_eq_error {m n : Moment} {e : PlanError} (h : m.lt n = .error e) : e = .typeMismatch := by
  unfold Moment.lt at h
  split at h
  · unfold Instant.lt at h
    split at h <;> cases h
    rfl
  · cases h
  · split at h <;> cases h
    rfl
  · cases h
    rfl

theorem Moment.le_eq_error {m n : Moment} {e : PlanError} (h : m.le n = .error e) : e = .typeMismatch := by
  unfold Moment.le at h
  split at h
  · next t u =>
    cases hlt : u.lt t with
    | ok less => simp [hlt] at h
    | error e' =>
      have hmoment : Moment.lt (.proper u) (.proper t) = .error e' := hlt
      simp only [hlt, Except.map_error, Except.error.injEq] at h
      exact h ▸ Moment.lt_eq_error hmoment
  · cases h
  · split at h <;> cases h
    rfl
  · cases h
    rfl

theorem map_eq_error_iff {α β : Type} {x : Except PlanError α} {f : α → β} {e : PlanError} :
    f <$> x = .error e ↔ x = .error e := by
  cases x <;> simp

theorem Validity.isActive_eq_error {v : Validity} {moment : Option Moment} {e : PlanError}
    (h : v.isActive moment = .error e) : e = .typeMismatch := by
  have hbound (bound : Moment) (h : not <$> bound.le (moment.getD (.other .null)) = .error e) : e = .typeMismatch :=
    Moment.le_eq_error (map_eq_error_iff.mp h)
  obtain ⟨fromDate, thruDate⟩ := v
  cases fromDate with
  | none =>
    cases thruDate with
    | none => cases h
    | some bound => exact hbound bound h
  | some first =>
    obtain hstarted | ⟨started, -, h⟩ := bind_eq_error_iff.mp h
    · exact Moment.lt_eq_error (map_eq_error_iff.mp hstarted)
    · cases started with
      | false => cases h
      | true =>
        cases thruDate with
        | none => cases h
        | some bound => exact hbound bound h

namespace Planner

variable {p : Planner} {α : Type} {validity : α → Validity} {moment : Option Moment} {records found : List α} {a : α}

theorem mem_of_firstActive (h : firstActive validity moment records = .ok (some a)) : a ∈ records := by
  induction records with
  | nil => cases h
  | cons first rest ih =>
    obtain ⟨active, -, h⟩ := bind_eq_ok_iff.mp h
    cases active with
    | true => exact Option.some.inj (Except.ok.inj h) ▸ List.mem_cons_self
    | false => exact List.mem_cons_of_mem first (ih h)

theorem mem_activeOnes_iff (h : activeOnes validity moment records = .ok found) :
    a ∈ found ↔ a ∈ records ∧ (validity a).isActive moment = .ok true := by
  induction records generalizing found with
  | nil =>
    obtain rfl := Except.ok.inj h
    simp
  | cons first rest ih =>
    obtain ⟨active, hactive, h⟩ := bind_eq_ok_iff.mp h
    cases active with
    | true =>
      obtain ⟨more, hmore, h⟩ := bind_eq_ok_iff.mp h
      obtain rfl := Except.ok.inj h
      rw [List.mem_cons, ih hmore, List.mem_cons]
      constructor
      · rintro (rfl | ⟨hrest, hvalid⟩)
        · exact ⟨.inl rfl, hactive⟩
        · exact ⟨.inr hrest, hvalid⟩
      · rintro ⟨rfl | hrest, hvalid⟩
        · exact .inl rfl
        · exact .inr ⟨hrest, hvalid⟩
    | false =>
      rw [ih h, List.mem_cons]
      constructor
      · rintro ⟨hrest, hvalid⟩
        exact ⟨.inr hrest, hvalid⟩
      · rintro ⟨rfl | hrest, hvalid⟩
        · rw [hactive] at hvalid
          cases hvalid
        · exact ⟨hrest, hvalid⟩

/-- Valid records are told if and only if the validity of every record is. -/
theorem exists_activeOnes_iff :
    (∃ found, activeOnes validity moment records = .ok found) ↔
      ∀ a ∈ records, ∃ active, (validity a).isActive moment = .ok active := by
  induction records with
  | nil => simp [activeOnes]
  | cons first rest ih =>
    rw [List.forall_mem_cons, ← ih]
    constructor
    · rintro ⟨found, h⟩
      obtain ⟨active, hactive, h⟩ := bind_eq_ok_iff.mp h
      cases active with
      | true =>
        obtain ⟨more, hmore, -⟩ := bind_eq_ok_iff.mp h
        exact ⟨⟨true, hactive⟩, more, hmore⟩
      | false => exact ⟨⟨false, hactive⟩, found, h⟩
    · rintro ⟨⟨active, hactive⟩, found, hfound⟩
      refine ⟨if active then first :: found else found, ?_⟩
      rw [activeOnes, hactive]
      cases active with
      | true => exact congrArg (· >>= fun more => pure (first :: more)) hfound
      | false => exact hfound

theorem activeOnes_eq_error {e : PlanError} (h : activeOnes validity moment records = .error e) :
    e = .typeMismatch := by
  induction records with
  | nil => cases h
  | cons first rest ih =>
    rcases bind_eq_error_iff.mp h with hactive | ⟨active, -, h⟩
    · exact Validity.isActive_eq_error hactive
    · cases active with
      | true =>
        rcases bind_eq_error_iff.mp h with hmore | ⟨more, -, h⟩
        · exact ih hmore
        · cases h
      | false => exact ih h

variable {product : Text} {due : Moment} {components : List BomComponent} {c : BomComponent}

theorem mem_componentsOf_iff (h : p.componentsOf (some product) (some due) = .ok components) :
    c ∈ components ↔
      (∃ key, (key, c) ∈ p.bom.entries) ∧ c.product = product ∧ c.validity.isActive (some due) = .ok true := by
  obtain ⟨found, hfind, hactive⟩ := bind_eq_ok_iff.mp h
  obtain ⟨records, hrecords, rfl⟩ := map_eq_ok_iff.mp hfind
  rw [mem_activeOnes_iff hactive, List.mem_filter, Store.mem_toList_iff hrecords]
  simp [and_assoc, eq_comm]

theorem exists_componentsOf_iff :
    (∃ components, p.componentsOf (some product) (some due) = .ok components) ↔
      p.bom.kind ≠ .closed ∧ ∀ key c, (key, c) ∈ p.bom.entries → c.product = product →
        ∃ active, c.validity.isActive (some due) = .ok active := by
  constructor
  · rintro ⟨components, h⟩
    obtain ⟨found, hfind, hactive⟩ := bind_eq_ok_iff.mp h
    obtain ⟨records, hrecords, rfl⟩ := map_eq_ok_iff.mp hfind
    have hopen : p.bom.kind ≠ .closed := by
      intro hclosed
      cases hbom : p.bom <;> simp_all [Store.kind, Store.toList]
    refine ⟨hopen, fun key c hc hproduct => exists_activeOnes_iff.mp ⟨components, hactive⟩ c ?_⟩
    exact List.mem_filter.mpr ⟨(Store.mem_toList_iff hrecords).mpr ⟨key, hc⟩, by simp [hproduct]⟩
  · rintro ⟨hopen, hactive⟩
    obtain ⟨records, hrecords⟩ := Store.exists_toList hopen
    have hfiltered : ∀ c ∈ records.filter (fun c => some product = some c.product),
        ∃ active, c.validity.isActive (some due) = .ok active := by
      intro c hc
      obtain ⟨hmem, hproduct⟩ := List.mem_filter.mp hc
      obtain ⟨key, hentry⟩ := (Store.mem_toList_iff hrecords).mp hmem
      exact hactive key c hentry (Option.some.inj (of_decide_eq_true hproduct)).symm
    obtain ⟨found, hfound⟩ := exists_activeOnes_iff.mpr hfiltered
    refine ⟨found, ?_⟩
    rw [componentsOf, Store.find, hrecords]
    exact hfound

/-- Open bills of material fail for dates that cannot be compared, and for no other reason. -/
theorem componentsOf_eq_error (hopen : p.bom.kind ≠ .closed) {e : PlanError}
    (h : p.componentsOf (some product) (some due) = .error e) : e = .typeMismatch := by
  obtain ⟨records, hrecords⟩ := Store.exists_toList hopen
  rcases bind_eq_error_iff.mp h with hfind | ⟨found, -, hactive⟩
  · rw [Store.find, hrecords] at hfind
    cases hfind
  · exact activeOnes_eq_error hactive

end Planner

end SupplyPlan
