import SupplyPlan.Proofs.Planning.MissingData

namespace SupplyPlan

namespace Planner

variable {p : Planner} {due : Moment} {product : Product} {name : Option Text} {r : Routing}

/-- No routing of the product is valid at the date. -/
def LacksRouting (p : Planner) (name : Option Text) (due : Moment) : Prop :=
  ∃ routings, p.routings.toList = .ok routings ∧
    ∀ r ∈ routings, name = some r.product → r.validity.isActive (some due) = .ok false

theorem firstActive_eq_none_iff {α : Type} {validity : α → Validity} {moment : Option Moment} {records : List α} :
    firstActive validity moment records = .ok none ↔ ∀ a ∈ records, (validity a).isActive moment = .ok false := by
  induction records with
  | nil => simp [firstActive]
  | cons first rest ih =>
    rw [firstActive, List.forall_mem_cons, ← ih]
    cases (validity first).isActive moment with
    | error e => simp [bind, Except.bind]
    | ok active => cases active <;> simp [bind, Except.bind, pure, Except.pure]

theorem findRouting_eq_none_iff : p.findRouting name (some due) = .ok none ↔ p.LacksRouting name due := by
  rw [findRouting, Store.find, bind_eq_ok_iff]
  constructor
  · rintro ⟨found, hfound, hnone⟩
    obtain ⟨routings, hroutings, rfl⟩ := map_eq_ok_iff.mp hfound
    refine ⟨routings, hroutings, fun r hr hname => ?_⟩
    exact firstActive_eq_none_iff.mp hnone r (List.mem_filter.mpr ⟨hr, decide_eq_true hname⟩)
  · rintro ⟨routings, hroutings, hinactive⟩
    refine ⟨_, map_eq_ok_iff.mpr ⟨routings, hroutings, rfl⟩, firstActive_eq_none_iff.mpr fun r hr => ?_⟩
    obtain ⟨hr, hname⟩ := List.mem_filter.mp hr
    exact hinactive r hr (of_decide_eq_true hname)

/-- Neither the product nor the one that it stands in for has a routing at the date. -/
def LacksAllRoutings (p : Planner) (product : Product) (due : Moment) : Prop :=
  p.LacksRouting product.id due ∧
    ∀ other ∈ Text.nonEmpty product.virtualProduct, p.LacksRouting (some other) due

/-- The routing by which an order is made: the given one, or the first valid one of the product, or else of the product
that it stands in for. -/
inductive Selects (p : Planner) (product : Product) (due : Moment) : Option Routing → Routing → Prop where
  | given (r : Routing) : Selects p product due (some r) r
  | own {r : Routing} (h : p.findRouting product.id (some due) = .ok (some r)) : Selects p product due none r
  | virtual {other : Text} {r : Routing} (hown : p.LacksRouting product.id due)
      (hother : Text.nonEmpty product.virtualProduct = some other)
      (h : p.findRouting (some other) (some due) = .ok (some r)) : Selects p product due none r

/-- What the search for a routing comes to, without its events. -/
theorem result_resolveRouting (p : Planner) (product : Product) (due : Moment) :
    (p.resolveRouting product (some due)).result = (do
      match ← p.findRouting product.id (some due) with
      | some r => return r
      | none =>
        match Text.nonEmpty product.virtualProduct with
        | none => .error (.lookupFailed product.id .noRouting)
        | some other =>
          match ← p.findRouting (some other) (some due) with
          | none => .error (.lookupFailed product.id .noRouting)
          | some r => return r) := by
  simp only [resolveRouting, Logged.result_bind, Logged.result_lift]
  refine bind_congr fun found => ?_
  cases found with
  | some r => rfl
  | none =>
    cases Text.nonEmpty product.virtualProduct with
    | none => rfl
    | some other =>
      simp only [Logged.result_bind, Logged.result_lift]
      refine bind_congr fun found => ?_
      cases found <;> rfl

theorem findRouting_missesNothing (p : Planner) (name : Option Text) (due : Moment) :
    MissesNothing (p.findRouting name (some due)) := by
  have hfirst (records : List Routing) : MissesNothing (firstActive (·.validity) (some due) records) := by
    induction records with
    | nil => exact .ok _
    | cons first rest ih =>
      refine .bind (fun e h => ?_) fun active => ?_
      · obtain rfl := Validity.isActive_eq_error h
        exact id
      · cases active
        · exact ih
        · exact .ok _
  refine .bind (.map ?_ _) hfirst
  cases p.routings
  · exact .ok _
  · exact .ok _
  · exact .error id

theorem result_resolveRouting_eq_ok_iff :
    (p.resolveRouting product (some due)).result = .ok r ↔ p.Selects product due none r := by
  rw [result_resolveRouting, bind_eq_ok_iff]
  constructor
  · rintro ⟨found, hown, h⟩
    cases found with
    | some own =>
      obtain rfl := Except.ok.inj h
      exact .own hown
    | none =>
      cases hother : Text.nonEmpty product.virtualProduct with
      | none =>
        rw [hother] at h
        cases h
      | some other =>
        rw [hother] at h
        obtain ⟨found, hfound, h⟩ := bind_eq_ok_iff.mp h
        cases found with
        | none => cases h
        | some r' =>
          obtain rfl := Except.ok.inj h
          exact .virtual (findRouting_eq_none_iff.mp hown) hother hfound
  · rintro (_ | hown | ⟨hown, hother, hfound⟩)
    · exact ⟨_, hown, rfl⟩
    · refine ⟨none, findRouting_eq_none_iff.mpr hown, ?_⟩
      simp only [hother, hfound]
      rfl

theorem result_resolveRouting_eq_lookup_iff {subject : Option Text} {fault : LookupFault} :
    (p.resolveRouting product (some due)).result = .error (.lookupFailed subject fault) ↔
      p.LacksAllRoutings product due ∧ subject = product.id ∧ fault = .noRouting := by
  have hmisses (name : Option Text) : p.findRouting name (some due) ≠ .error (.lookupFailed subject fault) :=
    (p.findRouting_missesNothing name due).ne_lookup _ _
  rw [result_resolveRouting, bind_eq_error_iff, or_iff_right (hmisses _)]
  constructor
  · rintro ⟨found, hown, h⟩
    cases found with
    | some own => cases h
    | none =>
      have hlacks := findRouting_eq_none_iff.mp hown
      cases hother : Text.nonEmpty product.virtualProduct with
      | none =>
        rw [hother] at h
        cases h
        exact ⟨⟨hlacks, by simp [hother]⟩, rfl, rfl⟩
      | some other =>
        rw [hother] at h
        obtain h | ⟨found, hfound, h⟩ := bind_eq_error_iff.mp h
        · exact absurd h (hmisses _)
        cases found with
        | some r => cases h
        | none =>
          cases h
          refine ⟨⟨hlacks, fun name hname => ?_⟩, rfl, rfl⟩
          obtain rfl := Option.some.inj (hother.symm.trans hname)
          exact findRouting_eq_none_iff.mp hfound
  · rintro ⟨⟨hown, hvirtual⟩, rfl, rfl⟩
    refine ⟨none, findRouting_eq_none_iff.mpr hown, ?_⟩
    cases hother : Text.nonEmpty product.virtualProduct with
    | none => rfl
    | some other =>
      have hfound := findRouting_eq_none_iff.mpr (hvirtual other hother)
      simp only [hfound]
      rfl

theorem Selects.unique {given : Option Routing} {r' : Routing} (h : p.Selects product due given r)
    (h' : p.Selects product due given r') : r = r' := by
  cases given with
  | some _ =>
    cases h
    cases h'
    rfl
  | none =>
    have hr := result_resolveRouting_eq_ok_iff.mpr h
    exact Except.ok.inj (hr.symm.trans (result_resolveRouting_eq_ok_iff.mpr h'))

theorem LacksAllRoutings.not_selects (h : p.LacksAllRoutings product due) : ¬ p.Selects product due none r := by
  intro hr
  have hlacks := result_resolveRouting_eq_lookup_iff.mpr ⟨h, rfl, rfl⟩
  cases hlacks.symm.trans (result_resolveRouting_eq_ok_iff.mpr hr)

end Planner

end SupplyPlan
