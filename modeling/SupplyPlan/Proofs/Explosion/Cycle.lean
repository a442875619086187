import SupplyPlan.Proofs.Explosion.Start

namespace SupplyPlan

/-- What planning itself refuses; stores, records and arithmetic fail in other ways. -/
def PlanError.isPlanning : PlanError → Bool
  | planning _ | bomCycle _ | invalidRequest _ | calendarUnavailable _ _ | lookupFailed _ _ => true
  | _ => false

namespace Planner

variable {p : Planner} {facility : Option Text} {records : List BomComponent} {fuel : Nat} {path above walk : List Text}
  {root product last : Text} {required m : Moment} {e : PlanError}

/-- A walk that comes back to one of its own products. -/
def IsCycle (p : Planner) (facility : Option Text) (root : Text) (required : Moment) (walk : List Text) : Prop :=
  p.Walk facility root required walk ∧ ∃ above last, walk = above ++ [last] ∧ last ∈ above

/-- Walks end with their first product, or go on from a component of it. -/
theorem walk_append_iff :
    p.Walk facility product required (above ++ [last]) ↔
      above = [] ∧ last = product ∨
        ∃ component start rest, above = product :: rest ∧ p.ownStart (some product) facility required = .ok start ∧
          p.HasComponent product component required ∧ (rest ≠ [] → p.IsWorkInProcess component) ∧
          p.Walk facility component start (rest ++ [last]) := by
  constructor
  · intro h
    generalize hwalk : above ++ [last] = walk at h
    cases h with
    | here =>
      cases above with
      | nil => exact .inl ⟨rfl, List.singleton_inj.mp hwalk⟩
      | cons first rest => simp at hwalk
    | @down _ component _ start rest hstart hcomponent hinner hrest =>
      cases above with
      | nil => simp at hwalk
      | cons first inner =>
        simp only [List.cons_append, List.cons.injEq] at hwalk
        obtain ⟨rfl, hbelow⟩ := hwalk
        rw [← hbelow] at hrest
        refine .inr ⟨component, start, inner, rfl, hstart, hcomponent, fun hne => hinner ?_, hrest⟩
        rintro rfl
        exact hne ((List.append_eq_singleton_iff.mp hbelow).resolve_right (by simp)).1
  · rintro (⟨rfl, rfl⟩ | ⟨component, start, rest, rfl, hstart, hcomponent, hinner, hrest⟩)
    · exact .here last required
    · obtain ⟨tail, htail⟩ := hrest.exists_tail
      rw [htail] at hrest
      rw [List.cons_append, htail]
      refine .down hstart hcomponent (fun hne => hinner ?_) hrest
      rintro rfl
      exact hne (List.cons.inj htail).2.symm

/-- Induction on the depth: the walks below a product go on from its components, and all of these are exploded. -/
theorem not_mem_of_explodeWithin (h : p.explodeWithin facility fuel path product required = .ok m)
    (hwalk : p.Walk facility product required (above ++ [last]))
    (hexpanded : above ≠ [] → path = [] ∨ p.IsWorkInProcess product) : last ∉ path ++ above := by
  induction fuel generalizing path product required m above with
  | zero => cases h
  | succ fuel ih =>
    obtain ⟨hnew, hcases⟩ := explodeWithin_eq_ok_iff.mp h
    obtain ⟨rfl, rfl⟩ | ⟨component, start, rest, rfl, hstart, hcomponent, hinner, hrest⟩ := walk_append_iff.mp hwalk
    · simpa using hnew
    · obtain ⟨-, hbelow⟩ := hcases.resolve_left fun ⟨hleaf, _⟩ => by
        cases (isExpanded_eq_true_iff.mpr (hexpanded (by simp))).symm.trans hleaf
      obtain ⟨start', components, hstart', hcomponents, hearliest⟩ := explodeBelow_eq_ok_iff.mp hbelow
      obtain rfl := Except.ok.inj (hstart.symm.trans hstart')
      obtain ⟨c, hc, rfl⟩ := (hasComponent_iff hcomponents).mp hcomponent
      obtain ⟨child, hchild⟩ := exists_startOf_of_earliestOf hearliest c hc
      have hnot := ih hchild hrest fun hne => .inr (hinner hne)
      simpa using hnot

/-- Where an explosion can fail: the arithmetic of dates, or a product that is above itself on a walk. -/
inductive Fails (p : Planner) (facility : Option Text) (path : List Text) (product : Text) (required : Moment) :
    PlanError → Prop where
  | arithmetic {e : PlanError} (h : p.CannotCalculate e) : Fails p facility path product required e
  | cycle {above : List Text} {last : Text} (hwalk : p.Walk facility product required (above ++ [last]))
      (hexpanded : above ≠ [] → path = [] ∨ p.IsWorkInProcess product) (hlast : last ∈ path ++ above) :
      Fails p facility path product required (.bomCycle (path ++ above ++ [last]))

/-- What fails below a component fails below the product it goes into: the walk starts one product higher. -/
theorem Fails.up {component : Text} {start : Moment} (hexpanded : path = [] ∨ p.IsWorkInProcess product)
    (hstart : p.ownStart (some product) facility required = .ok start)
    (hcomponent : p.HasComponent product component required)
    (h : p.Fails facility (path ++ [product]) component start e) :
    p.Fails facility path product required e := by
  cases h with
  | arithmetic hcannot => exact .arithmetic hcannot
  | @cycle above last hwalk hinner hlast =>
    have hinner' : above ≠ [] → p.IsWorkInProcess component := fun hne => (hinner hne).resolve_left (by simp)
    have hlonger : p.Walk facility product required (product :: above ++ [last]) :=
      walk_append_iff.mpr (.inr ⟨component, start, above, rfl, hstart, hcomponent, hinner', hwalk⟩)
    simpa using Fails.cycle hlonger (fun _ => hexpanded) (by simpa using hlast)

theorem exists_isExpanded (h : path = [] ∨ ∃ found, p.products.get (.text product) = .ok found) :
    ∃ expanded, p.isExpanded path product = .ok expanded := by
  cases path with
  | nil => exact ⟨true, rfl⟩
  | cons first rest =>
    obtain ⟨found, hfound⟩ := h.resolve_left (by simp)
    exact ⟨found.productType = .workInProcess, by simp [isExpanded, hfound, bind, Except.bind, pure, Except.pure]⟩

/-- Induction on the depth, for which there is always room: what fails below a product fails below one of its
components, and the walk from there starts one product higher. -/
theorem IsSound.fails_of_explodeWithin (h : p.IsSound) (hrecords : p.bom.toList = .ok records)
    (hroom : HasRoom records fuel path product)
    (hanswers : p.facilities.Answers (ProductFacility.keyOf (some product) facility))
    (hregistered : path = [] ∨ ∃ found, p.products.get (.text product) = .ok found)
    (hresult : p.explodeWithin facility fuel path product required = .error e) :
    p.Fails facility path product required e := by
  induction fuel generalizing path product required with
  | zero => exact absurd hroom.fuel_pos (lt_irrefl 0)
  | succ fuel ih =>
    obtain ⟨hmem, rfl⟩ | ⟨hnew, hexpansion | ⟨hexpanded, hbelow⟩⟩ := explodeWithin_eq_error_iff.mp hresult
    · have hwalk : p.Walk facility product required ([] ++ [product]) := .here product required
      simpa using Fails.cycle hwalk (by simp) (by simpa using hmem)
    · obtain ⟨expanded, hexpanded⟩ := exists_isExpanded hregistered
      cases hexpanded.symm.trans hexpansion
    · obtain hstart | ⟨start, hstart, hcomponents | ⟨components, hcomponents, hearliest⟩⟩ :=
        explodeBelow_eq_error_iff.mp hbelow
      · exact .arithmetic (ownStart_eq_error hanswers hstart)
      · exact componentsOf_eq_error h.bom_isOpen hcomponents ▸ .arithmetic .typeMismatch
      · obtain rfl | ⟨c, hc, hchild⟩ := earliestOf_eq_error hearliest
        · exact .arithmetic .typeMismatch
        · obtain ⟨⟨key, hmem⟩, -, -⟩ := (mem_componentsOf_iff hcomponents).mp hc
          obtain ⟨found, hfound⟩ := h.registered (key, c) hmem
          have hrecord := mem_records_of_componentsOf hrecords hcomponents hc
          have hkey := hanswers.keyOf h.facilities_kind (Store.answers_of_get hfound)
          have hbelow := ih (hroom.down hnew hrecord) hkey (.inr ⟨found, hfound⟩) hchild
          have hcomponent := (hasComponent_iff hcomponents).mpr ⟨c, hc, rfl⟩
          exact hbelow.up (isExpanded_eq_true_iff.mp hexpanded) hstart hcomponent

theorem ownStart_of_not_answers (hopen : p.facilities.kind ≠ .closed)
    (h : ¬ p.facilities.Answers (ProductFacility.keyOf (some product) facility)) :
    p.ownStart (some product) facility required = .error .unencodable := by
  have hget := Store.get_of_not_answers hopen h
  simp [ownStart, shippingTime, shippingDays, facility?, hget, bind, Except.bind]

theorem explodeWithin_of_ownStart_eq_error (h : p.ownStart (some root) facility required = .error e) :
    p.explodeWithin facility (fuel + 1) [] root required = .error e :=
  explodeWithin_eq_error_iff.mpr (.inr ⟨by simp, .inr ⟨rfl, explodeBelow_eq_error_iff.mpr (.inl h)⟩⟩)

/-- A walk that comes back goes on from its first product. -/
theorem IsCycle.exists_ownStart (h : p.IsCycle facility root required walk) :
    ∃ start, p.ownStart (some root) facility required = .ok start := by
  obtain ⟨hwalk, above, last, rfl, hlast⟩ := h
  obtain ⟨rfl, -⟩ | ⟨component, start, rest, -, hstart, -⟩ := walk_append_iff.mp hwalk
  · cases hlast
  · exact ⟨start, hstart⟩

theorem IsSound.explosionStart_eq_error (h : p.IsSound)
    (hresult : p.explosionStart (some root) facility (some required) = .error e) :
    (∃ walk, p.IsCycle facility root required walk ∧ e = .bomCycle walk) ∨ p.CannotCalculate e ∨
      e = .unencodable ∧ ¬ p.facilities.Answers (ProductFacility.keyOf (some root) facility) := by
  obtain ⟨records, hrecords⟩ := Store.exists_toList h.bom_isOpen
  rw [Planner.explosionStart_eq hrecords] at hresult
  by_cases hanswers : p.facilities.Answers (ProductFacility.keyOf (some root) facility)
  · cases h.fails_of_explodeWithin hrecords (hasRoom_root le_rfl root) hanswers (.inl rfl) hresult with
    | arithmetic hcannot => exact .inr (.inl hcannot)
    | @cycle above last hwalk hexpanded hlast =>
      have hcycle : p.IsCycle facility root required (above ++ [last]) :=
        ⟨hwalk, above, last, rfl, by simpa using hlast⟩
      exact .inl ⟨above ++ [last], hcycle, rfl⟩
  · have hstart : p.ownStart (some root) facility required = .error .unencodable :=
      ownStart_of_not_answers h.facilities_isOpen hanswers
    have hunencodable := Except.error.inj (hresult.symm.trans (explodeWithin_of_ownStart_eq_error hstart))
    exact .inr (.inr ⟨hunencodable, hanswers⟩)

/-- A walk that comes back is always found, unless the arithmetic of dates fails before. -/
theorem IsSound.explosionStart_of_isCycle (h : p.IsSound) (hcycle : p.IsCycle facility root required walk) :
    ∃ e, p.explosionStart (some root) facility (some required) = .error e ∧
      (p.CannotCalculate e ∨ ∃ found, e = .bomCycle found) := by
  cases hresult : p.explosionStart (some root) facility (some required) with
  | ok m =>
    obtain ⟨records, hrecords⟩ := Store.exists_toList h.bom_isOpen
    rw [explosionStart_eq hrecords] at hresult
    obtain ⟨hwalk, above, last, rfl, hlast⟩ := hcycle
    exact absurd hlast (not_mem_of_explodeWithin hresult hwalk fun _ => .inl rfl)
  | error e =>
    obtain ⟨found, -, rfl⟩ | hcannot | ⟨rfl, hanswers⟩ := h.explosionStart_eq_error hresult
    · exact ⟨_, rfl, .inr ⟨found, rfl⟩⟩
    · exact ⟨e, rfl, .inl hcannot⟩
    · obtain ⟨start, hstart⟩ := hcycle.exists_ownStart
      cases (ownStart_of_not_answers h.facilities_isOpen hanswers).symm.trans hstart

end Planner

/-- An explosion ends, however much more room it is given. Unless dates cannot be calculated with, planning refuses it
if and only if there is a walk that comes back to one of its own products, and tells such a walk; no record is ever
missing. -/
theorem Session.Reached.explosionStart_detectsCycles {s : Session} (hs : s.Reached) (root : Text)
    (facility : Option Text) (required : Moment) :
    (∃ bound, ∀ fuel, bound ≤ fuel → s.planner.explodeWithin facility fuel [] root required =
        s.planner.explosionStart (some root) facility (some required)) ∧
      (∀ e, s.planner.explosionStart (some root) facility (some required) = .error e →
        (∃ walk, s.planner.IsCycle facility root required walk ∧ e = .bomCycle walk) ∨ s.planner.CannotCalculate e ∨
          e = .unencodable ∧ ¬ s.planner.facilities.Answers (ProductFacility.keyOf (some root) facility)) ∧
      (∀ record, s.planner.explosionStart (some root) facility (some required) ≠ .error (.recordNotFound record)) ∧
      ((∀ e, s.planner.explosionStart (some root) facility (some required) = .error e →
          ¬ s.planner.CannotCalculate e) →
        ((∃ e, s.planner.explosionStart (some root) facility (some required) = .error e ∧ e.isPlanning) ↔
          ∃ walk, s.planner.IsCycle facility root required walk)) := by
  have hsound := hs.isSound
  obtain ⟨records, hrecords⟩ := Store.exists_toList hsound.bom_isOpen
  refine ⟨⟨records.length + 2, ?_⟩, fun e => hsound.explosionStart_eq_error, ?_, fun hcalculates => ⟨?_, ?_⟩⟩
  · intro fuel hfuel
    rw [Planner.explosionStart_eq hrecords]
    have hroom := Planner.hasRoom_root hfuel root
    exact congrFun (Planner.explodeWithin_eq_of_hasRoom hrecords hroom (Planner.hasRoom_root le_rfl root)) required
  · intro record hmissing
    obtain ⟨walk, -, hcycle⟩ | hcannot | ⟨hunencodable, -⟩ := hsound.explosionStart_eq_error hmissing
    · cases hcycle
    · cases hcannot
    · cases hunencodable
  · rintro ⟨e, hresult, hplanning⟩
    obtain ⟨walk, hcycle, -⟩ | hcannot | ⟨rfl, -⟩ := hsound.explosionStart_eq_error hresult
    · exact ⟨walk, hcycle⟩
    · exact absurd hcannot (hcalculates e hresult)
    · cases hplanning
  · rintro ⟨walk, hcycle⟩
    obtain ⟨e, hresult, hcannot | ⟨found, rfl⟩⟩ := hsound.explosionStart_of_isCycle hcycle
    · exact absurd hcannot (hcalculates e hresult)
    · exact ⟨_, hresult, rfl⟩

def PlanError.cycle? : PlanError → Option (List Text)
  | bomCycle path => some path
  | _ => none

instance (result : Except PlanError Moment) (path : List Text) : Decidable (result = .error (.bomCycle path)) :=
  match result with
  | .error e => decidable_of_iff (e.cycle? = some path) (by cases e <;> simp [PlanError.cycle?])
  | .ok _ => .isFalse nofun

/-- The board that goes into the table twice is no cycle, but tops that go into their own board are one. -/
theorem Session.table_explosionStart_detectsCycles :
    (∀ walk, ¬ table.planner.IsCycle (some standardFacility) "TABLE" (.proper (.atNoon ⟨738600, by decide⟩)) walk) ∧
      (table.after (.build "BOARD" "TOP")).planner.IsCycle (some standardFacility) "TABLE"
        (.proper (.atNoon ⟨738600, by decide⟩)) ["TABLE", "TOP", "BOARD", "TOP"] := by
  constructor
  · intro walk hcycle
    have hresult : table.planner.explosionStart (some "TABLE") (some standardFacility)
        (some (.proper (.atNoon ⟨738600, by decide⟩))) = .ok (.proper (.atNoon ⟨738593, by decide⟩)) := by
      decide +kernel
    have hdetects := (table_reached.explosionStart_detectsCycles "TABLE" (some standardFacility)
      (.proper (.atNoon ⟨738600, by decide⟩))).2.2.2
    obtain ⟨e, herror, -⟩ := (hdetects fun e herror => by cases hresult.symm.trans herror).mpr ⟨walk, hcycle⟩
    cases hresult.symm.trans herror
  · have hresult : (table.after (.build "BOARD" "TOP")).planner.explosionStart (some "TABLE") (some standardFacility)
        (some (.proper (.atNoon ⟨738600, by decide⟩))) = .error (.bomCycle ["TABLE", "TOP", "BOARD", "TOP"]) := by
      decide +kernel
    have hdetects := ((table_reached.after (.build "BOARD" "TOP")).explosionStart_detectsCycles "TABLE"
      (some standardFacility) (.proper (.atNoon ⟨738600, by decide⟩))).2.1
    obtain ⟨walk, hcycle, hwalk⟩ | hcannot | ⟨hunencodable, -⟩ := hdetects _ hresult
    · exact PlanError.bomCycle.inj hwalk ▸ hcycle
    · cases hcannot
    · cases hunencodable

end SupplyPlan
