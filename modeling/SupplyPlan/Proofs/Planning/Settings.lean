import SupplyPlan.Proofs.Store.Lookup
import SupplyPlan.Proofs.Planning.Frame
import SupplyPlan.Proofs.Explosion.Walk
import SupplyPlan.Proofs.Planning.Reached

namespace SupplyPlan

open Planning

/-- Two lists are cut at the same place by an item that comes later in neither. -/
theorem append_cons_inj_left {α : Type} {a : α} {xs ys us vs : List α} (hxs : a ∉ xs) (hys : a ∉ ys)
    (h : xs ++ a :: us = ys ++ a :: vs) : xs = ys ∧ us = vs := by
  induction xs generalizing ys with
  | nil =>
    cases ys with
    | nil => exact ⟨rfl, (List.cons.inj h).2⟩
    | cons y rest => exact absurd (List.cons.inj h).1 (List.ne_of_not_mem_cons hys)
  | cons x rest ih =>
    cases ys with
    | nil => exact absurd (List.cons.inj h).1.symm (List.ne_of_not_mem_cons hxs)
    | cons y others =>
      obtain ⟨rfl, htail⟩ := List.cons.inj h
      obtain ⟨rfl, rfl⟩ := ih (List.not_mem_of_not_mem_cons hxs) (List.not_mem_of_not_mem_cons hys) htail
      exact ⟨rfl, rfl⟩

theorem append_cons_inj_right {α : Type} {a : α} {xs ys us vs : List α} (hus : a ∉ us) (hvs : a ∉ vs)
    (h : xs ++ a :: us = ys ++ a :: vs) : xs = ys ∧ us = vs := by
  have hreversed : us.reverse ++ a :: xs.reverse = vs.reverse ++ a :: ys.reverse := by
    simpa using congrArg List.reverse h
  obtain ⟨hafter, hbefore⟩ := append_cons_inj_left (by simpa using hus) (by simpa using hvs) hreversed
  exact ⟨List.reverse_injective hbefore, List.reverse_injective hafter⟩

namespace ProductFacility

/-- What stands between the product and the facility of a key. -/
def separator : CodePoint := .char '@'

theorem points_keyOf (product facility : Text) :
    (keyOf (some product) (some facility)).points = product.points ++ separator :: facility.points := by
  simp only [keyOf, Text.shown, Option.getD_some]
  exact List.append_assoc product.points [separator] facility.points

/-- Settings that cannot be taken for those of a product at a facility: neither of the products has the separator in its
id, or neither of the facilities has. -/
def CanBeToldFrom (w : ProductFacility) (product facility : Text) : Prop :=
  ∃ other site, w.product = some other ∧ w.facility = some site ∧
    (separator ∉ other.points ∧ separator ∉ product.points ∨ separator ∉ site.points ∧ separator ∉ facility.points)

theorem CanBeToldFrom.key_eq_iff {w : ProductFacility} {product facility : Text}
    (h : w.CanBeToldFrom product facility) :
    w.key = keyOf (some product) (some facility) ↔ w.product = some product ∧ w.facility = some facility := by
  obtain ⟨other, site, hother, hsite, hseparator⟩ := h
  constructor
  · intro hkey
    have hpoints : other.points ++ separator :: site.points = product.points ++ separator :: facility.points := by
      rw [← points_keyOf, ← points_keyOf, ← hother, ← hsite]
      exact congrArg Text.points hkey
    have hcut : other.points = product.points ∧ site.points = facility.points := by
      obtain ⟨hother, hproduct⟩ | ⟨hsite, hfacility⟩ := hseparator
      · exact append_cons_inj_left hother hproduct hpoints
      · exact append_cons_inj_right hsite hfacility hpoints
    rw [hother, hsite, Option.some_inj, Option.some_inj]
    exact ⟨congrArg Text.mk hcut.1, congrArg Text.mk hcut.2⟩
  · rintro ⟨hproduct, hfacility⟩
    rw [key, hproduct, hfacility]

end ProductFacility

namespace Session

variable (s : Session) {op : Operation} {w : ProductFacility} {product facility : Option Text}

/-- The settings that an operation writes; one that fails writes none. -/
def writtenBy (op : Operation) : Option ProductFacility :=
  match op with
  | .setProductFacility settings => ((setProductFacility settings).perform s).1.toOption
  | _ => none

/-- The settings that are written in a history of operations, one after the other. -/
def written (s : Session) : List Operation → List ProductFacility
  | [] => []
  | op :: rest => (s.writtenBy op).toList ++ (s.after op).written rest

/-- Settings are written in one step, the last one that can fail. -/
theorem setProductFacility_eq (settings : ProductFacility) :
    ((setProductFacility settings).perform s).2.planner = s.planner ∧
        ((setProductFacility settings).perform s).1.toOption = none ∨
      ∃ daysToShip facilities,
        s.planner.facilities.upsert (.text settings.key) { settings with daysToShip } = .ok facilities ∧
        ((setProductFacility settings).perform s).2.planner = { s.planner with facilities } ∧
        ((setProductFacility settings).perform s).1.toOption = some { settings with daysToShip } := by
  unfold setProductFacility
  simp only [perform_bind, perform_ask]
  cases s.planner.products.get (.named settings.product) with
  | error e => exact .inl ⟨rfl, rfl⟩
  | ok registered =>
    cases settings.daysToShip.larger (.proper (.int 0)) with
    | error e => exact .inl ⟨rfl, rfl⟩
    | ok daysToShip =>
      have hkey : { settings with daysToShip }.key = settings.key := rfl
      simp only [hkey]
      cases hupsert : s.planner.facilities.upsert (.text settings.key) { settings with daysToShip } with
      | error e => exact .inl ⟨rfl, rfl⟩
      | ok facilities => exact .inr ⟨daysToShip, facilities, hupsert, rfl, rfl⟩

theorem after_setProductFacility (settings : ProductFacility) :
    (s.after (.setProductFacility settings)).planner = ((setProductFacility settings).perform s).2.planner :=
  congrArg Session.planner (perform_bind_pure _ _ s)

/-- An operation that writes no settings leaves all of them alone. -/
theorem facilities_after_of_writtenBy_eq_none (h : s.writtenBy op = none) :
    (s.after op).planner.facilities = s.planner.facilities := by
  by_cases hpart : op.part = some .facilities
  · obtain ⟨settings, rfl⟩ : ∃ settings, op = .setProductFacility settings := by
      cases op with
      | setProductFacility settings => exact ⟨settings, rfl⟩
      | _ => cases hpart
    obtain ⟨hplanner, -⟩ | ⟨days, facilities, -, -, hwritten⟩ := s.setProductFacility_eq settings
    · rw [s.after_setProductFacility, hplanner]
    · exact absurd (hwritten.symm.trans h) (Option.some_ne_none _)
  · exact (s.after_agreesOutside op).facilities hpart

theorem upsert_of_writtenBy (h : s.writtenBy op = some w) :
    s.planner.facilities.upsert (.text w.key) w = .ok (s.after op).planner.facilities := by
  cases op with
  | setProductFacility settings =>
    obtain ⟨-, hnone⟩ | ⟨days, facilities, hupsert, hplanner, hwritten⟩ := s.setProductFacility_eq settings
    · exact absurd (h.symm.trans hnone) (Option.some_ne_none w)
    · obtain rfl := Option.some.inj (hwritten.symm.trans h)
      rw [s.after_setProductFacility, hplanner]
      exact hupsert
  | _ => cases h

/-- After one operation a pair of ids finds the settings that were written under its key, or what it found before. -/
theorem facility?_after (op : Operation) (product facility : Option Text) :
    (s.after op).planner.facility? product facility =
      ((s.writtenBy op).filter fun w => w.key = ProductFacility.keyOf product facility).elim
        (s.planner.facility? product facility) fun w => .ok (some w) := by
  cases hwritten : s.writtenBy op with
  | none =>
    unfold Planner.facility?
    rw [s.facilities_after_of_writtenBy_eq_none hwritten]
    rfl
  | some w =>
    have hupsert := s.upsert_of_writtenBy hwritten
    by_cases hkey : w.key = ProductFacility.keyOf product facility
    · have hget := Store.get_upserted hupsert
      rw [hkey] at hget
      simp [Planner.facility?, hget, Option.filter, hkey]
    · have hget := Store.get_upsert_of_ne hupsert (Ne.symm hkey)
      simp [Planner.facility?, hget, Option.filter, hkey]

/-- After a history of operations a pair of ids finds the last settings that were written under its key. -/
theorem facility?_foldl (ops : List Operation) (product facility : Option Text) :
    (ops.foldl after s).planner.facility? product facility =
      ((s.written ops).filter fun w => w.key = ProductFacility.keyOf product facility).getLast?.elim
        (s.planner.facility? product facility) fun w => .ok (some w) := by
  induction ops generalizing s with
  | nil => rfl
  | cons op rest ih =>
    rw [List.foldl_cons, ih, s.facility?_after, written, List.filter_append, List.getLast?_append]
    cases ((s.after op).written rest |>.filter fun w => w.key = ProductFacility.keyOf product facility).getLast? with
    | some w => rfl
    | none =>
      cases s.writtenBy op with
      | none => rfl
      | some w => by_cases hkey : w.key = ProductFacility.keyOf product facility <;> simp [Option.filter, hkey]

end Session

namespace Planner

variable {p q : Planner} {product facility : Option Text}

/-- Two planners see the same of a product at a facility: the settings, and the shipping days, quantities and starts
that come from them. -/
structure SeesSame (p q : Planner) (product facility : Option Text) : Prop where
  settings : q.facility? product facility = p.facility? product facility
  shippingDays : q.shippingDays product facility = p.shippingDays product facility
  settleQuantity : ∀ (order : ProposedOrder) (reorder : Option Amount), order.product.id = product →
    order.facility = facility → q.settleQuantity order reorder = p.settleQuantity order reorder
  ownStart : ∀ required, q.ownStart product facility required = p.ownStart product facility required

/-- The settings are all that is seen. -/
theorem seesSame_of_facility? (h : q.facility? product facility = p.facility? product facility) :
    p.SeesSame q product facility := by
  have hdays : q.shippingDays product facility = p.shippingDays product facility := by
    rw [shippingDays, h, shippingDays]
  have hreorder (order : ProposedOrder) (reorder : Option Amount) (hproduct : order.product.id = product)
      (hfacility : order.facility = facility) : q.reorderQuantity order reorder = p.reorderQuantity order reorder := by
    unfold reorderQuantity
    rw [hproduct, hfacility, h]
  constructor
  · exact h
  · exact hdays
  · intro order reorder hproduct hfacility
    rw [settleQuantity, hreorder order reorder hproduct hfacility, settleQuantity]
  · intro required
    rw [ownStart, shippingTime, hdays, ownStart, shippingTime]

/-- Explosions at a facility depend on the products, the bills of material and the settings at this facility. -/
theorem explosionStart_eq_of_facility? (hproducts : q.products = p.products) (hbom : q.bom = p.bom)
    (h : ∀ product : Text, q.facility? (some product) facility = p.facility? (some product) facility) (product : Text)
    (required : Option Moment) :
    q.explosionStart (some product) facility required = p.explosionStart (some product) facility required := by
  have hcomponents : q.componentsOf = p.componentsOf := by
    funext product asOf
    rw [componentsOf, hbom, componentsOf]
  have hexpanded : q.isExpanded = p.isExpanded := by
    funext path product
    unfold isExpanded
    rw [hproducts]
  have hown (product : Text) : q.ownStart (some product) facility = p.ownStart (some product) facility :=
    funext (seesSame_of_facility? (h product)).ownStart
  have hwithin (fuel : Nat) : q.explodeWithin facility fuel = p.explodeWithin facility fuel := by
    induction fuel with
    | zero => rfl
    | succ fuel ih =>
      funext path product required
      simp only [explodeWithin, explodeBelow, hexpanded, hown, hcomponents, ih]
  simp only [explosionStart, hbom, hwithin]

end Planner

namespace Session

open ProductFacility

/-- Settings at one facility change no explosion at another one, if neither has the separator in its id. -/
theorem explosionStart_after_setProductFacility (s : Session) {settings : ProductFacility} {site facility : Text}
    (hproduct : settings.product.isSome) (hsite : settings.facility = some site) (hne : site ≠ facility)
    (hseparator : separator ∉ site.points ∧ separator ∉ facility.points) (product : Text) (required : Option Moment) :
    (s.after (.setProductFacility settings)).planner.explosionStart (some product) (some facility) required =
      s.planner.explosionStart (some product) (some facility) required := by
  have hkept := s.after_agreesOutside (.setProductFacility settings)
  have hproducts := hkept.products (by simp [Operation.part])
  have hbom := hkept.bom (by simp [Operation.part])
  apply Planner.explosionStart_eq_of_facility? hproducts hbom
  intro other
  rw [s.facility?_after]
  obtain ⟨-, hnone⟩ | ⟨days, facilities, -, -, hwritten⟩ := s.setProductFacility_eq settings
  · rw [writtenBy, hnone]
    rfl
  · obtain ⟨owner, howner⟩ := Option.isSome_iff_exists.mp hproduct
    have hapart : { settings with daysToShip := days }.CanBeToldFrom other facility :=
      ⟨owner, site, howner, hsite, .inr hseparator⟩
    have hkey : ¬ { settings with daysToShip := days }.key = keyOf (some other) (some facility) := by
      intro hkey
      exact hne (Option.some.inj (hsite.symm.trans (hapart.key_eq_iff.mp hkey).2))
    rw [writtenBy, hwritten, Option.filter_some_neg (by simpa using hkey)]
    rfl

/-- The settings of a product at a facility are the last ones that were written under the key of the two, and those that
were there before if there are none. Where that key can be told from the keys of all others that were written, they are
the last ones that were written for this product at this facility, and settings for others change nothing of what is
seen of the two. -/
theorem settings_lastWritten (s : Session) (ops : List Operation) (product facility : Text) :
    (ops.foldl after s).planner.facility? (some product) (some facility) =
        ((s.written ops).filter fun w => w.key = keyOf (some product) (some facility)).getLast?.elim
          (s.planner.facility? (some product) (some facility)) (fun w => .ok (some w)) ∧
      ((∀ w ∈ s.written ops, w.CanBeToldFrom product facility) →
        (ops.foldl after s).planner.facility? (some product) (some facility) =
            ((s.written ops).filter fun w => w.product = some product ∧ w.facility = some facility).getLast?.elim
              (s.planner.facility? (some product) (some facility)) (fun w => .ok (some w)) ∧
          ((∀ w ∈ s.written ops, ¬ (w.product = some product ∧ w.facility = some facility)) →
            s.planner.SeesSame (ops.foldl after s).planner (some product) (some facility))) := by
  have hlast := s.facility?_foldl ops (some product) (some facility)
  refine ⟨hlast, fun hapart => ?_⟩
  have hown : ((s.written ops).filter fun w => w.key = keyOf (some product) (some facility)) =
      (s.written ops).filter fun w => w.product = some product ∧ w.facility = some facility := by
    apply List.filter_congr
    intro w hw
    exact decide_eq_decide.mpr (hapart w hw).key_eq_iff
  rw [hown] at hlast
  refine ⟨hlast, fun hothers => ?_⟩
  have hnone : ((s.written ops).filter fun w => w.product = some product ∧ w.facility = some facility) = [] := by
    apply List.filter_eq_nil_iff.mpr
    intro w hw
    simpa using hothers w hw
  rw [hnone] at hlast
  exact Planner.seesSame_of_facility? hlast

end Session

namespace Operation

/-- Sets the shipping days of a product at a facility. -/
def shipFrom (product facility : Text) (days : Int) : Operation :=
  setProductFacility
    { product := some product
      facility := some facility
      daysToShip := .proper (.int days)
      reorderQuantity := none
      minimumStock := none }

/-- Tables and shelves are shipped from the east, and the days of the tables are set twice. -/
def fromTheEast : List Operation :=
  [register "TABLE" .finishedGood, register "SHELF" .finishedGood, shipFrom "TABLE" "EAST" 1, shipFrom "SHELF" "EAST" 2,
    shipFrom "TABLE" "EAST" 3]

/-- One key for a product at a facility and for another product at another facility. -/
def underOneKey : List Operation :=
  [register "A@B" .finishedGood, register "A" .finishedGood, shipFrom "A@B" "C" 1, shipFrom "A" "B@C" 2]

end Operation

namespace Session

/-- A session before any work, with its records in memory. -/
def start : Session := fresh .numbered (.inMemory .standard)

/-- The days that were set last are found, and nothing is seen of them in the west. -/
theorem settings_lastWritten_fromTheEast :
    (∀ w ∈ start.written Operation.fromTheEast, w.CanBeToldFrom "TABLE" "EAST" ∧ w.CanBeToldFrom "TABLE" "WEST") ∧
      (∃ w, (Operation.fromTheEast.foldl after start).planner.facility? (some "TABLE") (some "EAST") = .ok (some w) ∧
        w.daysToShip.toQuantity? = some (.int 3)) ∧
      start.planner.SeesSame (Operation.fromTheEast.foldl after start).planner (some "TABLE") (some "WEST") := by
  have hpairs : (start.written Operation.fromTheEast).map (fun w => (w.product, w.facility)) =
      [(some ↑"TABLE", some ↑"EAST"), (some ↑"SHELF", some ↑"EAST"), (some ↑"TABLE", some ↑"EAST")] := by
    decide +kernel
  have heast : ∀ w ∈ start.written Operation.fromTheEast,
      (w.product = some ↑"TABLE" ∨ w.product = some ↑"SHELF") ∧ w.facility = some ↑"EAST" := by
    intro w hw
    have hpair := List.mem_map_of_mem (f := fun w => (w.product, w.facility)) hw
    rw [hpairs] at hpair
    simp only [List.mem_cons, Prod.mk.injEq, List.not_mem_nil, or_false] at hpair
    obtain ⟨hproduct, hfacility⟩ | ⟨hproduct, hfacility⟩ | ⟨hproduct, hfacility⟩ := hpair
    · exact ⟨.inl hproduct, hfacility⟩
    · exact ⟨.inr hproduct, hfacility⟩
    · exact ⟨.inl hproduct, hfacility⟩
  have hapart (site : Text) (hsite : ProductFacility.separator ∉ site.points) :
      ∀ w ∈ start.written Operation.fromTheEast, w.CanBeToldFrom "TABLE" site := by
    intro w hw
    obtain ⟨hproduct | hproduct, hfacility⟩ := heast w hw
    · exact ⟨"TABLE", "EAST", hproduct, hfacility, .inr ⟨by decide, hsite⟩⟩
    · exact ⟨"SHELF", "EAST", hproduct, hfacility, .inr ⟨by decide, hsite⟩⟩
  have hlast : ((start.written Operation.fromTheEast).filter fun w =>
      w.product = some ↑"TABLE" ∧ w.facility = some ↑"EAST").getLast?.map (fun w => w.daysToShip.toQuantity?) =
        some (some (.int 3)) := by
    decide +kernel
  have heastLast := ((settings_lastWritten start Operation.fromTheEast "TABLE" "EAST").2 (hapart "EAST" (by decide))).1
  have hwest := ((settings_lastWritten start Operation.fromTheEast "TABLE" "WEST").2 (hapart "WEST" (by decide))).2
  refine ⟨fun w hw => ⟨hapart "EAST" (by decide) w hw, hapart "WEST" (by decide) w hw⟩, ?_, hwest ?_⟩
  · obtain ⟨w, hw, hdays⟩ := Option.map_eq_some_iff.mp hlast
    rw [hw] at heastLast
    exact ⟨w, heastLast, hdays⟩
  · intro w hw hboth
    exact absurd ((heast w hw).2.symm.trans hboth.2) (by decide)

/-- Two pairs of ids can share a key; then the settings of one are taken for those of the other. -/
theorem not_settings_eq_lastWritten :
    ¬ ∀ (ops : List Operation) (product facility : Text),
      (ops.foldl after start).planner.facility? (some product) (some facility) =
        .ok ((start.written ops).filter fun w => w.product = some product ∧ w.facility = some facility).getLast? := by
  intro h
  have hfound : ((Operation.underOneKey.foldl after start).planner.facility? (some "A@B") (some "C")).toOption.map
      (Option.map ProductFacility.product) = some (some (some ("A" : Text))) := by
    decide +kernel
  have hlast : ((start.written Operation.underOneKey).filter fun w =>
      w.product = some ↑"A@B" ∧ w.facility = some ↑"C").getLast?.map ProductFacility.product =
      some (some ("A@B" : Text)) := by
    decide +kernel
  rw [h, Except.toOption, Option.map_some, hlast] at hfound
  exact absurd hfound (by decide)

end Session

end SupplyPlan
