import Mathlib.Order.Bounds.Basic
import SupplyPlan.Proofs.Explosion.Depth
import SupplyPlan.Proofs.Explosion.Shipping

namespace SupplyPlan

/-- The part of a record that an explosion reads: the product, the component and when it goes in. -/
def BomComponent.link (c : BomComponent) : Text × Text × Validity := (c.product, c.component, c.validity)

/-- Two bills of material hold the same links, in whatever order and however often. -/
def HasSameLinks (bom bom' : Store BomComponent) : Prop :=
  ∃ records records', bom.toList = .ok records ∧ bom'.toList = .ok records' ∧
    ∀ link, link ∈ records.map BomComponent.link ↔ link ∈ records'.map BomComponent.link

namespace HasSameLinks

variable {bom bom' : Store BomComponent}

theorem symm (h : HasSameLinks bom bom') : HasSameLinks bom' bom := by
  obtain ⟨records, records', hrecords, hrecords', hlinks⟩ := h
  exact ⟨records', records, hrecords', hrecords, fun link => (hlinks link).symm⟩

theorem isOpen (h : HasSameLinks bom bom') : bom.kind ≠ .closed := by
  obtain ⟨records, records', hrecords, -, -⟩ := h
  intro hclosed
  cases bom <;> simp_all [Store.kind, Store.toList]

theorem exists_record (h : HasSameLinks bom bom') {key : RecordId} {c : BomComponent} (hc : (key, c) ∈ bom.entries) :
    ∃ key' c', (key', c') ∈ bom'.entries ∧ c'.product = c.product ∧ c'.component = c.component ∧
      c'.validity = c.validity := by
  obtain ⟨records, records', hrecords, hrecords', hlinks⟩ := h
  have hlink := (hlinks c.link).mp (List.mem_map_of_mem ((Store.mem_toList_iff hrecords).mpr ⟨key, hc⟩))
  obtain ⟨c', hc', heq⟩ := List.mem_map.mp hlink
  obtain ⟨key', hmem⟩ := (Store.mem_toList_iff hrecords').mp hc'
  simp only [BomComponent.link, Prod.mk.injEq] at heq
  exact ⟨key', c', hmem, heq⟩

end HasSameLinks

namespace Planner

variable (p : Planner) (facility : Option Text)

/-- The shipping times of the products of a walk, one after the other. -/
def totalShipping : List Text → Except PlanError Int
  | [] => .ok 0
  | product :: rest => do return (← p.shippingTime (some product) facility).micros + (← totalShipping rest)

/-- The totals over all walks from a product that is required at an instant, through work in process only. -/
def shippingTotals (product : Text) (required : Instant) : Set Int :=
  { total | ∃ walk, p.Walk facility product (.proper required) walk ∧
      (∀ component ∈ walk.tail, p.IsWorkInProcess component) ∧ p.totalShipping facility walk = .ok total }

variable {p facility} {product : Text} {path : List Text} {fuel : Nat} {t s : Instant} {m : Moment}

theorem totalShipping_cons {rest : List Text} {total : Int} :
    p.totalShipping facility (product :: rest) = .ok total ↔
      ∃ d more, p.shippingTime (some product) facility = .ok d ∧ p.totalShipping facility rest = .ok more ∧
        d.micros + more = total := by
  simp only [totalShipping, bind_eq_ok_iff, pure, Except.pure, Except.ok.injEq, ← exists_and_left]

theorem IsSound.totalShipping_nonneg (h : p.IsSound) {walk : List Text} {total : Int}
    (htotal : p.totalShipping facility walk = .ok total) : 0 ≤ total := by
  induction walk generalizing total with
  | nil => exact (Except.ok.inj htotal).le
  | cons product rest ih =>
    obtain ⟨d, more, htime, hmore, rfl⟩ := totalShipping_cons.mp htotal
    exact Int.add_nonneg (h.shippingTime_nonneg htime) (ih hmore)

/-- The walks from a product end there or go on from a component of it. -/
theorem mem_shippingTotals_iff {d : Duration} (htime : p.shippingTime (some product) facility = .ok d)
    (hstart : p.ownStart (some product) facility (.proper t) = .ok (.proper s)) {total : Int} :
    total ∈ p.shippingTotals facility product t ↔
      total = d.micros ∨ ∃ component more, p.HasComponent product component (.proper t) ∧
        p.IsWorkInProcess component ∧ more ∈ p.shippingTotals facility component s ∧ total = d.micros + more := by
  constructor
  · rintro ⟨walk, hwalk, hinner, htotal⟩
    cases hwalk with
    | here =>
      obtain ⟨d', more, hd', hmore, rfl⟩ := totalShipping_cons.mp htotal
      obtain rfl := Except.ok.inj (htime.symm.trans hd')
      obtain rfl := Except.ok.inj hmore
      exact .inl (Int.add_zero _)
    | @down _ component _ start rest hstart' hcomponent _ hrest =>
      obtain ⟨d', more, hd', hmore, rfl⟩ := totalShipping_cons.mp htotal
      obtain rfl := Except.ok.inj (htime.symm.trans hd')
      obtain rfl := Except.ok.inj (hstart.symm.trans hstart')
      obtain ⟨hfirst, hothers⟩ := List.forall_mem_cons.mp hinner
      exact .inr ⟨component, more, hcomponent, hfirst, ⟨_, hrest, hothers, hmore⟩, rfl⟩
  · rintro (rfl | ⟨component, more, hcomponent, hfirst, ⟨walk, hwalk, hothers, hmore⟩, rfl⟩)
    · exact ⟨[product], .here _ _, by simp, totalShipping_cons.mpr ⟨d, 0, htime, rfl, Int.add_zero _⟩⟩
    · obtain ⟨rest, rfl⟩ := hwalk.exists_tail
      refine ⟨_, .down hstart hcomponent (fun _ => hfirst) hwalk, List.forall_mem_cons.mpr ⟨hfirst, hothers⟩, ?_⟩
      exact totalShipping_cons.mpr ⟨d, more, htime, hmore, rfl⟩

/-- Explosions from instants end in instants on the same clock. -/
theorem exists_instant_of_explodeWithin (h : p.explodeWithin facility fuel path product (.proper t) = .ok m) :
    ∃ u : Instant, m = .proper u ∧ u.offset = t.offset := by
  induction fuel generalizing path product t m with
  | zero => cases h
  | succ fuel ih =>
    obtain ⟨-, ⟨-, rfl⟩ | ⟨-, hbelow⟩⟩ := explodeWithin_eq_ok_iff.mp h
    · exact ⟨t, rfl, rfl⟩
    · obtain ⟨start, components, hstart, -, hearliest⟩ := explodeBelow_eq_ok_iff.mp hbelow
      obtain ⟨d, s, -, rfl, -, hoffset⟩ := ownStart_proper_eq_ok_iff.mp hstart
      obtain ⟨u, rfl, hu⟩ := isEarliest_of_earliestOf hearliest fun c _ child hchild => ih hchild
      exact ⟨u, rfl, hu.offset_eq.trans hoffset⟩

/-- What is not expanded starts when it is required. -/
theorem explodeWithin_of_not_expanded {required : Moment}
    (h : p.explodeWithin facility fuel path product required = .ok m) (hpath : path ≠ [])
    (hproduct : ¬ p.IsWorkInProcess product) : m = required := by
  cases fuel with
  | zero => cases h
  | succ fuel =>
    obtain ⟨-, ⟨-, rfl⟩ | ⟨hexpanded, -⟩⟩ := explodeWithin_eq_ok_iff.mp h
    · rfl
    · exact absurd (isExpanded_eq_true_iff.mp hexpanded) (by simp [hpath, hproduct])

/-- Induction on the depth: the walks from an expanded product go on from its components, which are required by its own
start. -/
theorem explodeWithin_isGreatest (h : p.explodeWithin facility fuel path product (.proper t) = .ok (.proper s))
    (hexpanded : path = [] ∨ p.IsWorkInProcess product) :
    IsGreatest (p.shippingTotals facility product t) (t.micros - s.micros) := by
  induction fuel generalizing path product t s with
  | zero => cases h
  | succ fuel ih =>
    obtain ⟨-, ⟨hleaf, -⟩ | ⟨-, hbelow⟩⟩ := explodeWithin_eq_ok_iff.mp h
    · cases (isExpanded_eq_true_iff.mpr hexpanded).symm.trans hleaf
    obtain ⟨start, components, hstart, hcomponents, hearliest⟩ := explodeBelow_eq_ok_iff.mp hbelow
    obtain ⟨d, own, htime, rfl, hown, -⟩ := ownStart_proper_eq_ok_iff.mp hstart
    obtain ⟨u, hu, hearliest⟩ :=
      isEarliest_of_earliestOf hearliest fun c _ child hchild => exists_instant_of_explodeWithin hchild
    obtain rfl := Given.proper.inj hu
    have htotals {total : Int} := @mem_shippingTotals_iff p facility product t own d htime hstart total
    constructor
    · rcases hearliest.attained with rfl | ⟨c, hc, hchild⟩
      · exact htotals.mpr (.inl (by omega))
      · by_cases hinner : p.IsWorkInProcess c.component
        · have hcomponent := (hasComponent_iff hcomponents).mpr ⟨c, hc, rfl⟩
          have hmore := (ih hchild (.inr hinner)).1
          exact htotals.mpr (.inr ⟨c.component, _, hcomponent, hinner, hmore, by omega⟩)
        · -- Other components are there when they are required, so they start no earlier than the product itself.
          obtain rfl := Given.proper.inj (explodeWithin_of_not_expanded hchild (by simp) hinner)
          exact htotals.mpr (.inl (by omega))
    · intro total htotal
      have hle := hearliest.le_start
      rcases htotals.mp htotal with rfl | ⟨component, more, hcomponent, hinner, hmore, rfl⟩
      · omega
      · obtain ⟨c, hc, rfl⟩ := (hasComponent_iff hcomponents).mp hcomponent
        obtain ⟨v, hchild, hbound⟩ := hearliest.le_item c hc
        have hmax := (ih hchild (.inr hinner)).2 hmore
        omega

variable {bom : Store BomComponent} {records : List BomComponent} {fuel' : Nat} {required : Moment}
  {components components' : List BomComponent}

theorem exists_component_of_hasSameLinks (hsame : HasSameLinks p.bom bom)
    (h : p.componentsOf (some product) (some required) = .ok components)
    (h' : { p with bom }.componentsOf (some product) (some required) = .ok components') :
    ∀ c ∈ components, ∃ c' ∈ components', c'.component = c.component := by
  intro c hc
  obtain ⟨⟨key, hmem⟩, rfl, hvalid⟩ := (mem_componentsOf_iff h).mp hc
  obtain ⟨key', c', hmem', hproduct, hcomponent, hvalidity⟩ := hsame.exists_record hmem
  exact ⟨c', (mem_componentsOf_iff h').mpr ⟨⟨key', hmem'⟩, hproduct, hvalidity ▸ hvalid⟩, hcomponent⟩

theorem exists_componentsOf_of_hasSameLinks (hsame : HasSameLinks p.bom bom)
    (h : p.componentsOf (some product) (some required) = .ok components) :
    ∃ components', { p with bom }.componentsOf (some product) (some required) = .ok components' := by
  obtain ⟨-, hactive⟩ := exists_componentsOf_iff.mp ⟨components, h⟩
  refine exists_componentsOf_iff.mpr ⟨hsame.symm.isOpen, fun key c hc hproduct => ?_⟩
  obtain ⟨key', c', hmem, hproduct', -, hvalidity⟩ := hsame.symm.exists_record hc
  exact hvalidity ▸ hactive key' c' hmem (hproduct'.trans hproduct)

/-- Induction on the depth: the components are the same ones, so their starts are, and there is one earliest of them. -/
theorem explodeWithin_of_hasSameLinks (hsame : HasSameLinks p.bom bom) (hrecords : bom.toList = .ok records)
    (h : p.explodeWithin facility fuel path product (.proper t) = .ok m) (hroom : HasRoom records fuel' path product) :
    { p with bom }.explodeWithin facility fuel' path product (.proper t) = .ok m := by
  induction fuel generalizing fuel' path product t m with
  | zero => cases h
  | succ fuel ih =>
    cases fuel' with
    | zero => exact absurd hroom.fuel_pos (lt_irrefl 0)
    | succ fuel' =>
      obtain ⟨hnew, hcases⟩ := explodeWithin_eq_ok_iff.mp h
      refine explodeWithin_eq_ok_iff.mpr ⟨hnew, hcases.imp_right fun ⟨hexpanded, hbelow⟩ => ⟨hexpanded, ?_⟩⟩
      obtain ⟨start, components, hstart, hcomponents, hfirst⟩ := explodeBelow_eq_ok_iff.mp hbelow
      obtain ⟨d, s, -, rfl, -, -⟩ := ownStart_proper_eq_ok_iff.mp hstart
      obtain ⟨u, rfl, hearliest⟩ :=
        isEarliest_of_earliestOf hfirst fun c _ child hchild => exists_instant_of_explodeWithin hchild
      obtain ⟨components', hcomponents'⟩ := exists_componentsOf_of_hasSameLinks hsame hcomponents
      have hthere := exists_component_of_hasSameLinks hsame hcomponents hcomponents'
      have hback := exists_component_of_hasSameLinks (p := { p with bom }) hsame.symm hcomponents' hcomponents
      have hchildren : ∀ c' ∈ components', ∀ c ∈ components, c.component = c'.component →
          { p with bom }.explodeWithin facility fuel' (path ++ [product]) c'.component (.proper s) =
            p.explodeWithin facility fuel (path ++ [product]) c.component (.proper s) := by
        intro c' hc' c hc heq
        obtain ⟨v, hv, -⟩ := hearliest.le_item c hc
        rw [hv, ← heq]
        exact ih hv (heq ▸ hroom.down hnew (mem_records_of_componentsOf hrecords hcomponents' hc'))
      refine explodeBelow_eq_ok_iff.mpr ⟨.proper s, components', hstart, hcomponents', ?_⟩
      refine hearliest.earliestOf_eq (fun c _ v hv => ?_) (fun c hc => ?_) (fun c' hc' => ?_)
      · obtain ⟨w, hw, hoffset⟩ := exists_instant_of_explodeWithin hv
        exact Given.proper.inj hw ▸ hoffset
      · obtain ⟨c', hc', heq⟩ := hthere c hc
        exact ⟨c', hc', hchildren c' hc' c hc heq.symm⟩
      · obtain ⟨c, hc, heq⟩ := hback c' hc'
        exact ⟨c, hc, (hchildren c' hc' c hc heq).symm⟩

end Planner

/-- If an explosion tells a start, it comes before the required date by the greatest total of the shipping times of a
walk through work in process. That is never less than nothing, and a bill of material with the same links has the same
start. -/
theorem Session.Reached.explosionStart_isGreatest {s : Session} (hs : s.Reached) {root : Text}
    {facility : Option Text} {required : Instant} {m : Moment}
    (h : s.planner.explosionStart (some root) facility (some (.proper required)) = .ok m) :
    ∃ start : Instant, m = .proper start ∧ start.offset = required.offset ∧ start.micros ≤ required.micros ∧
      IsGreatest (s.planner.shippingTotals facility root required) (required.micros - start.micros) ∧
      ∀ bom, HasSameLinks s.planner.bom bom →
        { s.planner with bom }.explosionStart (some root) facility (some (.proper required)) = .ok (.proper start) := by
  have hsound := hs.isSound
  obtain ⟨records, hrecords⟩ := Store.exists_toList hsound.bom_isOpen
  rw [Planner.explosionStart_eq hrecords] at h
  obtain ⟨start, rfl, hoffset⟩ := Planner.exists_instant_of_explodeWithin h
  have hgreatest := Planner.explodeWithin_isGreatest h (.inl rfl)
  refine ⟨start, rfl, hoffset, ?_, hgreatest, fun bom hsame => ?_⟩
  · obtain ⟨walk, -, -, htotal⟩ := hgreatest.1
    exact Int.sub_nonneg.mp (hsound.totalShipping_nonneg htotal)
  · obtain ⟨records', hrecords'⟩ := Store.exists_toList hsame.symm.isOpen
    rw [Planner.explosionStart_eq (p := { s.planner with bom }) hrecords']
    exact Planner.explodeWithin_of_hasSameLinks hsame hrecords' h (Planner.hasRoom_root le_rfl root)

instance (result : Except PlanError Moment) (t : Instant) : Decidable (result = .ok (.proper t)) :=
  match result with
  | .ok (.proper s) => decidable_of_iff (s = t) (by simp)
  | .ok (.other _) => .isFalse nofun
  | .error _ => .isFalse nofun

def Instant.atNoon (day : Date) : Instant := .combine day (.hour 12 (by decide))

/-- The top and its board take two and four days, and the table one more; the way over the legs is shorter. -/
theorem Session.table_explosionStart_isGreatest :
    table.Reached ∧
      table.planner.explosionStart (some "TABLE") (some standardFacility)
        (some (.proper (.atNoon ⟨738600, by decide⟩))) = .ok (.proper (.atNoon ⟨738593, by decide⟩)) ∧
      IsGreatest (table.planner.shippingTotals (some standardFacility) "TABLE" (.atNoon ⟨738600, by decide⟩))
        (7 * dayMicros) := by
  have hresult : table.planner.explosionStart (some "TABLE") (some standardFacility)
      (some (.proper (.atNoon ⟨738600, by decide⟩))) = .ok (.proper (.atNoon ⟨738593, by decide⟩)) := by
    decide +kernel
  obtain ⟨start, hstart, -, -, hgreatest, -⟩ := table_reached.explosionStart_isGreatest hresult
  obtain rfl := Given.proper.inj hstart
  exact ⟨table_reached, hresult, hgreatest⟩

end SupplyPlan
