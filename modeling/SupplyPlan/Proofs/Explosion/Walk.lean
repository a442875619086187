import SupplyPlan.Planning.Explosion
import SupplyPlan.Proofs.Planning.Components

namespace SupplyPlan

theorem earliestOf_congr {α : Type} {startOf startOf' : α → Except PlanError Moment} {items : List α}
    (h : ∀ a ∈ items, startOf a = startOf' a) (earliest : Moment) :
    earliestOf startOf earliest items = earliestOf startOf' earliest items := by
  induction items generalizing earliest with
  | nil => rfl
  | cons a rest ih =>
    obtain ⟨ha, hrest⟩ := List.forall_mem_cons.mp h
    simp only [earliestOf, ha, ih hrest]

namespace Planner

variable (p : Planner) (facility : Option Text)

/-- A component goes into a product at a date: there is a record of it that is valid then. -/
def HasComponent (product component : Text) (due : Moment) : Prop :=
  ∃ records, p.bom.toList = .ok records ∧
    ∃ c ∈ records, c.product = product ∧ c.component = component ∧ c.validity.isActive (some due) = .ok true

def IsWorkInProcess (product : Text) : Prop :=
  ∃ found, p.products.get (.text product) = .ok found ∧ found.productType = .workInProcess

/-- The products of a walk from a product that is required at a date: each next one is a component of the one before at
the date at which that is required, and is required itself when that one starts. All but the first and the last are work
in process. -/
inductive Walk : Text → Moment → List Text → Prop where
  | here (product : Text) (required : Moment) : Walk product required [product]
  | down {product component : Text} {required start : Moment} {rest : List Text}
      (hstart : p.ownStart (some product) facility required = .ok start)
      (hcomponent : p.HasComponent product component required) (hinner : rest ≠ [] → p.IsWorkInProcess component)
      (hrest : Walk component start (component :: rest)) : Walk product required (product :: component :: rest)

variable {p facility} {product : Text} {path : List Text} {required m : Moment} {fuel : Nat} {e : PlanError}

theorem Walk.exists_tail {walk : List Text} (h : p.Walk facility product required walk) :
    ∃ rest, walk = product :: rest := by
  cases h with
  | here => exact ⟨[], rfl⟩
  | down => exact ⟨_, rfl⟩

theorem hasComponent_iff {components : List BomComponent} {component : Text}
    (h : p.componentsOf (some product) (some required) = .ok components) :
    p.HasComponent product component required ↔ ∃ c ∈ components, c.component = component := by
  have hopen : p.bom.kind ≠ .closed := (exists_componentsOf_iff.mp ⟨components, h⟩).1
  obtain ⟨records, hrecords⟩ := Store.exists_toList hopen
  constructor
  · rintro ⟨_, hrecords', c, hc, hproduct, hcomponent, hvalid⟩
    obtain ⟨key, hmem⟩ := (Store.mem_toList_iff hrecords').mp hc
    exact ⟨c, (mem_componentsOf_iff h).mpr ⟨⟨key, hmem⟩, hproduct, hvalid⟩, hcomponent⟩
  · rintro ⟨c, hc, hcomponent⟩
    obtain ⟨hmem, hproduct, hvalid⟩ := (mem_componentsOf_iff h).mp hc
    exact ⟨records, hrecords, c, (Store.mem_toList_iff hrecords).mpr hmem, hproduct, hcomponent, hvalid⟩

theorem isExpanded_eq_true_iff :
    p.isExpanded path product = .ok true ↔ path = [] ∨ p.IsWorkInProcess product := by
  cases path with
  | nil => simp [isExpanded]
  | cons first rest => simp [isExpanded, bind_eq_ok_iff, IsWorkInProcess, pure, Except.pure]

theorem explodeWithin_eq_ok_iff :
    p.explodeWithin facility (fuel + 1) path product required = .ok m ↔
      product ∉ path ∧ (p.isExpanded path product = .ok false ∧ required = m ∨
        p.isExpanded path product = .ok true ∧
          p.explodeBelow facility (p.explodeWithin facility fuel (path ++ [product])) product required = .ok m) := by
  by_cases hmem : product ∈ path
  · simp [explodeWithin, hmem]
  · cases hexpanded : p.isExpanded path product with
    | error e => simp [explodeWithin, hmem, hexpanded, bind, Except.bind]
    | ok expanded => cases expanded <;> simp [explodeWithin, hmem, hexpanded, bind, Except.bind, pure, Except.pure]

theorem explodeWithin_eq_error_iff :
    p.explodeWithin facility (fuel + 1) path product required = .error e ↔
      product ∈ path ∧ .bomCycle (path ++ [product]) = e ∨
        product ∉ path ∧ (p.isExpanded path product = .error e ∨ p.isExpanded path product = .ok true ∧
          p.explodeBelow facility (p.explodeWithin facility fuel (path ++ [product])) product required = .error e) := by
  by_cases hmem : product ∈ path
  · simp [explodeWithin, hmem]
  · cases hexpanded : p.isExpanded path product with
    | error e => simp [explodeWithin, hmem, hexpanded, bind, Except.bind]
    | ok expanded => cases expanded <;> simp [explodeWithin, hmem, hexpanded, bind, Except.bind, pure, Except.pure]

theorem explodeBelow_eq_ok_iff {explode : Text → Moment → Except PlanError Moment} :
    p.explodeBelow facility explode product required = .ok m ↔
      ∃ start components, p.ownStart (some product) facility required = .ok start ∧
        p.componentsOf (some product) (some required) = .ok components ∧
        earliestOf (fun c => explode c.component start) start components = .ok m := by
  simp only [explodeBelow, bind_eq_ok_iff, ← exists_and_left]

theorem explodeBelow_eq_error_iff {explode : Text → Moment → Except PlanError Moment} :
    p.explodeBelow facility explode product required = .error e ↔
      p.ownStart (some product) facility required = .error e ∨
        ∃ start, p.ownStart (some product) facility required = .ok start ∧
          (p.componentsOf (some product) (some required) = .error e ∨
            ∃ components, p.componentsOf (some product) (some required) = .ok components ∧
              earliestOf (fun c => explode c.component start) start components = .error e) := by
  simp only [explodeBelow, bind_eq_error_iff]

theorem explodeBelow_congr {explode explode' : Text → Moment → Except PlanError Moment}
    (h : ∀ components, p.componentsOf (some product) (some required) = .ok components →
      ∀ c ∈ components, explode c.component = explode' c.component) :
    p.explodeBelow facility explode product required = p.explodeBelow facility explode' product required := by
  refine bind_congr_of_ok fun start _ => bind_congr_of_ok fun components hcomponents => ?_
  exact earliestOf_congr (fun c hc => by rw [h components hcomponents c hc]) start

end Planner

section Earliest

variable {α : Type} {startOf : α → Except PlanError Moment} {items : List α} {start : Instant}

/-- A start, and instants on the same clock that are the starts of all items, with the earliest of them all. -/
structure IsEarliest (startOf : α → Except PlanError Moment) (items : List α) (start u : Instant) : Prop where
  offset_eq : u.offset = start.offset
  le_start : u.micros ≤ start.micros
  attained : u = start ∨ ∃ a ∈ items, startOf a = .ok (.proper u)
  le_item : ∀ a ∈ items, ∃ t, startOf a = .ok (.proper t) ∧ u.micros ≤ t.micros

theorem Instant.ext_micros {t u : Instant} (hmicros : t.micros = u.micros) (hoffset : t.offset = u.offset) : t = u := by
  cases t; cases u; simp_all

theorem Instant.lt_of_offset_eq {t u : Instant} (h : t.offset = u.offset) :
    t.lt u = .ok (decide (t.micros < u.micros)) := by
  simp [Instant.lt, Instant.isAware, Instant.onCommonClock, h]

/-- The earlier of two instants on one clock. -/
theorem earliestOf_cons {a : α} {rest : List α} {t : Instant} (hstart : startOf a = .ok (.proper t))
    (hoffset : t.offset = start.offset) :
    earliestOf startOf (.proper start) (a :: rest) =
      earliestOf startOf (.proper (if t.micros < start.micros then t else start)) rest := by
  simp only [earliestOf, hstart, Moment.lt_proper, Instant.lt_of_offset_eq hoffset, bind, Except.bind]
  by_cases hlt : t.micros < start.micros <;> simp [hlt]

/-- If the starts of all items are told, so is the earliest of them. -/
theorem exists_earliestOf
    (h : ∀ a ∈ items, ∃ t, startOf a = .ok (.proper t) ∧ t.offset = start.offset) :
    ∃ u, earliestOf startOf (.proper start) items = .ok (.proper u) ∧ IsEarliest startOf items start u := by
  induction items generalizing start with
  | nil => exact ⟨start, rfl, rfl, le_rfl, .inl rfl, by simp⟩
  | cons a rest ih =>
    obtain ⟨⟨t, ht, hoffset⟩, hrest⟩ := List.forall_mem_cons.mp h
    rw [earliestOf_cons ht hoffset]
    by_cases hlt : t.micros < start.micros
    · rw [if_pos hlt]
      obtain ⟨u, hu, hearliest⟩ := ih fun b hb => (hrest b hb).imp fun _ hb => ⟨hb.1, hb.2.trans hoffset.symm⟩
      refine ⟨u, hu, hearliest.offset_eq.trans hoffset, hearliest.le_start.trans hlt.le, .inr ?_, ?_⟩
      · rcases hearliest.attained with rfl | ⟨b, hb, hstart⟩
        · exact ⟨a, List.mem_cons_self, ht⟩
        · exact ⟨b, List.mem_cons_of_mem a hb, hstart⟩
      · exact List.forall_mem_cons.mpr ⟨⟨t, ht, hearliest.le_start⟩, hearliest.le_item⟩
    · rw [if_neg hlt]
      obtain ⟨u, hu, hearliest⟩ := ih hrest
      refine ⟨u, hu, hearliest.offset_eq, hearliest.le_start, ?_, ?_⟩
      · exact hearliest.attained.imp_right fun ⟨b, hb, hstart⟩ => ⟨b, List.mem_cons_of_mem a hb, hstart⟩
      · exact List.forall_mem_cons.mpr ⟨⟨t, ht, hearliest.le_start.trans (not_lt.mp hlt)⟩, hearliest.le_item⟩

/-- If an earliest start is told, so are the starts of all items. -/
theorem exists_startOf_of_earliestOf {earliest m : Moment} (h : earliestOf startOf earliest items = .ok m) :
    ∀ a ∈ items, ∃ start, startOf a = .ok start := by
  induction items generalizing earliest with
  | nil => simp
  | cons a rest ih =>
    obtain ⟨start, hstart, h⟩ := bind_eq_ok_iff.mp h
    obtain ⟨less, -, h⟩ := bind_eq_ok_iff.mp h
    exact List.forall_mem_cons.mpr ⟨⟨start, hstart⟩, ih h⟩

theorem isEarliest_of_earliestOf {m : Moment} (h : earliestOf startOf (.proper start) items = .ok m)
    (hproper : ∀ a ∈ items, ∀ child, startOf a = .ok child →
      ∃ t : Instant, child = .proper t ∧ t.offset = start.offset) :
    ∃ u, m = .proper u ∧ IsEarliest startOf items start u := by
  have hstarts : ∀ a ∈ items, ∃ t, startOf a = .ok (.proper t) ∧ t.offset = start.offset := by
    intro a ha
    obtain ⟨child, hchild⟩ := exists_startOf_of_earliestOf h a ha
    obtain ⟨t, rfl, hoffset⟩ := hproper a ha child hchild
    exact ⟨t, hchild, hoffset⟩
  obtain ⟨u, hu, hearliest⟩ := exists_earliestOf hstarts
  exact ⟨u, Except.ok.inj (h.symm.trans hu), hearliest⟩

/-- There is one earliest start, whatever the order of the items and however often they occur. -/
theorem IsEarliest.unique {β : Type} {startOf' : β → Except PlanError Moment} {items' : List β} {u u' : Instant}
    (h : IsEarliest startOf items start u) (h' : IsEarliest startOf' items' start u')
    (hitems : ∀ a ∈ items, ∃ b ∈ items', startOf' b = startOf a)
    (hitems' : ∀ b ∈ items', ∃ a ∈ items, startOf a = startOf' b) : u = u' := by
  have hle : u.micros ≤ u'.micros := by
    rcases h'.attained with rfl | ⟨b, hb, hstart⟩
    · exact h.le_start
    · obtain ⟨a, ha, heq⟩ := hitems' b hb
      obtain ⟨t, ht, hbound⟩ := h.le_item a ha
      obtain rfl := Given.proper.inj (Except.ok.inj (ht.symm.trans (heq.trans hstart)))
      exact hbound
  have hge : u'.micros ≤ u.micros := by
    rcases h.attained with rfl | ⟨a, ha, hstart⟩
    · exact h'.le_start
    · obtain ⟨b, hb, heq⟩ := hitems a ha
      obtain ⟨t, ht, hbound⟩ := h'.le_item b hb
      obtain rfl := Given.proper.inj (Except.ok.inj (ht.symm.trans (heq.trans hstart)))
      exact hbound
  exact Instant.ext_micros (le_antisymm hle hge) (h.offset_eq.trans h'.offset_eq.symm)

theorem IsEarliest.earliestOf_eq {β : Type} {startOf' : β → Except PlanError Moment} {items' : List β} {u : Instant}
    (h : IsEarliest startOf items start u)
    (hoffset : ∀ a ∈ items, ∀ t : Instant, startOf a = .ok (.proper t) → t.offset = start.offset)
    (hitems : ∀ a ∈ items, ∃ b ∈ items', startOf' b = startOf a)
    (hitems' : ∀ b ∈ items', ∃ a ∈ items, startOf a = startOf' b) :
    SupplyPlan.earliestOf startOf' (.proper start) items' = .ok (.proper u) := by
  have hstarts : ∀ b ∈ items', ∃ t, startOf' b = .ok (.proper t) ∧ t.offset = start.offset := by
    intro b hb
    obtain ⟨a, ha, heq⟩ := hitems' b hb
    obtain ⟨t, ht, -⟩ := h.le_item a ha
    exact ⟨t, heq.symm.trans ht, hoffset a ha t ht⟩
  obtain ⟨u', hu', h'⟩ := exists_earliestOf hstarts
  rw [hu', h.unique h' hitems hitems']

/-- No earliest start is told if the start of an item is not, or if two of them cannot be compared. -/
theorem earliestOf_eq_error {earliest : Moment} {e : PlanError} (h : earliestOf startOf earliest items = .error e) :
    e = .typeMismatch ∨ ∃ a ∈ items, startOf a = .error e := by
  induction items generalizing earliest with
  | nil => cases h
  | cons a rest ih =>
    rcases bind_eq_error_iff.mp h with hstart | ⟨start, -, h⟩
    · exact .inr ⟨a, List.mem_cons_self, hstart⟩
    · rcases bind_eq_error_iff.mp h with hlt | ⟨less, -, h⟩
      · exact .inl (Moment.lt_eq_error hlt)
      · exact (ih h).imp_right fun ⟨b, hb, hstart⟩ => ⟨b, List.mem_cons_of_mem a hb, hstart⟩

end Earliest

end SupplyPlan
