import SupplyPlan.Proofs.Planning.Change

namespace SupplyPlan

/-- The sessions that begin with a fresh planner, in memory or on tables, and go on with any operations. -/
inductive Session.Reached : Session → Prop where
  | inMemory (ids : IdStream) (options : PlanningOptions) : Reached (fresh ids (.inMemory options))
  | onTables (ids : IdStream) (options : PlanningOptions) : Reached (fresh ids (.onTables options))
  | after {s : Session} (h : Reached s) (op : Operation) : Reached (s.after op)

theorem Session.Reached.foldl {s : Session} (h : s.Reached) (ops : List Operation) :
    (ops.foldl Session.after s).Reached := by
  induction ops generalizing s with
  | nil => exact h
  | cons op rest ih => exact ih (h.after op)

/-- The larger of an amount and zero is not less than zero. -/
theorem Amount.lt_zero_of_larger {given days : Amount}
    (h : given.larger (.proper (.int 0)) = .ok days) : days.lt (.proper (.int 0)) = .ok false := by
  obtain ⟨less, hless, h⟩ := bind_eq_ok_iff.mp h
  cases less with
  | true =>
    obtain rfl := Except.ok.inj h
    simp [Quantity.lt_int]
  | false =>
    obtain rfl := Except.ok.inj h
    exact hless

namespace Planner

variable {p q : Planner}

/-- All stores are open and of one kind, the components of the bills of material are registered, and shipping days are
not negative. -/
structure IsSound (p : Planner) : Prop where
  isOpen : p.products.kind ≠ .closed
  facilities_kind : p.facilities.kind = p.products.kind
  bom_kind : p.bom.kind = p.products.kind
  registered : ∀ e ∈ p.bom.entries, ∃ product, p.products.get (.text e.2.component) = .ok product
  shippingDays : ∀ e ∈ p.facilities.entries, e.2.daysToShip.lt (.proper (.int 0)) = .ok false

theorem IsSound.bom_isOpen (h : p.IsSound) : p.bom.kind ≠ .closed :=
  fun hclosed => h.isOpen (h.bom_kind.symm.trans hclosed)

theorem IsSound.facilities_isOpen (h : p.IsSound) : p.facilities.kind ≠ .closed :=
  fun hclosed => h.isOpen (h.facilities_kind.symm.trans hclosed)

theorem inMemory_isSound (options : PlanningOptions) : (inMemory options).IsSound where
  isOpen := nofun
  facilities_kind := rfl
  bom_kind := rfl
  registered := by simp [inMemory, Store.entries, Memory.empty]
  shippingDays := by simp [inMemory, Store.entries, Memory.empty]

theorem onTables_isSound (options : PlanningOptions) : (onTables options).IsSound where
  isOpen := nofun
  facilities_kind := rfl
  bom_kind := rfl
  registered := by simp [onTables, Store.entries, Table.empty]
  shippingDays := by simp [onTables, Store.entries, Table.empty]

theorem IsSound.of_change {Known : Text → Prop} {part : Option Part} (h : p.IsSound)
    (hchange : p.Change Known part q) : q.IsSound := by
  cases hchange with
  | product hid hknown hvirtual hadd =>
    have hkind := Store.kind_of_add hadd
    exact {
      isOpen := fun hclosed => h.isOpen (hkind.symm.trans hclosed)
      facilities_kind := h.facilities_kind.trans hkind.symm
      bom_kind := h.bom_kind.trans hkind.symm
      registered := fun e he => (h.registered e he).imp fun _ hget => Store.get_of_add hadd hget
      shippingDays := h.shippingDays }
  | facility settings hproduct hdays hupsert =>
    have hnamed : p.facilities.upsert (.named (some settings.key)) settings = .ok _ := hupsert
    refine { h with
      facilities_kind := (Store.kind_of_upsert hnamed).trans h.facilities_kind, shippingDays := fun e he => ?_ }
    rcases Store.mem_entries_of_upsert hnamed he with rfl | he
    · exact Amount.lt_zero_of_larger hdays
    · exact h.shippingDays e he
  | component record hknown hids hproduct hcomponent hne hadd =>
    refine { h with bom_kind := (Store.kind_of_add hadd).trans h.bom_kind, registered := fun e he => ?_ }
    rcases (Store.mem_entries_of_add hadd e).mp he with rfl | he
    · exact Store.exists_get_of_contains hcomponent
    · exact h.registered e he
  | _ => exact { h with }

end Planner

theorem Session.Reached.isSound {s : Session} (h : s.Reached) : s.planner.IsSound := by
  induction h with
  | inMemory ids options => exact Planner.inMemory_isSound options
  | onTables ids options => exact Planner.onTables_isSound options
  | after _ op ih => exact keeps_after Planner.IsSound.of_change ih op

namespace Operation

def register (id : Text) (productType : ProductType) : Operation :=
  registerProduct { id := some id, name := none, productType, isVirtual := none, virtualProduct := none }

def ship (product : Text) (days : Int) : Operation :=
  setProductFacility
    { product := some product
      facility := some standardFacility
      daysToShip := .proper (.int days)
      reorderQuantity := none
      minimumStock := none }

def build (product component : Text) : Operation :=
  addBomComponent (some product) (some component) (.proper (.int 1)) { fromDate := none, thruDate := none }

/-- A table is a top on legs, and both are cut from one kind of board. -/
def table : List Operation :=
  [register "TABLE" .finishedGood, register "TOP" .workInProcess, register "LEGS" .workInProcess,
    register "BOARD" .workInProcess, ship "TABLE" 1, ship "TOP" 2, ship "BOARD" 4, build "TABLE" "TOP",
    build "TABLE" "LEGS", build "TOP" "BOARD", build "LEGS" "BOARD"]

end Operation

def Session.table : Session := Operation.table.foldl Session.after (fresh .numbered (.inMemory .standard))

theorem Session.table_reached : Session.table.Reached := (Reached.inMemory .numbered .standard).foldl Operation.table

end SupplyPlan
