import Mathlib.Data.List.Perm.Subperm
import SupplyPlan.Proofs.Explosion.Walk

namespace SupplyPlan

namespace Planner

variable {p : Planner} {facility : Option Text} {records : List BomComponent} {fuel fuel' : Nat} {path : List Text}
  {product : Text}

/-- The products above and a product below them are different, and all but the first are components of some records.
Together with the fuel that is left there are more of them than there are records. -/
structure HasRoom (records : List BomComponent) (fuel : Nat) (path : List Text) (product : Text) : Prop where
  distinct : path.Nodup
  components : ∀ name ∈ (path ++ [product]).tail, name ∈ records.map (·.component)
  room : records.length + 2 ≤ fuel + path.length

theorem hasRoom_root (hfuel : records.length + 2 ≤ fuel) (root : Text) : HasRoom records fuel [] root where
  distinct := .nil
  components := by simp
  room := hfuel

namespace HasRoom

/-- Different components are no more than the records, so some fuel is left. -/
theorem fuel_pos (h : HasRoom records fuel path product) : 0 < fuel := by
  by_contra hzero
  have hroom := h.room
  cases path with
  | nil => simp at hroom; omega
  | cons first rest =>
    have hsubset : rest ⊆ records.map (·.component) := by
      intro name hname
      exact h.components name (by simp [hname])
    have hlength := (List.subperm_of_subset (List.nodup_cons.mp h.distinct).2 hsubset).length_le
    simp only [List.length_map, List.length_cons] at hlength hroom
    omega

theorem down (h : HasRoom records (fuel + 1) path product) (hnew : product ∉ path) {c : BomComponent}
    (hc : c ∈ records) : HasRoom records fuel (path ++ [product]) c.component where
  distinct := List.nodup_append.mpr ⟨h.distinct, List.nodup_singleton product, by
    rintro a ha _ hb rfl
    exact hnew (List.mem_singleton.mp hb ▸ ha)⟩
  components := by
    intro name hname
    rw [List.tail_append_of_ne_nil (by simp)] at hname
    rcases List.mem_append.mp hname with habove | hbelow
    · exact h.components name habove
    · exact List.mem_map.mpr ⟨c, hc, (List.mem_singleton.mp hbelow).symm⟩
  room := by
    have hroom := h.room
    simp only [List.length_append, List.length_singleton]
    omega

end HasRoom

theorem mem_records_of_componentsOf {components : List BomComponent} {required : Moment}
    (hrecords : p.bom.toList = .ok records) (h : p.componentsOf (some product) (some required) = .ok components)
    {c : BomComponent} (hc : c ∈ components) : c ∈ records :=
  (Store.mem_toList_iff hrecords).mpr ((mem_componentsOf_iff h).mp hc).1

/-- More fuel than there is room for changes nothing. -/
theorem explodeWithin_eq_of_hasRoom (hrecords : p.bom.toList = .ok records) (h : HasRoom records fuel path product)
    (h' : HasRoom records fuel' path product) :
    p.explodeWithin facility fuel path product = p.explodeWithin facility fuel' path product := by
  funext required
  induction fuel generalizing fuel' path product required with
  | zero => exact absurd h.fuel_pos (lt_irrefl 0)
  | succ fuel ih =>
    cases fuel' with
    | zero => exact absurd h'.fuel_pos (lt_irrefl 0)
    | succ fuel' =>
      by_cases hmem : product ∈ path
      · simp [explodeWithin, hmem]
      · have hbelow : p.explodeBelow facility (p.explodeWithin facility fuel (path ++ [product])) product required =
            p.explodeBelow facility (p.explodeWithin facility fuel' (path ++ [product])) product required := by
          refine explodeBelow_congr fun components hcomponents c hc => funext ?_
          have hrecord := mem_records_of_componentsOf hrecords hcomponents hc
          exact ih (h.down hmem hrecord) (h'.down hmem hrecord)
        simp only [explodeWithin, hbelow]

theorem explosionStart_eq (hrecords : p.bom.toList = .ok records) (root : Text) (required : Moment) :
    p.explosionStart (some root) facility (some required) =
      p.explodeWithin facility (records.length + 2) [] root required := by
  simp [explosionStart, Store.length, hrecords, bind, Except.bind]

end Planner

end SupplyPlan
