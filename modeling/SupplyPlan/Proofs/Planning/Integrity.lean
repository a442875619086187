import SupplyPlan.Proofs.Planning.Interchange
import SupplyPlan.Proofs.Planning.Proposal
import SupplyPlan.Proofs.Planning.Settings
import SupplyPlan.Proofs.Store.Keys

namespace SupplyPlan

open Planning

/-- Every product that stands in for another one comes before it. -/
def VirtualsComeFirst (records : List Product) : Prop :=
  ∀ (j : Nat) (record : Product), records[j]? = some record → ∀ other ∈ record.virtualProduct,
    ∃ (i : Nat) (target : Product), i < j ∧ records[i]? = some target ∧ target.id = some other

/-- A product that comes last may stand in for none, and may have any product before it stand in for it. -/
theorem VirtualsComeFirst.append {records : List Product} (h : VirtualsComeFirst records) {last : Product}
    (hlast : ∀ other ∈ last.virtualProduct, ∃ target ∈ records, target.id = some other) :
    VirtualsComeFirst (records ++ [last]) := by
  have hkept {i : Nat} {record : Product} (hi : records[i]? = some record) :
      (records ++ [last])[i]? = some record := by
    rw [List.getElem?_append_left (List.getElem?_eq_some_iff.mp hi).1, hi]
  intro j record hj other hother
  by_cases hlt : j < records.length
  · rw [List.getElem?_append_left hlt] at hj
    obtain ⟨i, target, hi, htarget, hid⟩ := h j record hj other hother
    exact ⟨i, target, hi, hkept htarget, hid⟩
  · have heq : j = records.length := by
      have hbound := (List.getElem?_eq_some_iff.mp hj).1
      rw [List.length_append, List.length_singleton] at hbound
      omega
    have hrecord : last = record := by simpa [heq] using hj
    obtain ⟨target, hmem, hid⟩ := hlast other (hrecord ▸ hother)
    obtain ⟨i, hi⟩ := List.mem_iff_getElem?.mp hmem
    exact ⟨i, target, heq ▸ (List.getElem?_eq_some_iff.mp hi).1, hkept hi, hid⟩

namespace Planner

variable {p q : Planner} {Known : Text → Prop} {part : Option Part} {id other : Text} {product : Product}

def IsRegistered (p : Planner) (id : Text) : Prop := ∃ product, p.products.get (.text id) = .ok product

/-- The second product stands in for the first one. -/
def HasVirtual (p : Planner) (id other : Text) : Prop :=
  ∃ product, p.products.get (.text id) = .ok product ∧ product.virtualProduct = some other

/-- All stores are empty, whatever kinds they are of. -/
structure HasNoRecords (p : Planner) : Prop where
  products : p.products.entries = []
  facilities : p.facilities.entries = []
  calendars : p.calendars.entries = []
  routings : p.routings.entries = []
  bom : p.bom.entries = []
  requirements : p.requirements.entries = []

/-- The records that planning starts from stand under their own ids and refer to registered products: a virtual product
is registered earlier than the product it stands in for, and a bill of material joins two different products. Shipping
days are not negative, and no calendar is without shifts. -/
structure HasSoundMasterData (p : Planner) : Prop where
  products_keyed : p.products.IsKeyed (·.id)
  facilities_keyed : p.facilities.IsKeyed fun settings => some settings.key
  calendars_keyed : p.calendars.IsKeyed (·.id)
  routings_keyed : p.routings.IsKeyed fun routing => some routing.id
  bom_keyed : p.bom.IsKeyed fun record => some record.id
  products_orderly : p.products.IsOrderly
  virtual_earlier : ∀ records, p.products.toList = .ok records → VirtualsComeFirst records
  facility_product : ∀ e ∈ p.facilities.entries, ∃ id ∈ e.2.product, p.IsRegistered id
  shippingDays : ∀ e ∈ p.facilities.entries, e.2.daysToShip.lt (.proper (.int 0)) = .ok false
  calendar_shifts : ∀ e ∈ p.calendars.entries, e.2.shifts ≠ []
  routing_product : ∀ e ∈ p.routings.entries, p.IsRegistered e.2.product
  bom_products : ∀ e ∈ p.bom.entries,
    p.IsRegistered e.2.product ∧ p.IsRegistered e.2.component ∧ e.2.product ≠ e.2.component

/-- Requirements stand under their own ids and are for registered products that are not work in process. -/
structure HasSoundRequirements (p : Planner) : Prop where
  requirements_keyed : p.requirements.IsKeyed fun requirement => some requirement.id
  requirement_product : ∀ e ∈ p.requirements.entries, ∃ id product,
    e.2.product = some id ∧ p.products.get (.text id) = .ok product ∧ product.productType ≠ .workInProcess

structure HasIntegrity (p : Planner) : Prop extends HasSoundMasterData p, HasSoundRequirements p

theorem HasNoRecords.hasIntegrity (h : p.HasNoRecords) : p.HasIntegrity where
  products_keyed := Store.isKeyed_of_entries_eq_nil h.products _
  facilities_keyed := Store.isKeyed_of_entries_eq_nil h.facilities _
  calendars_keyed := Store.isKeyed_of_entries_eq_nil h.calendars _
  routings_keyed := Store.isKeyed_of_entries_eq_nil h.routings _
  bom_keyed := Store.isKeyed_of_entries_eq_nil h.bom _
  requirements_keyed := Store.isKeyed_of_entries_eq_nil h.requirements _
  products_orderly := Store.isOrderly_of_entries_eq_nil h.products
  virtual_earlier records hrecords j record hj := by
    obtain ⟨key, hmem⟩ := (Store.mem_toList_iff hrecords).mp (List.mem_of_getElem? hj)
    rw [h.products] at hmem
    cases hmem
  facility_product := by simp [h.facilities]
  shippingDays := by simp [h.facilities]
  calendar_shifts := by simp [h.calendars]
  routing_product := by simp [h.routings]
  bom_products := by simp [h.bom]
  requirement_product := by simp [h.requirements]

theorem HasNoRecords.not_isRegistered (h : p.HasNoRecords) (id : Text) : ¬ p.IsRegistered id := by
  rintro ⟨product, hget⟩
  have hget : p.products.get (.named (some id)) = .ok product := hget
  have hmem := Store.mem_entries_of_get hget
  rw [h.products] at hmem
  cases hmem

theorem HasSoundMasterData.days_nonneg (h : p.HasSoundMasterData) {e : RecordId × ProductFacility}
    (he : e ∈ p.facilities.entries) {days : Int} (hdays : e.2.daysToShip = .proper (.int days)) : 0 ≤ days := by
  have hnotLess : Quantity.lt (.int days) (.int 0) = false := Except.ok.inj (hdays ▸ h.shippingDays e he)
  rw [Quantity.lt_int, decide_eq_false_iff_not, not_lt] at hnotLess
  exact hnotLess

/-- Whoever follows virtual products goes back in the list of products. -/
theorem HasSoundMasterData.exists_earlier (h : p.HasSoundMasterData) {records : List Product}
    (hrecords : p.products.toList = .ok records) (hchain : Relation.TransGen p.HasVirtual id other) {j : Nat}
    {record : Product} (hj : records[j]? = some record) (hid : record.id = some id) :
    ∃ (i : Nat) (target : Product), i < j ∧ records[i]? = some target ∧ target.id = some other := by
  have hlink {id other : Text} (hvirtual : p.HasVirtual id other) {j : Nat} {record : Product}
      (hj : records[j]? = some record) (hid : record.id = some id) :
      ∃ (i : Nat) (target : Product), i < j ∧ records[i]? = some target ∧ target.id = some other := by
    obtain ⟨product, hget, hother⟩ := hvirtual
    obtain rfl := h.products_keyed.eq_of_get hrecords (List.mem_of_getElem? hj) hid hget
    exact h.virtual_earlier records hrecords j record hj other hother
  induction hchain with
  | single hvirtual => exact hlink hvirtual hj hid
  | tail _ hvirtual ih =>
    obtain ⟨i, target, hi, htarget, hid'⟩ := ih
    obtain ⟨i', target', hi', htarget', hother⟩ := hlink hvirtual htarget hid'
    exact ⟨i', target', hi'.trans hi, htarget', hother⟩

theorem HasSoundMasterData.not_transGen_hasVirtual (h : p.HasSoundMasterData) (id : Text) :
    ¬ Relation.TransGen p.HasVirtual id id := by
  intro hcycle
  obtain ⟨_, ⟨product, hget, -⟩, -⟩ := Relation.TransGen.head'_iff.mp hcycle
  have hopen : p.products.kind ≠ .closed := by
    intro hclosed
    cases hstore : p.products <;> simp_all [Store.kind, Store.get]
  obtain ⟨records, hrecords⟩ := Store.exists_toList hopen
  -- No product of the list can have the id of a cycle, as there would be an earlier one with it.
  have habsent (j : Nat) : ∀ record, records[j]? = some record → record.id ≠ some id := by
    induction j using Nat.strong_induction_on with
    | h j ih =>
      intro record hj hid
      obtain ⟨i, target, hi, htarget, hid'⟩ := h.exists_earlier hrecords hcycle hj hid
      exact ih i hi target htarget hid'
  have hget : p.products.get (.named (some id)) = .ok product := hget
  obtain ⟨id', hname, hid⟩ := h.products_keyed.of_get hget
  obtain ⟨j, hj⟩ := List.mem_iff_getElem?.mp
    ((Store.mem_toList_iff hrecords).mpr ⟨_, Store.mem_entries_of_get hget⟩)
  exact habsent j product hj (hid.trans hname.symm)

/-- A registered product is never changed. -/
theorem get_of_change (h : p.products.get (.text id) = .ok product) (hchange : p.Change Known part q) :
    q.products.get (.text id) = .ok product := by
  cases hchange with
  | product hid hknown hvirtual hadd => exact Store.get_of_add hadd h
  | _ => exact h

theorem IsRegistered.of_change (hchange : p.Change Known part q) (h : p.IsRegistered id) : q.IsRegistered id :=
  h.imp fun _ hget => get_of_change hget hchange

/-- What stands in for a product did so before, or the product is new and what stands in for it was there. -/
theorem HasVirtual.of_change (h : q.HasVirtual id other) (hchange : p.Change Known part q) :
    p.HasVirtual id other ∨ p.IsRegistered other ∧ ¬ p.IsRegistered id := by
  cases hchange with
  | @product record added products hid hknown hvirtual hadd =>
    obtain ⟨product, hget, hother⟩ := h
    by_cases hne : id = added
    · subst hne
      obtain rfl := Except.ok.inj ((Store.get_added hadd).symm.trans hget)
      refine .inr ⟨Store.exists_get_of_contains (hvirtual other hother), ?_⟩
      rintro ⟨product, hheld⟩
      rw [Store.get_of_add_eq_error hadd] at hheld
      cases hheld
    · exact .inl ⟨product, (Store.get_add_of_ne hadd hne).symm.trans hget, hother⟩
  | _ => exact .inl h

/-- A product that is registered comes behind the one that stands in for it. -/
theorem HasSoundMasterData.virtualsComeFirst_of_add (h : p.HasSoundMasterData) {products : Store Product}
    (hvirtual : ∀ other ∈ product.virtualProduct, p.products.contains (.text other) = .ok true)
    (hadd : p.products.add (.text id) product = .ok products) {after : List Product}
    (hafter : products.toList = .ok after) : VirtualsComeFirst after := by
  obtain ⟨records, hrecords, hrecords'⟩ := h.products_orderly.toList_add hadd
  obtain rfl := Except.ok.inj (hrecords'.symm.trans hafter)
  refine (h.virtual_earlier records hrecords).append fun other hother => ?_
  obtain ⟨target, hget⟩ := Store.exists_get_of_contains (hvirtual other hother)
  have hget : p.products.get (.named (some other)) = .ok target := hget
  obtain ⟨id', hname, hid'⟩ := h.products_keyed.of_get hget
  exact ⟨target, (Store.mem_toList_iff hrecords).mpr ⟨_, Store.mem_entries_of_get hget⟩, hid'.trans hname.symm⟩

/-- Every change keeps the master data sound: what is stored anew was checked when the change was made. -/
theorem HasSoundMasterData.of_change (h : p.HasSoundMasterData) (hchange : p.Change Known part q) :
    q.HasSoundMasterData := by
  have hregistered {id : Text} (hid : p.IsRegistered id) : q.IsRegistered id := hid.of_change hchange
  cases hchange with
  | @product record id products hid hknown hvirtual hadd =>
    exact { h with
      products_keyed := h.products_keyed.of_add hadd hid
      products_orderly := h.products_orderly.of_add hadd
      virtual_earlier := fun _ => h.virtualsComeFirst_of_add hvirtual hadd
      facility_product := fun e he => (h.facility_product e he).imp fun _ => .imp_right hregistered
      routing_product := fun e he => hregistered (h.routing_product e he)
      bom_products := fun e he => (h.bom_products e he).imp hregistered (.imp_left hregistered) }
  | @facility settings given product facilities hproduct hdays hupsert =>
    have hnamed : p.facilities.upsert (.named (some settings.key)) settings = .ok facilities := hupsert
    refine { h with
      facilities_keyed := h.facilities_keyed.of_upsert hupsert rfl
      facility_product := fun e he => ?_
      shippingDays := fun e he => ?_ }
    · rcases Store.mem_entries_of_upsert hnamed he with rfl | he
      · obtain ⟨id, hname, -⟩ := h.products_keyed.of_get hproduct
        rw [hname] at hproduct
        exact ⟨id, hname, product, hproduct⟩
      · exact h.facility_product e he
    · rcases Store.mem_entries_of_upsert hnamed he with rfl | he
      · exact Amount.lt_zero_of_larger hdays
      · exact h.shippingDays e he
  | calendar hid hknown hshifts hadd =>
    refine { h with calendars_keyed := h.calendars_keyed.of_add hadd hid, calendar_shifts := fun e he => ?_ }
    rcases (Store.mem_entries_of_add hadd e).mp he with rfl | he
    · exact hshifts
    · exact h.calendar_shifts e he
  | calendarEdited hedit =>
    refine { h with
      calendars_keyed := h.calendars_keyed.of_editFetched hedit fun _ => rfl
      calendar_shifts := fun e he => ?_ }
    obtain ⟨held, hget, rfl | hupsert⟩ := Store.editFetched_eq_ok hedit
    · exact h.calendar_shifts e he
    · rcases Store.mem_entries_of_upsert hupsert he with rfl | he
      · exact h.calendar_shifts (_, held) (Store.mem_entries_of_get hget)
      · exact h.calendar_shifts e he
  | @calendarReplaced name held record calendars hget hid hshifts hupsert =>
    obtain ⟨id, -, hheld⟩ := h.calendars_keyed.of_get hget
    have hrecord : record.id = some id := hid.trans hheld
    rw [hrecord] at hupsert
    refine { h with
      calendars_keyed := h.calendars_keyed.of_upsert hupsert hrecord
      calendar_shifts := fun e he => ?_ }
    rcases Store.mem_entries_of_upsert hupsert he with rfl | he
    · rw [hshifts]
      exact h.calendar_shifts (_, held) (Store.mem_entries_of_get hget)
    · exact h.calendar_shifts e he
  | routing hknown hproduct hcalendars hadd =>
    refine { h with routings_keyed := h.routings_keyed.of_add hadd rfl, routing_product := fun e he => ?_ }
    rcases (Store.mem_entries_of_add hadd e).mp he with rfl | he
    · exact Store.exists_get_of_contains hproduct
    · exact h.routing_product e he
  | component record hknown hids hproduct hcomponent hne hadd =>
    refine { h with bom_keyed := h.bom_keyed.of_add hadd rfl, bom_products := fun e he => ?_ }
    rcases (Store.mem_entries_of_add hadd e).mp he with rfl | he
    · exact ⟨Store.exists_get_of_contains hproduct, Store.exists_get_of_contains hcomponent, hne⟩
    · exact h.bom_products e he
  | requirement | options | bound | estimator => exact { h with }

theorem HasSoundRequirements.of_recorded {order : ProposedOrder} {result : Except PlanError (Option Text)}
    (h : p.HasSoundRequirements) (hid : order.product.id = some id)
    (hget : p.products.get (.text id) = .ok order.product) (hrecorded : order.Recorded p result q) :
    q.HasSoundRequirements := by
  cases hrecorded with
  | omitted | failed => exact h
  | added recordId hproduct hstart hadd =>
    refine ⟨h.requirements_keyed.of_add hadd rfl, fun e he => ?_⟩
    rcases (Store.mem_entries_of_add hadd e).mp he with rfl | he
    · exact ⟨id, order.product, hid, hget, hproduct⟩
    · exact h.requirement_product e he

theorem HasIntegrity.of_proposed {request : ProposalRequest} {result : Except PlanError ProposalOutcome}
    (h : p.HasIntegrity) (hproposed : request.Proposed p result q) : q.HasSoundRequirements := by
  cases hproposed with
  | failed => exact h.toHasSoundRequirements
  | made horder hrecorded =>
    have hget := (request.isAnsweredBy_of_order horder).product
    obtain ⟨id, hname, hid⟩ := h.products_keyed.of_get hget
    rw [hname] at hget
    exact h.toHasSoundRequirements.of_recorded hid hget hrecorded

/-- One operation keeps the integrity, whether it fails or not, unless it records an order that is given to it. -/
theorem HasIntegrity.after {s : Session} (h : s.planner.HasIntegrity) {op : Operation}
    (hop : ∀ order, op ≠ .createRequirement order) : (s.after op).planner.HasIntegrity := by
  refine ⟨Session.keeps_after HasSoundMasterData.of_change h.toHasSoundMasterData op, ?_⟩
  -- A change of the requirements says nothing about their products, so proposals are looked at as a whole.
  by_cases hpart : op.part = some .requirements
  · cases op with
    | createRequirement order => exact absurd rfl (hop order)
    | proposeOrder request =>
      have hafter := congrArg Session.planner (perform_bind_pure (proposeOrder request) Answer.outcome s)
      exact hafter ▸ h.of_proposed (proposeOrder_proposed request s)
    | _ => cases hpart
  · have hkept := (s.after_agreesOutside op).requirements hpart
    refine ⟨hkept ▸ h.requirements_keyed, fun e he => ?_⟩
    obtain ⟨id, product, hproduct, hget, hnotWip⟩ := h.requirement_product e (hkept ▸ he)
    exact ⟨id, product, hproduct, Session.keeps_after get_of_change hget op, hnotWip⟩

end Planner

namespace Session

variable {s : Session} {id other : Text}

theorem hasIntegrity_foldl (h : s.planner.HasIntegrity) {ops : List Operation}
    (hops : ∀ op ∈ ops, ∀ order, op ≠ .createRequirement order) : (ops.foldl after s).planner.HasIntegrity := by
  induction ops generalizing s with
  | nil => exact h
  | cons op rest ih =>
    exact ih (h.after (hops op List.mem_cons_self)) fun op hop => hops op (List.mem_cons_of_mem _ hop)

theorem hasVirtual_of_after {op : Operation} (h : (s.after op).planner.HasVirtual id other) :
    s.planner.HasVirtual id other ∨ s.planner.IsRegistered other ∧ ¬ s.planner.IsRegistered id := by
  by_cases hpart : op.part = some .products
  · cases op with
    | registerProduct d =>
      have hafter := congrArg Session.planner (perform_bind_pure (registerProduct d) Answer.product s)
      rw [after, Operation.run, hafter] at h
      rcases (registerProduct_makesOne .all d fun _ _ => trivial).eq_or_change rfl with hsame | hchange
      · exact .inl (hsame ▸ h)
      · exact h.of_change hchange
    | _ => cases hpart
  · obtain ⟨product, hget, hother⟩ := h
    exact .inl ⟨product, (s.after_agreesOutside op).products hpart ▸ hget, hother⟩

/-- What stands in for a product was registered at a time when the product itself was not. -/
theorem exists_prefix_of_hasVirtual (hnone : ∀ id, ¬ s.planner.IsRegistered id) {ops : List Operation}
    (h : (ops.foldl after s).planner.HasVirtual id other) :
    ∃ earlier, earlier <+: ops ∧ (earlier.foldl after s).planner.IsRegistered other ∧
      ¬ (earlier.foldl after s).planner.IsRegistered id := by
  induction ops using List.reverseRecOn with
  | nil =>
    obtain ⟨product, hget, -⟩ := h
    exact absurd ⟨product, hget⟩ (hnone id)
  | append_singleton ops op ih =>
    rw [List.foldl_concat] at h
    rcases hasVirtual_of_after h with hbefore | hnew
    · obtain ⟨earlier, hearlier, hregistered⟩ := ih hbefore
      exact ⟨earlier, hearlier.trans (List.prefix_append ops [op]), hregistered⟩
    · exact ⟨ops, List.prefix_append ops [op], hnew⟩

/-- Whatever operations follow on empty stores, and whether they fail or not, the records keep their integrity if orders
are only recorded by proposals. -/
theorem operations_keepIntegrity (s : Session) (h : s.planner.HasNoRecords) (ops : List Operation)
    (hops : ∀ op ∈ ops, ∀ order, op ≠ .createRequirement order) :
    (ops.foldl after s).planner.HasIntegrity ∧
      (∀ id other, (ops.foldl after s).planner.HasVirtual id other →
        ∃ earlier, earlier <+: ops ∧ (earlier.foldl after s).planner.IsRegistered other ∧
          ¬ (earlier.foldl after s).planner.IsRegistered id) ∧
      (∀ id, ¬ Relation.TransGen (ops.foldl after s).planner.HasVirtual id id) ∧
      ∀ e ∈ (ops.foldl after s).planner.facilities.entries, ∀ days,
        e.2.daysToShip = .proper (.int days) → 0 ≤ days := by
  have hsound := hasIntegrity_foldl h.hasIntegrity hops
  refine ⟨hsound, fun id other hvirtual => ?_, hsound.not_transGen_hasVirtual, fun e he days hdays => ?_⟩
  · exact exists_prefix_of_hasVirtual h.not_isRegistered hvirtual
  · exact hsound.days_nonneg he hdays

end Session

namespace Operation

def registerVariant (id virtualProduct : Text) : Operation :=
  registerProduct
    { id := some id
      name := none
      productType := .finishedGood
      isVirtual := none
      virtualProduct := some virtualProduct }

/-- A bench is made like a table. A stool, a bench of benches and an order for the work in process are refused. -/
def tableAndBench : List Operation :=
  tableAndHolidays ++
    [registerVariant "STOOL" "STOOL", registerVariant "BENCH" "TABLE", ship "BENCH" (-3), build "BENCH" "BENCH",
      build "BENCH" "LEGS", createRouting (some "BOARD") none [] ⟨none, none⟩,
      proposeOrder (.made "BENCH" (.proper (.atNoon ⟨738623, by decide⟩))),
      proposeOrder (.made "LEGS" (.proper (.atNoon ⟨738623, by decide⟩)))]

end Operation

/-- The table was registered before the bench, and only the bench is ordered. -/
theorem Session.operations_keepIntegrity_tableAndBench :
    ∃ s ops q, s = start ∧ ops = Operation.tableAndBench ∧ q = (ops.foldl after s).planner ∧ s.planner.HasNoRecords ∧
      (∀ op ∈ ops, ∀ order, op ≠ .createRequirement order) ∧
      q.requirements.entries.map (·.2.product) = [some ↑"BENCH"] ∧ q.HasVirtual "BENCH" "TABLE" ∧ q.HasIntegrity ∧
      ∃ earlier, earlier <+: ops ∧ (earlier.foldl after s).planner.IsRegistered "TABLE" ∧
        ¬ (earlier.foldl after s).planner.IsRegistered "BENCH" := by
  obtain ⟨s, hs⟩ : ∃ s, s = start := exists_eq
  obtain ⟨ops, hlist⟩ : ∃ ops, ops = Operation.tableAndBench := exists_eq
  have hnone : s.planner.HasNoRecords := hs ▸ ⟨rfl, rfl, rfl, rfl, rfl, rfl⟩
  have hops : ∀ op ∈ ops, ∀ order, op ≠ .createRequirement order := by
    rw [hlist]
    simp [Operation.tableAndBench, Operation.tableAndHolidays, Operation.table, Operation.register, Operation.ship,
      Operation.build, Operation.registerVariant]
  have hordered : (ops.foldl after s).planner.requirements.entries.map (·.2.product) = [some ↑"BENCH"] := by
    rw [hs, hlist]
    decide +kernel
  have hbench : ((ops.foldl after s).planner.products.get (.text "BENCH")).toOption =
      some ⟨some "BENCH", none, .finishedGood, none, some "TABLE"⟩ := by
    rw [hs, hlist]
    decide +kernel
  have hvirtual : (ops.foldl after s).planner.HasVirtual "BENCH" "TABLE" := by
    cases hget : (ops.foldl after s).planner.products.get (.text "BENCH") with
    | ok product =>
      rw [hget] at hbench
      exact ⟨product, hget, Option.some.inj hbench ▸ rfl⟩
    | error e =>
      rw [hget] at hbench
      cases hbench
  obtain ⟨hsound, hearlier, -⟩ := operations_keepIntegrity s hnone ops hops
  exact ⟨s, ops, _, hs, hlist, rfl, hnone, hops, hordered, hvirtual, hsound, hearlier _ _ hvirtual⟩

end SupplyPlan
