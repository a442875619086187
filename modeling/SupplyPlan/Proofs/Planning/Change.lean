import Mathlib.Logic.Relation
import SupplyPlan.Planning.Operation
import SupplyPlan.Proofs.Store.Entries

namespace SupplyPlan

/-- A later session draws from the same ids and takes none of them back. -/
structure Session.GoesOn (s s' : Session) : Prop where
  ids : s'.ids = s.ids
  drawn : s.drawn ≤ s'.drawn

namespace Session.GoesOn

variable {s s' s'' : Session}

theorem refl (s : Session) : s.GoesOn s := ⟨rfl, le_rfl⟩

theorem trans (h : s.GoesOn s') (h' : s'.GoesOn s'') : s.GoesOn s'' := ⟨h'.ids.trans h.ids, h.drawn.trans h'.drawn⟩

end Session.GoesOn

namespace Planning

variable {α β : Type} (s : Session)

theorem perform_bind (x : Planning α) (f : α → Planning β) :
    (x >>= f).perform s =
      match x.perform s with
      | (.ok a, s') => (f a).perform s'
      | (.error e, s') => (.error e, s') := by
  simp only [perform, ExceptT.run, StateT.run, bind, ExceptT.bind, ExceptT.mk, StateT.bind, ExceptT.bindCont]
  rcases x s with ⟨_ | _, s'⟩ <;> rfl

theorem perform_pure (a : α) : (pure a : Planning α).perform s = (.ok a, s) := rfl

theorem perform_planner : planner.perform s = (.ok s.planner, s) := rfl

theorem perform_setPlanner (p : Planner) : (setPlanner p).perform s = (.ok (), { s with planner := p }) := rfl

theorem perform_freshId :
    freshId.perform s = (.ok (s.ids.draw (s.drawn + 1)), { s with drawn := s.drawn + 1 }) := rfl

theorem perform_takeOver (x : Logged α) :
    (takeOver x).perform s = (x.result, { s with log := s.log ++ x.events }) := by
  unfold takeOver ofExcept
  rw [perform_bind]
  cases x.result <;> rfl

theorem perform_askLogged (f : Planner → Logged α) :
    (askLogged f).perform s = ((f s.planner).result, { s with log := s.log ++ (f s.planner).events }) := by
  unfold askLogged
  rw [perform_bind, perform_planner]
  exact perform_takeOver s _

theorem perform_ask (f : Planner → Except PlanError α) : (ask f).perform s = (f s.planner, s) := by
  unfold ask
  rw [perform_bind, perform_planner]
  simp only [perform_takeOver, List.append_nil]

theorem perform_log (e : Event) : (log e).perform s = (.ok (), { s with log := s.log ++ [e] }) := rfl

variable {x : Planning α} {f : α → Planning β} {p : Planner} {Q : α → Prop}

/-- From a planner an operation only returns values with a property, and it leaves the planner as it is. -/
def Returns (x : Planning α) (p : Planner) (Q : α → Prop) : Prop :=
  ∀ s, s.planner = p → (x.perform s).2.planner = p ∧ s.GoesOn (x.perform s).2 ∧ ∀ a, (x.perform s).1 = .ok a → Q a

theorem Returns.bind {Q' : β → Prop} (hx : x.Returns p Q) (hf : ∀ a, Q a → (f a).Returns p Q') :
    (x >>= f).Returns p Q' := by
  intro s hs
  obtain ⟨hplanner, hgoes, hresult⟩ := hx s hs
  rw [perform_bind]
  rcases hperform : x.perform s with ⟨e | a, s'⟩
  · rw [hperform] at hplanner hgoes
    exact ⟨hplanner, hgoes, fun _ h => nomatch h⟩
  · rw [hperform] at hplanner hgoes hresult
    obtain ⟨hafter, hgoes', hresult'⟩ := hf a (hresult a rfl) s' hplanner
    exact ⟨hafter, hgoes.trans hgoes', hresult'⟩

theorem Returns.imp {Q' : α → Prop} (hx : x.Returns p Q) (h : ∀ a, Q a → Q' a) : x.Returns p Q' := by
  intro s hs
  obtain ⟨hplanner, hgoes, hresult⟩ := hx s hs
  exact ⟨hplanner, hgoes, fun a ha => h a (hresult a ha)⟩

theorem returns_pure (a : α) : (pure a : Planning α).Returns p (· = a) := by
  rintro s rfl
  exact ⟨rfl, .refl s, fun _ h => (Except.ok.inj h).symm⟩

theorem returns_fail (e : PlanError) : (fail e : Planning α).Returns p Q := by
  rintro s rfl
  exact ⟨rfl, .refl s, fun _ h => nomatch h⟩

theorem returns_askLogged (f : Planner → Logged α) : (askLogged f).Returns p fun a => (f p).result = .ok a := by
  rintro s rfl
  rw [perform_askLogged]
  exact ⟨rfl, ⟨rfl, le_rfl⟩, fun _ h => h⟩

theorem returns_ask (f : Planner → Except PlanError α) : (ask f).Returns p fun a => f p = .ok a := by
  rintro s rfl
  rw [perform_ask]
  exact ⟨rfl, .refl s, fun _ h => h⟩

theorem returns_log (e : Event) : (log e).Returns p fun _ => True := by
  rintro s rfl
  rw [perform_log]
  exact ⟨rfl, ⟨rfl, le_rfl⟩, fun _ _ => trivial⟩

/-- The ids that are drawn where none is given. -/
def IsDrawn (id : Text) : Prop := ∃ (ids : IdStream) (n : Nat), id = ids.draw n

theorem returns_freshId : freshId.Returns p IsDrawn := by
  rintro s rfl
  rw [perform_freshId]
  exact ⟨rfl, ⟨rfl, Nat.le_succ s.drawn⟩, fun _ h => ⟨s.ids, s.drawn + 1, (Except.ok.inj h).symm⟩⟩

theorem returns_idOrFresh (name : Option Text) :
    (idOrFresh name).Returns p fun id => name = some id ∨ IsDrawn id := by
  have hfresh : freshId.Returns p fun id => name = some id ∨ IsDrawn id := returns_freshId.imp fun _ => .inr
  unfold idOrFresh
  cases name with
  | none => exact hfresh
  | some id =>
    dsimp only
    split
    · exact hfresh
    · exact (returns_pure id).imp fun _ h => .inl (by rw [h])

theorem returns_requireVirtual (virtualProduct : Option Text) :
    (requireVirtual virtualProduct).Returns p fun _ =>
      ∀ other ∈ virtualProduct, p.products.contains (.text other) = .ok true := by
  unfold requireVirtual
  cases virtualProduct with
  | none => exact (returns_pure ()).imp fun _ _ => nofun
  | some other =>
    apply (returns_ask _).bind
    intro found hfound
    cases found with
    | true =>
      refine (returns_pure ()).imp fun _ _ => ?_
      rintro _ ⟨⟩
      exact hfound
    | false => exact returns_fail _

theorem returns_registeredProduct (name : Option Text) :
    (registeredProduct name).Returns p fun id => name = some id ∧ p.products.contains (.text id) = .ok true := by
  unfold registeredProduct
  cases name with
  | none => exact returns_fail _
  | some id =>
    apply (returns_ask _).bind
    intro found hfound
    cases found with
    | true => exact (returns_pure id).imp fun _ h => by subst h; exact ⟨rfl, hfound⟩
    | false => exact returns_fail _

/-- From a planner an operation only makes changes of some kind, one after the other. -/
def Makes (Change : Planner → Planner → Prop) (x : Planning α) (p : Planner) : Prop :=
  ∀ s, s.planner = p → Relation.ReflTransGen Change p (x.perform s).2.planner ∧ s.GoesOn (x.perform s).2

variable {Change : Planner → Planner → Prop}

theorem Returns.makes (h : x.Returns p Q) : x.Makes Change p := by
  intro s hs
  obtain ⟨hplanner, hgoes, -⟩ := h s hs
  rw [hplanner]
  exact ⟨.refl, hgoes⟩

theorem makes_pure (a : α) : (pure a : Planning α).Makes Change p := (returns_pure a).makes

theorem makes_fail (e : PlanError) : (fail e : Planning α).Makes Change p :=
  (returns_fail e : (fail e : Planning α).Returns p fun _ => True).makes

theorem Returns.bind_makes (hx : x.Returns p Q) (hf : ∀ a, Q a → (f a).Makes Change p) :
    (x >>= f).Makes Change p := by
  intro s hs
  obtain ⟨hplanner, hgoes, hresult⟩ := hx s hs
  rw [perform_bind]
  rcases hperform : x.perform s with ⟨e | a, s'⟩
  · rw [hperform] at hplanner hgoes
    dsimp only at hplanner ⊢
    rw [hplanner]
    exact ⟨.refl, hgoes⟩
  · rw [hperform] at hplanner hgoes hresult
    obtain ⟨hchanges, hgoes'⟩ := hf a (hresult a rfl) s' hplanner
    exact ⟨hchanges, hgoes.trans hgoes'⟩

theorem makes_ask (f : Planner → Except PlanError α) (g : α → β) :
    (ask f >>= fun a => pure (g a)).Makes Change p :=
  (returns_ask f).bind_makes fun a _ => makes_pure (g a)

theorem makes_askLogged (f : Planner → Logged α) (g : α → β) :
    (askLogged f >>= fun a => pure (g a)).Makes Change p :=
  (returns_askLogged f).bind_makes fun a _ => makes_pure (g a)

theorem Makes.mono {Change' : Planner → Planner → Prop} (hx : x.Makes Change p)
    (h : ∀ q r, Change q r → Change' q r) : x.Makes Change' p :=
  fun s hs => (hx s hs).imp_left (Relation.ReflTransGen.mono h _ _)

/-- Changes of the planner that an operation starts from do not follow each other. -/
theorem Makes.eq_or_change {After : Planner → Prop} (hx : x.Makes (fun q r => q = p ∧ After r) p) {s : Session}
    (hs : s.planner = p) : (x.perform s).2.planner = p ∨ After (x.perform s).2.planner :=
  (hx s hs).1.cases_tail.imp_right fun ⟨_, _, _, hchange⟩ => hchange

theorem Makes.bind (hx : x.Makes Change p) (hf : ∀ a q, (f a).Makes Change q) : (x >>= f).Makes Change p := by
  intro s hs
  obtain ⟨hbefore, hgoes⟩ := hx s hs
  rw [perform_bind]
  rcases hperform : x.perform s with ⟨e | a, s'⟩
  · rw [hperform] at hbefore hgoes
    exact ⟨hbefore, hgoes⟩
  · rw [hperform] at hbefore hgoes
    obtain ⟨hafter, hgoes'⟩ := hf a s'.planner s' rfl
    exact ⟨hbefore.trans hafter, hgoes.trans hgoes'⟩

theorem makes_setPlanner {put : Planner → Planner} (h : Change p (put p)) {k : Unit → Planning β}
    (hk : (k ()).Makes Change (put p)) : (planner >>= fun q => setPlanner (put q) >>= k).Makes Change p := by
  rintro s rfl
  simp only [perform_bind, perform_planner, perform_setPlanner]
  obtain ⟨hafter, hgoes⟩ := hk { s with planner := put s.planner } rfl
  exact ⟨.head h hafter, hgoes.ids, hgoes.drawn⟩

end Planning

namespace Planner

open Planning

/-- Names that records may have: the ones that operations are given, those that are drawn, and the standard facility. -/
structure AllowsDefaults (Known : Text → Prop) : Prop where
  drawn : ∀ {id : Text}, IsDrawn id → Known id
  facility : Known standardFacility

theorem AllowsDefaults.all : AllowsDefaults fun _ => True := ⟨fun _ => trivial, trivial⟩

/-- The parts of a planner: its stores, and what is set up beside them. -/
inductive Part where
  | products
  | facilities
  | calendars
  | routings
  | bom
  | requirements
  | setup
  deriving DecidableEq

/-- One change of a part of a planner, where the names of new records are known ones. -/
inductive Change (Known : Text → Prop) (p : Planner) : Option Part → Planner → Prop where
  | product {record : Product} {id : Text} {products : Store Product} (hid : record.id = some id) (hknown : Known id)
      (hvirtual : ∀ other ∈ record.virtualProduct, p.products.contains (.text other) = .ok true)
      (hadd : p.products.add (.text id) record = .ok products) : Change Known p (some .products) { p with products }
  | facility (settings : ProductFacility) {given : Amount} {product : Product} {facilities : Store ProductFacility}
      (hproduct : p.products.get (.named settings.product) = .ok product)
      (hdays : given.larger (.proper (.int 0)) = .ok settings.daysToShip)
      (hupsert : p.facilities.upsert (.text settings.key) settings = .ok facilities) :
      Change Known p (some .facilities) { p with facilities }
  | calendar {record : ShiftCalendar} {id : Text} {calendars : Store ShiftCalendar} (hid : record.id = some id)
      (hknown : Known id) (hshifts : record.shifts ≠ []) (hadd : p.calendars.add (.text id) record = .ok calendars) :
      Change Known p (some .calendars) { p with calendars }
  | calendarEdited {name : Option Text} {day : Date} {calendars : Store ShiftCalendar}
      (hedit : p.calendars.editFetched (.named name) (·.addNonWorkingDay day) = .ok calendars) :
      Change Known p (some .calendars) { p with calendars }
  | calendarReplaced {name : Option Text} {held record : ShiftCalendar} {calendars : Store ShiftCalendar}
      (hget : p.calendars.get (.named name) = .ok held) (hid : record.id = held.id)
      (hshifts : record.shifts = held.shifts)
      (hupsert : p.calendars.upsert (.named record.id) record = .ok calendars) :
      Change Known p (some .calendars) { p with calendars }
  | routing {record : Routing} {routings : Store Routing} (hknown : Known record.id)
      (hproduct : p.products.contains (.text record.product) = .ok true)
      (hcalendars : ∀ task ∈ record.tasks, ∀ ref ∈ task.calendar, Known ref)
      (hadd : p.routings.add (.text record.id) record = .ok routings) :
      Change Known p (some .routings) { p with routings }
  | component (record : BomComponent) {bom : Store BomComponent} (hknown : Known record.id)
      (hids : Known record.product ∧ Known record.component)
      (hproduct : p.products.contains (.text record.product) = .ok true)
      (hcomponent : p.products.contains (.text record.component) = .ok true)
      (hne : record.product ≠ record.component) (hadd : p.bom.add (.text record.id) record = .ok bom) :
      Change Known p (some .bom) { p with bom }
  | requirement {record : Requirement} {requirements : Store Requirement} (hknown : Known record.id)
      (hadd : p.requirements.add (.text record.id) record = .ok requirements) :
      Change Known p (some .requirements) { p with requirements }
  | options {options : PlanningOptions}
      (hrefs : ∀ name ∈ options.names, ∀ ref ∈ name, Known ref) :
      Change Known p (some .setup) { p with options, bound := standardBindings, lookback := options.lookback }
  | bound {ref : Option Text} {calendar : WorkingCalendar} :
      Change Known p (some .setup) { p with bound := (p.registry.bind ref calendar).bound }
  | estimator {name : Text} {estimator : Estimator} :
      Change Known p (some .setup) { p with estimators := (name, estimator) :: p.estimators }

/-- What every change keeps is kept by any number of them. -/
theorem Change.keeps {Known : Text → Prop} {part : Option Part} {Inv : Planner → Prop}
    (hstep : ∀ {p q : Planner}, Inv p → p.Change Known part q → Inv q) {p q : Planner} (h : Inv p)
    (hchanges : Relation.ReflTransGen (·.Change Known part ·) p q) : Inv q := by
  induction hchanges with
  | refl => exact h
  | tail _ hchange ih => exact hstep ih hchange

end Planner

section Operations

open Planning Planner

variable {Known : Text → Prop} {p : Planner}

theorem registerProduct_makesOne (hdefaults : AllowsDefaults Known) (d : ProductData) (hid : ∀ id ∈ d.id, Known id) :
    (registerProduct d).Makes (fun q r => q = p ∧ p.Change Known (some .products) r) p := by
  unfold registerProduct
  apply (returns_requireVirtual _).bind_makes
  intro _ hvirtual
  apply (returns_idOrFresh _).bind_makes
  intro id hnamed
  apply (returns_ask _).bind_makes
  intro products hadd
  have hknown : Known id := hnamed.elim (hid id) hdefaults.drawn
  exact makes_setPlanner ⟨rfl, .product rfl hknown hvirtual hadd⟩ (makes_pure _)

theorem registerProduct_makes (hdefaults : AllowsDefaults Known) (d : ProductData) (hid : ∀ id ∈ d.id, Known id) :
    (registerProduct d).Makes (·.Change Known (some .products) ·) p :=
  (registerProduct_makesOne hdefaults d hid).mono fun _ _ ⟨hq, hchange⟩ => hq ▸ hchange

theorem setProductFacility_makes (settings : ProductFacility) :
    (setProductFacility settings).Makes (·.Change Known (some .facilities) ·) p := by
  unfold setProductFacility
  apply (returns_ask _).bind_makes
  intro product hproduct
  apply (returns_ask _).bind_makes
  intro days hdays
  apply (returns_ask _).bind_makes
  intro facilities hupsert
  exact makes_setPlanner (.facility { settings with daysToShip := days } hproduct hdays hupsert) (makes_pure _)

theorem createShiftCalendar_makes (hdefaults : AllowsDefaults Known) (name : Option Text) (shifts : List Shift)
    (given : Option Text) (nonWorkingDays : List Date) (hid : ∀ id ∈ given, Known id) :
    (createShiftCalendar name shifts given nonWorkingDays).Makes (·.Change Known (some .calendars) ·) p := by
  unfold createShiftCalendar
  cases hempty : shifts.isEmpty with
  | true => exact makes_fail _
  | false =>
    apply (returns_idOrFresh _).bind_makes
    intro id hnamed
    apply (returns_ask _).bind_makes
    intro calendars hadd
    have hknown : Known id := hnamed.elim (hid id) hdefaults.drawn
    have hshifts : shifts ≠ [] := List.isEmpty_eq_false_iff.mp hempty
    exact makes_setPlanner (.calendar rfl hknown hshifts hadd) (makes_pure _)

/-- After the edit the calendar of the name is still one of the same id and with the same shifts. -/
theorem addNonWorkingDay_makes (name : Option Text) (day : Date) :
    (addNonWorkingDay name day).Makes (·.Change Known (some .calendars) ·) p := by
  unfold addNonWorkingDay
  apply (returns_ask _).bind_makes
  intro held hget
  apply (returns_ask _).bind_makes
  intro edited hedit
  refine makes_setPlanner (.calendarEdited hedit) ?_
  apply (returns_ask _).bind_makes
  intro calendars hupsert
  obtain ⟨after, hafter, hid, hshifts⟩ : ∃ after, edited.get (.named name) = .ok after ∧ held.id = after.id ∧
      held.shifts = after.shifts := by
    obtain ⟨before, hbefore, hafter | hafter⟩ := Store.get_of_editFetched hedit
    all_goals
      obtain rfl : held = before := Except.ok.inj (hget.symm.trans hbefore)
      exact ⟨_, hafter, rfl, rfl⟩
  refine makes_setPlanner (.calendarReplaced hafter ?_ ?_ hupsert) (makes_pure _)
  · exact hid
  · exact hshifts

theorem createRouting_makes (hdefaults : AllowsDefaults Known) (product name : Option Text) (tasks : List RoutingTask)
    (validity : Validity) (hcalendars : ∀ task ∈ tasks, ∀ ref ∈ task.calendar, Known ref) :
    (createRouting product name tasks validity).Makes (·.Change Known (some .routings) ·) p := by
  unfold createRouting
  apply (returns_registeredProduct _).bind_makes
  intro product hproduct
  apply returns_freshId.bind_makes
  intro id hdrawn
  apply (returns_ask _).bind_makes
  intro routings hadd
  exact makes_setPlanner (.routing (hdefaults.drawn hdrawn) hproduct.2 hcalendars hadd) (makes_pure _)

theorem addBomComponent_makes (hdefaults : AllowsDefaults Known) (product component : Option Text) (quantity : Amount)
    (validity : Validity) (hids : ∀ name ∈ [product, component], ∀ id ∈ name, Known id) :
    (addBomComponent product component quantity validity).Makes (·.Change Known (some .bom) ·) p := by
  unfold addBomComponent
  refine (returns_registeredProduct _).bind_makes fun owner ⟨howner, hproduct⟩ => ?_
  refine (returns_registeredProduct _).bind_makes fun part ⟨hpart, hcomponent⟩ => ?_
  dsimp only
  split
  · exact makes_fail _
  · next hne =>
    apply returns_freshId.bind_makes
    intro id hdrawn
    apply (returns_ask _).bind_makes
    intro bom hadd
    have hknown : Known owner ∧ Known part :=
      ⟨hids product (by simp) owner howner, hids component (by simp) part hpart⟩
    have hid : Known id := hdefaults.drawn hdrawn
    exact makes_setPlanner (.component ⟨id, owner, part, quantity, validity⟩ hid hknown hproduct hcomponent hne hadd)
      (makes_pure _)

theorem OptionsRequest.options_refs {r : OptionsRequest} {options : PlanningOptions} (h : r.options = .ok options) :
    options.supplierCalendar = Text.nonEmpty r.supplierCalendar ∧
      options.fallbackCalendar = Text.nonEmpty r.fallbackCalendar ∧
      options.defaultFacility = (Text.nonEmpty r.defaultFacility).or (some standardFacility) := by
  obtain ⟨_, -, h⟩ := bind_eq_ok_iff.mp h
  obtain ⟨_, -, h⟩ := bind_eq_ok_iff.mp h
  obtain ⟨_, -, h⟩ := bind_eq_ok_iff.mp h
  obtain rfl := Except.ok.inj h
  exact ⟨rfl, rfl, rfl⟩

theorem Text.mem_of_mem_nonEmpty {name : Option Text} {id : Text} (h : id ∈ Text.nonEmpty name) : id ∈ name :=
  (Option.mem_filter_iff.mp h).1

theorem updateOptions_makes (hdefaults : AllowsDefaults Known) (r : OptionsRequest)
    (hrefs : ∀ name ∈ [r.supplierCalendar, r.fallbackCalendar, r.defaultFacility], ∀ ref ∈ name, Known ref) :
    (updateOptions r).Makes (·.Change Known (some .setup) ·) p := by
  unfold updateOptions
  apply (returns_ask _).bind_makes
  intro _ _
  apply (returns_ask _).bind_makes
  intro options hoptions
  refine makes_setPlanner (.options fun name hname ref href => ?_) (makes_pure _)
  obtain ⟨hsupplier, hfallback, hfacility⟩ := OptionsRequest.options_refs hoptions
  simp only [PlanningOptions.names, List.mem_cons, List.not_mem_nil, or_false, forall_eq_or_imp, forall_eq]
    at hrefs hname
  obtain ⟨hknownSupplier, hknownFallback, hknownFacility⟩ := hrefs
  rcases hname with rfl | rfl | rfl
  · exact hknownSupplier ref (Text.mem_of_mem_nonEmpty (hsupplier ▸ href))
  · exact hknownFallback ref (Text.mem_of_mem_nonEmpty (hfallback ▸ href))
  · rw [hfacility] at href
    rcases Option.or_eq_some_iff.mp href with hgiven | ⟨-, hstandard⟩
    · exact hknownFacility ref (Text.mem_of_mem_nonEmpty hgiven)
    · exact Option.some.inj hstandard ▸ hdefaults.facility

theorem createRequirement_makes (hdefaults : AllowsDefaults Known) (order : ProposedOrder) :
    (createRequirement order).Makes (·.Change Known (some .requirements) ·) p := by
  unfold createRequirement
  split
  · exact (returns_log _).bind_makes fun _ _ => makes_pure none
  · apply (returns_ask _).bind_makes
    intro start _
    apply returns_freshId.bind_makes
    intro id hdrawn
    apply (returns_ask _).bind_makes
    intro requirements hadd
    refine makes_setPlanner (.requirement (hdefaults.drawn hdrawn) hadd) ?_
    exact (returns_log _).bind_makes fun _ _ => makes_pure _

theorem proposeOrder_makes (hdefaults : AllowsDefaults Known) (r : ProposalRequest) :
    (proposeOrder r).Makes (·.Change Known (some .requirements) ·) p := by
  unfold proposeOrder
  apply (returns_askLogged _).bind_makes
  intro outcome _
  exact (createRequirement_makes hdefaults outcome.1).bind fun _ _ => makes_pure _

theorem createRequirement_goesOn (order : ProposedOrder) (s : Session) :
    s.GoesOn ((createRequirement order).perform s).2 := (createRequirement_makes .all order s rfl).2

theorem proposeOrder_goesOn (r : ProposalRequest) (s : Session) : s.GoesOn ((proposeOrder r).perform s).2 :=
  (proposeOrder_makes .all r s rfl).2

/-- The part of the planner that an operation may change; questions change none. -/
def Operation.part : Operation → Option Part
  | registerProduct _ => some .products
  | setProductFacility _ => some .facilities
  | createShiftCalendar .. | addNonWorkingDay .. => some .calendars
  | createRouting .. => some .routings
  | addBomComponent .. => some .bom
  | createRequirement _ | proposeOrder _ => some .requirements
  | updateOptions _ | registerEstimator .. | bindCalendar .. => some .setup
  | _ => none

/-- Every operation only makes changes of its part. -/
theorem Operation.run_makes (hdefaults : AllowsDefaults Known) (op : Operation)
    (hids : ∀ name ∈ op.names, ∀ id ∈ name, Known id) : op.run.Makes (·.Change Known op.part ·) p := by
  cases op with
  | registerProduct d =>
    refine (registerProduct_makes hdefaults d ?_).bind fun _ _ => makes_pure _
    exact hids d.id List.mem_cons_self
  | setProductFacility settings =>
    exact (setProductFacility_makes settings).bind fun _ _ => makes_pure _
  | createShiftCalendar name shifts id nonWorkingDays =>
    refine (createShiftCalendar_makes hdefaults name shifts id nonWorkingDays ?_).bind fun _ _ => makes_pure _
    exact hids id List.mem_cons_self
  | addNonWorkingDay id day => exact (addNonWorkingDay_makes id day).bind fun _ _ => makes_pure _
  | buildRoutingTask task =>
    exact (returns_freshId.bind_makes fun _ _ => makes_pure _).bind fun _ _ => makes_pure _
  | createRouting product name tasks validity =>
    refine (createRouting_makes hdefaults product name tasks validity fun task htask => ?_).bind
      fun _ _ => makes_pure _
    exact hids task.calendar (List.mem_cons_of_mem product (List.mem_map_of_mem htask))
  | addBomComponent product component quantity validity =>
    exact (addBomComponent_makes hdefaults product component quantity validity hids).bind fun _ _ => makes_pure _
  | updateOptions request =>
    exact (updateOptions_makes hdefaults request hids).bind fun _ _ => makes_pure _
  | createRequirement order => exact (createRequirement_makes hdefaults order).bind fun _ _ => makes_pure _
  | proposeOrder request => exact (proposeOrder_makes hdefaults request).bind fun _ _ => makes_pure _
  | registerEstimator name estimator =>
    cases name with
    | none => exact makes_pure _
    | some name => exact (makes_setPlanner .estimator (makes_pure ())).bind fun _ _ => makes_pure _
  | bindCalendar ref calendar => exact (makes_setPlanner .bound (makes_pure ())).bind fun _ _ => makes_pure _
  | resolveRouting | isBuilt | calculateStartDate => exact makes_askLogged _ _
  | getProductFacility | componentsOf | findRouting | settleQuantity | explosionStart | listRequirements =>
    exact makes_ask _ _

/-- Whatever an operation returns, it leads to the next session through changes of its part. -/
theorem Session.after_changes (s : Session) (op : Operation) :
    Relation.ReflTransGen (·.Change (fun _ => True) op.part ·) s.planner (s.after op).planner :=
  (op.run_makes .all (fun _ _ _ _ => trivial) s rfl).1

/-- What every change keeps is kept by every operation. -/
theorem Session.keeps_after {Inv : Planner → Prop}
    (hstep : ∀ {part p q}, Inv p → p.Change (fun _ => True) part q → Inv q) {s : Session} (h : Inv s.planner)
    (op : Operation) : Inv (s.after op).planner :=
  Change.keeps hstep h (s.after_changes op)

theorem Session.goesOn_after (s : Session) (op : Operation) : s.GoesOn (s.after op) :=
  (op.run_makes .all (fun _ _ _ _ => trivial) s rfl).2

end Operations

end SupplyPlan
