import SupplyPlan.Proofs.Planning.Loading
import SupplyPlan.Proofs.Planning.Reached

namespace SupplyPlan

open Planning Planner

def Session.loaded (s : Session) : Session := { s with planner := s.planner.loaded }

namespace Planning

variable {α β γ : Type} {x : Planning α} {f : α → Planning β} {p : Planner} {Q : α → Prop}

/-- From a planner an operation returns what it returns from the loaded one, and the planners after it still agree. -/
def CarriesOver (x : Planning α) (p : Planner) : Prop :=
  ∀ s, s.planner = p → x.perform s.loaded = ((x.perform s).1, (x.perform s).2.loaded)

theorem carriesOver_pure (a : α) : (pure a : Planning α).CarriesOver p := fun _ _ => rfl

theorem carriesOver_fail (e : PlanError) : (fail e : Planning α).CarriesOver p := fun _ _ => rfl

theorem carriesOver_freshId : freshId.CarriesOver p := fun _ _ => rfl

theorem carriesOver_log (e : Event) : (log e).CarriesOver p := fun _ _ => rfl

theorem carriesOver_askLogged {f : Planner → Logged α} (h : f p.loaded = f p) : (askLogged f).CarriesOver p := by
  rintro s rfl
  have hloaded : f s.loaded.planner = f s.planner := h
  rw [perform_askLogged, perform_askLogged, hloaded]
  rfl

theorem carriesOver_ask {f : Planner → Except PlanError α} (h : f p.loaded = f p) : (ask f).CarriesOver p := by
  rintro s rfl
  have hloaded : f s.loaded.planner = f s.planner := h
  rw [perform_ask, perform_ask, hloaded]

theorem CarriesOver.bind (hx : x.CarriesOver p) (hreturns : x.Returns p Q) (hf : ∀ a, Q a → (f a).CarriesOver p) :
    (x >>= f).CarriesOver p := by
  intro s hs
  obtain ⟨hplanner, -, hresult⟩ := hreturns s hs
  rw [perform_bind, perform_bind, hx s hs]
  rcases hperform : x.perform s with ⟨e | a, s'⟩
  · rfl
  · rw [hperform] at hplanner hresult
    exact hf a (hresult a rfl) s' hplanner

/-- Answers are told in the same way. -/
theorem CarriesOver.map (hx : x.CarriesOver p) (g : α → β) : (x >>= fun a => pure (g a)).CarriesOver p := by
  intro s hs
  rw [perform_bind, perform_bind, hx s hs]
  rcases x.perform s with ⟨_ | _, _⟩ <;> rfl

theorem carriesOver_store {write : Planner → Except PlanError (Store γ)} {put : Store γ → Planner → Planner}
    (hwrite : write p.loaded = Store.loaded <$> write p) (hput : ∀ st, put st.loaded p.loaded = (put st p).loaded)
    {k : Planning β} (hk : ∀ st, write p = .ok st → k.CarriesOver (put st p)) :
    (ask write >>= fun st => planner >>= fun q => setPlanner (put st q) >>= fun _ => k).CarriesOver p := by
  rintro s rfl
  have hloaded : write s.loaded.planner = Store.loaded <$> write s.planner := hwrite
  simp only [perform_bind, perform_ask, perform_planner, perform_setPlanner, hloaded]
  cases hresult : write s.planner with
  | error e => rfl
  | ok st =>
    have hafter : { s.loaded with planner := put st.loaded s.loaded.planner } =
        ({ s with planner := put st s.planner } : Session).loaded :=
      congrArg (fun q : Planner => { s with planner := q }) (hput st)
    simp only [Except.map_ok, hafter]
    exact hk st hresult _ rfl

theorem carriesOver_setPlanner {put : Planner → Planner} (hput : put p.loaded = (put p).loaded) {k : Planning β}
    (hk : k.CarriesOver (put p)) : (planner >>= fun q => setPlanner (put q) >>= fun _ => k).CarriesOver p := by
  rintro s rfl
  have hafter : { s.loaded with planner := put s.loaded.planner } =
      ({ s with planner := put s.planner } : Session).loaded :=
    congrArg (fun q : Planner => { s with planner := q }) hput
  simp only [perform_bind, perform_planner, perform_setPlanner, hafter]
  exact hk _ rfl

end Planning

/-- What is edited where it is handed out is stored again under the name it was asked for. -/
theorem perform_addNonWorkingDay (s : Session) {name : Option Text} (day : Date)
    (hkeyed : ∀ held, s.planner.calendars.get (.named name) = .ok held → ∃ id, name = some id ∧ held.id = some id) :
    (addNonWorkingDay name day).perform s =
      (do
        let held ← ask (·.calendars.get (.named name))
        let calendars ← ask (·.calendars.upsert (.named held.id) (held.addNonWorkingDay day))
        setPlanner { ← planner with calendars }
        return held.addNonWorkingDay day : Planning ShiftCalendar).perform s := by
  unfold addNonWorkingDay
  simp only [perform_bind, perform_ask, perform_planner, perform_setPlanner, perform_pure]
  cases hget : s.planner.calendars.get (.named name) with
  | error e => rfl
  | ok held =>
    obtain ⟨id, rfl, hid⟩ := hkeyed held hget
    obtain ⟨edited, hedit, -, hupsert⟩ := Store.editFetched_upsert hget (·.addNonWorkingDay day)
    have hanswers := Store.answers_of_get hget
    obtain ⟨calendars, hcalendars⟩ := Store.exists_upsert_of_answers hanswers (held.addNonWorkingDay day)
    have hname : RecordId.named (some id) = .text id := rfl
    have hheld : RecordId.named held.id = .text id := congrArg RecordId.named hid
    have hedited : RecordId.named (held.addNonWorkingDay day).id = .text id := hheld
    simp only [hname, hheld, hedit, hedited, hupsert, hcalendars]

section Operations

variable {p : Planner} (h : p.IsOrderly)

include h

theorem requireVirtual_carriesOver {virtualProduct : Option Text} (hname : Text.isStorable virtualProduct) :
    (requireVirtual virtualProduct).CarriesOver p := by
  unfold requireVirtual
  cases virtualProduct with
  | none => exact carriesOver_pure ()
  | some other =>
    apply (carriesOver_ask (h.products.loaded_contains hname)).bind (returns_ask _)
    intro found _
    cases found with
    | true => exact carriesOver_pure ()
    | false => exact carriesOver_fail _

omit h in
theorem idOrFresh_carriesOver (name : Option Text) : (idOrFresh name).CarriesOver p := by
  unfold idOrFresh
  cases name with
  | none => exact carriesOver_freshId
  | some id =>
    dsimp only
    split
    · exact carriesOver_freshId
    · exact carriesOver_pure id

theorem registeredProduct_carriesOver {name : Option Text} (hname : Text.isStorable name) :
    (registeredProduct name).CarriesOver p := by
  unfold registeredProduct
  cases name with
  | none => exact carriesOver_fail _
  | some id =>
    apply (carriesOver_ask (h.products.loaded_contains hname)).bind (returns_ask _)
    intro found _
    cases found with
    | true => exact carriesOver_pure id
    | false => exact carriesOver_fail _

omit h in
theorem isEncodable_of_named {name : Option Text} (hname : Text.isStorable name) {id : Text}
    (hid : name = some id ∨ IsDrawn id) : id.isEncodable :=
  hid.elim (isStorable_iff.mp hname id) fun hdrawn => allowsDefaults_isStorable.drawn hdrawn

theorem registerProduct_carriesOver {d : ProductData} (hid : Text.isStorable d.id)
    (hvirtual : Text.isStorable d.virtualProduct) : (registerProduct d).CarriesOver p := by
  unfold registerProduct
  apply (requireVirtual_carriesOver h hvirtual).bind (returns_requireVirtual _)
  intro _ _
  apply (idOrFresh_carriesOver _).bind (returns_idOrFresh _)
  intro id hnamed
  have hencodable := isEncodable_of_named hid hnamed
  dsimp only
  refine carriesOver_store ?_ (fun _ => ?_) fun _ _ => carriesOver_pure _
  · exact h.products.loaded_add hencodable _
  · rfl

theorem setProductFacility_carriesOver {settings : ProductFacility} (hproduct : Text.isStorable settings.product)
    (hfacility : Text.isStorable settings.facility) : (setProductFacility settings).CarriesOver p := by
  unfold setProductFacility
  apply (carriesOver_ask (h.product_loaded hproduct)).bind (returns_ask _)
  intro product _
  apply (carriesOver_ask rfl).bind (returns_ask _)
  intro days _
  have hkey := ProductFacility.isEncodable_keyOf hproduct hfacility
  dsimp only
  refine carriesOver_store ?_ (fun _ => ?_) fun _ _ => carriesOver_pure _
  · exact h.facilities.loaded_upsert hkey _
  · rfl

theorem createShiftCalendar_carriesOver {id : Option Text} (hid : Text.isStorable id) (name : Option Text)
    (shifts : List Shift) (nonWorkingDays : List Date) :
    (createShiftCalendar name shifts id nonWorkingDays).CarriesOver p := by
  unfold createShiftCalendar
  cases shifts.isEmpty with
  | true => exact carriesOver_fail _
  | false =>
    apply (idOrFresh_carriesOver _).bind (returns_idOrFresh _)
    intro id hnamed
    have hencodable := isEncodable_of_named hid hnamed
    dsimp only
    refine carriesOver_store ?_ (fun _ => ?_) fun _ _ => carriesOver_pure _
    · exact h.calendars.loaded_add hencodable _
    · rfl

theorem addNonWorkingDay_carriesOver {name : Option Text} (hname : Text.isStorable name) (day : Date) :
    (addNonWorkingDay name day).CarriesOver p := by
  have hkeyed : ∀ held, p.calendars.get (.named name) = .ok held → ∃ id : Text, name = some id ∧ held.id = some id := by
    intro held hget
    obtain ⟨id, hkey, hid, -⟩ := h.calendar_ids _ (Store.mem_entries_of_get hget)
    cases name with
    | none => cases hkey
    | some given => exact ⟨id, congrArg some (RecordId.text.inj hkey), hid⟩
  have hget : p.loaded.calendars.get (.named name) = p.calendars.get (.named name) := h.calendars.loaded_get hname
  rintro s rfl
  rw [perform_addNonWorkingDay s day hkeyed,
    perform_addNonWorkingDay s.loaded day fun held hheld => hkeyed held (hget.symm.trans hheld)]
  refine CarriesOver.bind (carriesOver_ask hget) (returns_ask _) (fun held hheld => ?_) s rfl
  obtain ⟨id, rfl, hid⟩ := hkeyed held hheld
  have hnamed : RecordId.named held.id = .text id := congrArg RecordId.named hid
  refine carriesOver_store ?_ (fun _ => ?_) fun _ _ => carriesOver_pure _
  · rw [hnamed]
    exact h.calendars.loaded_upsert hname _
  · rfl

theorem createRouting_carriesOver {product : Option Text} (hproduct : Text.isStorable product) (name : Option Text)
    (tasks : List RoutingTask) (validity : Validity) : (createRouting product name tasks validity).CarriesOver p := by
  unfold createRouting
  apply (registeredProduct_carriesOver h hproduct).bind (returns_registeredProduct _)
  intro product _
  apply carriesOver_freshId.bind returns_freshId
  intro id hdrawn
  have hencodable : id.isEncodable := allowsDefaults_isStorable.drawn hdrawn
  dsimp only
  refine carriesOver_store ?_ (fun _ => ?_) fun _ _ => carriesOver_pure _
  · exact h.routings.loaded_add hencodable _
  · rfl

theorem addBomComponent_carriesOver {product component : Option Text} (hproduct : Text.isStorable product)
    (hcomponent : Text.isStorable component) (quantity : Amount) (validity : Validity) :
    (addBomComponent product component quantity validity).CarriesOver p := by
  unfold addBomComponent
  apply (registeredProduct_carriesOver h hproduct).bind (returns_registeredProduct _)
  intro owner _
  apply (registeredProduct_carriesOver h hcomponent).bind (returns_registeredProduct _)
  intro part _
  dsimp only
  split
  · exact carriesOver_fail _
  · apply carriesOver_freshId.bind returns_freshId
    intro id hdrawn
    have hencodable : id.isEncodable := allowsDefaults_isStorable.drawn hdrawn
    refine carriesOver_store ?_ (fun _ => ?_) fun _ _ => carriesOver_pure _
    · exact h.bom.loaded_add hencodable _
    · rfl

theorem updateOptions_carriesOver {r : OptionsRequest} (href : Text.isStorable r.fallbackCalendar) :
    (updateOptions r).CarriesOver p := by
  unfold updateOptions
  apply (carriesOver_ask (h.checkFallback_loaded href)).bind (returns_ask _)
  intro _ _
  apply (carriesOver_ask rfl).bind (returns_ask _)
  intro options _
  refine carriesOver_setPlanner ?_ (carriesOver_pure _)
  rfl

theorem createRequirement_carriesOver {order : ProposedOrder} (hproduct : Text.isStorable order.product.id)
    (hfacility : Text.isStorable order.manufacturingFacility) : (createRequirement order).CarriesOver p := by
  unfold createRequirement
  split
  · exact (carriesOver_log _).map _
  · apply (carriesOver_ask (h.recordedStart_loaded hproduct hfacility)).bind (returns_ask _)
    intro start _
    apply carriesOver_freshId.bind returns_freshId
    intro id hdrawn
    have hencodable : id.isEncodable := allowsDefaults_isStorable.drawn hdrawn
    dsimp only
    refine carriesOver_store ?_ (fun _ => ?_) fun _ _ => (carriesOver_log _).map _
    · exact h.requirements.loaded_add hencodable _
    · rfl

theorem proposeOrder_carriesOver {r : ProposalRequest} (hproduct : Text.isStorable r.product)
    (hfacility : Text.isStorable r.facility) (hmanufacturing : Text.isStorable r.manufacturingFacility) :
    (proposeOrder r).CarriesOver p := by
  unfold proposeOrder
  apply (carriesOver_askLogged (h.order_loaded hproduct hfacility)).bind (returns_askLogged _)
  intro outcome horder
  obtain ⟨hid, hplace⟩ := h.order_refs hfacility hmanufacturing horder
  exact (createRequirement_carriesOver h hid hplace).map _

/-- Every operation carries over if tables can be asked for the names in it. -/
theorem Operation.run_carriesOver (op : Operation) (hnames : ∀ name ∈ op.names, Text.isStorable name) :
    op.run.CarriesOver p := by
  cases op with
  | registerProduct d =>
    have hid := hnames d.id (by simp [names])
    have hvirtual := hnames d.virtualProduct (by simp [names])
    exact (registerProduct_carriesOver h hid hvirtual).map _
  | setProductFacility settings =>
    have hproduct := hnames settings.product (by simp [names])
    have hfacility := hnames settings.facility (by simp [names])
    exact (setProductFacility_carriesOver h hproduct hfacility).map _
  | getProductFacility product facility =>
    have hproduct := hnames product (by simp [names])
    have hfacility := hnames facility (by simp [names])
    exact (carriesOver_ask (h.facility?_loaded hproduct hfacility)).map _
  | createShiftCalendar name shifts id nonWorkingDays =>
    exact (createShiftCalendar_carriesOver h (hnames id (by simp [names])) name shifts nonWorkingDays).map _
  | addNonWorkingDay id day => exact (addNonWorkingDay_carriesOver h (hnames id (by simp [names])) day).map _
  | buildRoutingTask task => exact (carriesOver_freshId.map _).map _
  | createRouting product name tasks validity =>
    exact (createRouting_carriesOver h (hnames product (by simp [names])) name tasks validity).map _
  | addBomComponent product component quantity validity =>
    have hproduct := hnames product (by simp [names])
    have hcomponent := hnames component (by simp [names])
    exact (addBomComponent_carriesOver h hproduct hcomponent quantity validity).map _
  | componentsOf product asOf => exact (carriesOver_ask (by rw [h.componentsOf_loaded])).map _
  | findRouting product asOf => exact (carriesOver_ask (by rw [h.findRouting_loaded])).map _
  | resolveRouting product asOf => exact (carriesOver_askLogged (by rw [h.resolveRouting_loaded])).map _
  | isBuilt product asOf => exact (carriesOver_askLogged (by rw [h.isBuilt_loaded])).map _
  | updateOptions request =>
    exact (updateOptions_carriesOver h (hnames request.fallbackCalendar (by simp [names]))).map _
  | calculateStartDate order days routing =>
    have hrefs : ∀ given ∈ routing, ∀ task ∈ given.tasks, Text.isStorable task.calendar := by
      rintro given rfl task htask
      exact hnames task.calendar (List.mem_append_right _ (List.mem_map_of_mem htask))
    exact (carriesOver_askLogged (h.calculateStartDate_loaded hrefs order days)).map _
  | settleQuantity order reorder =>
    have hproduct := hnames order.product.id (by simp [names, names.orderNames])
    have hfacility := hnames order.facility (by simp [names, names.orderNames])
    exact (carriesOver_ask (h.settleQuantity_loaded hproduct hfacility reorder)).map _
  | explosionStart product facility required =>
    have hproduct := hnames product (by simp [names])
    have hfacility := hnames facility (by simp [names])
    exact (carriesOver_ask (h.explosionStart_loaded hproduct hfacility required)).map _
  | createRequirement order =>
    have hproduct := hnames order.product.id (by simp [names, names.orderNames])
    have hfacility := hnames order.manufacturingFacility (by simp [names, names.orderNames])
    exact (createRequirement_carriesOver h hproduct hfacility).map _
  | proposeOrder request =>
    have hproduct := hnames request.product (by simp [names])
    have hfacility := hnames request.facility (by simp [names])
    have hmanufacturing := hnames request.manufacturingFacility (by simp [names])
    exact (proposeOrder_carriesOver h hproduct hfacility hmanufacturing).map _
  | listRequirements product => exact (carriesOver_ask (by rw [h.listRequirements_loaded])).map _
  | registerEstimator name estimator =>
    cases name with
    | none => exact carriesOver_pure _
    | some name =>
      refine CarriesOver.map ?_ _
      refine carriesOver_setPlanner ?_ (carriesOver_pure ())
      rfl
  | bindCalendar ref calendar =>
    refine CarriesOver.map ?_ _
    refine carriesOver_setPlanner ?_ (carriesOver_pure ())
    cases ref <;> rfl

end Operations

theorem Planner.IsOrderly.listing_loaded {p : Planner} (h : p.IsOrderly) : p.loaded.listing = p.listing := by
  simp only [listing, loaded, h.products.loaded_toList, h.facilities.loaded_toList, h.calendars.loaded_toList,
    h.routings.loaded_toList, h.bom.loaded_toList, h.requirements.loaded_toList]

namespace Session

variable {s : Session}

/-- An operation keeps the tables of a session orderly, whether it fails or not. -/
theorem isOrderly_after (h : s.planner.IsOrderly) {op : Operation} (hnames : ∀ name ∈ op.names, Text.isStorable name) :
    (s.after op).planner.IsOrderly := by
  have hknown : ∀ name ∈ op.names, ∀ id ∈ name, IsStorable id :=
    fun name hname => isStorable_iff.mp (hnames name hname)
  exact Change.keeps IsOrderly.of_change h (op.run_makes allowsDefaults_isStorable hknown s rfl).1

theorem loaded_trace (h : s.planner.IsOrderly) {ops : List Operation}
    (hnames : ∀ op ∈ ops, ∀ name ∈ op.names, Text.isStorable name) : s.loaded.trace ops = s.trace ops := by
  induction ops generalizing s with
  | nil => rfl
  | cons op rest ih =>
    obtain ⟨hop, hrest⟩ := List.forall_mem_cons.mp hnames
    have hperform := op.run_carriesOver h hop s rfl
    have hanswer : s.loaded.answer op = s.answer op := by rw [answer, hperform, answer]
    have hafter : s.loaded.after op = (s.after op).loaded := by rw [after, hperform, after]
    have horderly := isOrderly_after h hop
    have hlisting : (s.after op).loaded.planner.listing = (s.after op).planner.listing := horderly.listing_loaded
    rw [trace, trace, hanswer, hafter, hlisting, ih horderly hrest]

end Session

theorem Planner.onTables_isOrderly {options : PlanningOptions}
    (hoptions : ∀ name ∈ options.names, Text.isStorable name) : (onTables options).IsOrderly where
  products := Table.isOrderly_empty
  facilities := Table.isOrderly_empty
  calendars := Table.isOrderly_empty
  routings := Table.isOrderly_empty
  bom := Table.isOrderly_empty
  requirements := Table.isOrderly_empty
  product_ids := by simp [onTables, Store.entries, Table.empty]
  calendar_ids := by simp [onTables, Store.entries, Table.empty]
  task_calendars := by simp [onTables, Store.entries, Table.empty]
  components := by simp [onTables, Store.entries, Table.empty]
  supplierCalendar := hoptions _ (by simp [PlanningOptions.names, onTables])
  fallbackCalendar := hoptions _ (by simp [PlanningOptions.names, onTables])
  defaultFacility := hoptions _ (by simp [PlanningOptions.names, onTables])

/-- Records in memory and records as table rows are interchangeable: if the same ids are drawn, every operation of every
sequence has the same answer, or fails in the same way, and leaves the same records in the same order. The names have to
be ones that tables can be asked for. -/
theorem trace_inMemory_eq_trace_onTables (ids : IdStream) {options : PlanningOptions}
    (hoptions : ∀ name ∈ options.names, Text.isStorable name) {ops : List Operation}
    (hnames : ∀ op ∈ ops, ∀ name ∈ op.names, Text.isStorable name) :
    (Session.fresh ids (.inMemory options)).trace ops = (Session.fresh ids (.onTables options)).trace ops := by
  have hfresh : (Session.fresh ids (.onTables options)).loaded = Session.fresh ids (.inMemory options) := rfl
  rw [← hfresh]
  exact Session.loaded_trace (onTables_isOrderly hoptions) hnames

/-- Saws run on the second and the fourth day of the week. -/
def Shift.sawing : Shift where
  name := some "Sawing"
  startTime := .hour 2 (by decide)
  endTime := .hour 15 (by decide)
  weekdays := [1, 3]
  hasWeekday := by decide
  inWeek := by decide
  notEmpty := by decide

/-- A table is planned, and its workshop is closed for two days, one of them given twice. -/
def Operation.tableAndHolidays : List Operation :=
  table ++
    [createShiftCalendar (some "Workshop") [.sawing] (some "SAWS") [],
      addNonWorkingDay (some "SAWS") ⟨738601, by decide⟩, addNonWorkingDay (some "SAWS") ⟨738600, by decide⟩,
      addNonWorkingDay (some "SAWS") ⟨738601, by decide⟩, componentsOf (some "TOP") none, listRequirements none]

theorem trace_inMemory_eq_trace_onTables_tableAndHolidays :
    (∀ name ∈ PlanningOptions.standard.names, Text.isStorable name) ∧
      (∀ op ∈ Operation.tableAndHolidays, ∀ name ∈ op.names, Text.isStorable name) ∧
        (Session.fresh .numbered (.inMemory .standard)).trace Operation.tableAndHolidays =
          (Session.fresh .numbered (.onTables .standard)).trace Operation.tableAndHolidays := by
  have hoptions : ∀ name ∈ PlanningOptions.standard.names, Text.isStorable name := by decide +kernel
  have hnames : ∀ op ∈ Operation.tableAndHolidays, ∀ name ∈ op.names, Text.isStorable name := by decide +kernel
  exact ⟨hoptions, hnames, trace_inMemory_eq_trace_onTables .numbered hoptions hnames⟩

end SupplyPlan
