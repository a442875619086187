import SupplyPlan.Proofs.Planning.Change
import SupplyPlan.Proofs.Explosion.Walk
import SupplyPlan.Proofs.Schedule.Request
import SupplyPlan.Proofs.Store.Loading

namespace SupplyPlan

namespace Text

theorem isEncodable_shown {name : Option Text} (h : isStorable name) : (shown name).isEncodable := by
  cases name with
  | none => exact isEncodable_ofString "None"
  | some id => exact h

end Text

theorem ProductFacility.isEncodable_keyOf {product facility : Option Text} (hproduct : Text.isStorable product)
    (hfacility : Text.isStorable facility) : (keyOf product facility).isEncodable := by
  simp [keyOf, Text.isEncodable_append, Text.isEncodable_shown, Text.isEncodable_ofString, hproduct, hfacility]

theorem Logged.result_map {α β : Type} (f : α → β) (x : Logged α) : (f <$> x).result = f <$> x.result := by
  simp only [Functor.map, bind, Except.map]
  cases x.result <;> rfl

theorem Logged.result_tryCatch {α : Type} (x : Logged α) (handle : PlanError → Logged α) :
    (tryCatch x handle).result =
      match x.result with
      | .ok a => .ok a
      | .error e => (handle e).result := by
  simp only [tryCatch, tryCatchThe, MonadExceptOf.tryCatch]
  cases hresult : x.result with
  | ok a => exact hresult
  | error e => rfl

theorem Logged.bind_congr {α β : Type} {x : Logged α} {f g : α → Logged β}
    (h : ∀ a, x.result = .ok a → f a = g a) : x >>= f = x >>= g := by
  simp only [Bind.bind, bind]
  cases hresult : x.result with
  | error e => rfl
  | ok a => simp only [h a hresult]

namespace Scheduler

variable {s s' : Scheduler}

theorem placeAll_congr (hfallback : s.fallback = s'.fallback) (quantity : Amount) {steps : List Step}
    (hcalendars : ∀ step ∈ steps, s.calendars step.calendar = s'.calendars step.calendar)
    (addition : Option Duration) (cursor : Instant) :
    s.placeAll quantity addition steps cursor = s'.placeAll quantity addition steps cursor := by
  induction steps generalizing addition cursor with
  | nil => rfl
  | cons step earlier ih =>
    obtain ⟨hstep, hearlier⟩ := List.forall_mem_cons.mp hcalendars
    have hplace (finish : Instant) (d : Duration) : s.place step finish d = s'.place step finish d := by
      simp only [place, placeOnFallback, hstep, hfallback]
    simp only [placeAll, hplace, ih hearlier]

theorem schedule_congr (hfallback : s.fallback = s'.fallback) {r : ScheduleRequest}
    (hcalendars : ∀ step, .proper step ∈ r.steps → s.calendars step.calendar = s'.calendars step.calendar) :
    s.schedule r = s'.schedule r := by
  apply Logged.bind_congr
  intro c hcheck
  obtain ⟨rfl, -⟩ := ScheduleRequest.check_eq_ok_iff.mp hcheck
  have hsteps : ∀ step ∈ c.steps.reverse, s.calendars step.calendar = s'.calendars step.calendar := by
    intro step hstep
    exact hcalendars step (List.mem_map_of_mem (List.mem_reverse.mp hstep))
  simp only [scheduleChain, placeAll_congr hfallback _ hsteps]

end Scheduler

namespace Planner

variable {p q : Planner}

/-- All tables are read into memory. -/
def loaded (p : Planner) : Planner :=
  { p with
    products := p.products.loaded
    facilities := p.facilities.loaded
    calendars := p.calendars.loaded
    routings := p.routings.loaded
    bom := p.bom.loaded
    requirements := p.requirements.loaded }

/-- The tables are orderly, and every name that a record or an option refers to can be asked for. -/
structure IsOrderly (p : Planner) : Prop where
  products : p.products.IsOrderly
  facilities : p.facilities.IsOrderly
  calendars : p.calendars.IsOrderly
  routings : p.routings.IsOrderly
  bom : p.bom.IsOrderly
  requirements : p.requirements.IsOrderly
  product_ids : ∀ e ∈ p.products.entries, Text.isStorable e.2.id
  calendar_ids : ∀ e ∈ p.calendars.entries, ∃ id : Text, e.1 = .text id ∧ e.2.id = some id ∧ id.isEncodable
  task_calendars : ∀ e ∈ p.routings.entries, ∀ task ∈ e.2.tasks, Text.isStorable task.calendar
  components : ∀ e ∈ p.bom.entries, e.2.component.isEncodable
  supplierCalendar : Text.isStorable p.options.supplierCalendar
  fallbackCalendar : Text.isStorable p.options.fallbackCalendar
  defaultFacility : Text.isStorable p.options.defaultFacility

/-- Names that tables can be asked for. -/
def IsStorable (id : Text) : Prop := id.isEncodable

theorem isStorable_iff {name : Option Text} : Text.isStorable name ↔ ∀ id ∈ name, IsStorable id := by
  cases name <;> simp [Text.isStorable, IsStorable]

theorem allowsDefaults_isStorable : AllowsDefaults IsStorable where
  drawn := by
    rintro _ ⟨ids, n, rfl⟩
    exact ids.isEncodable n
  facility := Text.isEncodable_ofString _

theorem isStorable_or {name other : Option Text} (hname : Text.isStorable name) (hother : Text.isStorable other) :
    Text.isStorable ((Text.nonEmpty name).or other) := by
  apply isStorable_iff.mpr
  intro id hid
  rcases Option.or_eq_some_iff.mp hid with hgiven | ⟨-, hdefault⟩
  · exact isStorable_iff.mp hname id (Text.mem_of_mem_nonEmpty hgiven)
  · exact isStorable_iff.mp hother id hdefault

/-- A change in which all names have bytes keeps a planner orderly. -/
theorem IsOrderly.of_change {part : Option Part} (h : p.IsOrderly) (hchange : p.Change IsStorable part q) :
    q.IsOrderly := by
  cases hchange with
  | @product record id products hid hknown hvirtual hadd =>
    refine { h with products := h.products.of_add hadd, product_ids := fun e he => ?_ }
    rcases (Store.mem_entries_of_add hadd e).mp he with rfl | he
    · exact isStorable_iff.mpr fun _ hmem => Option.some.inj (hid.symm.trans hmem) ▸ hknown
    · exact h.product_ids e he
  | facility settings hproduct hdays hupsert =>
    have hnamed : p.facilities.upsert (.named (some settings.key)) settings = .ok _ := hupsert
    exact { h with facilities := h.facilities.of_upsert hnamed }
  | @calendar record id calendars hid hknown hshifts hadd =>
    refine { h with calendars := h.calendars.of_add hadd, calendar_ids := fun e he => ?_ }
    rcases (Store.mem_entries_of_add hadd e).mp he with rfl | he
    · exact ⟨id, rfl, hid, hknown⟩
    · exact h.calendar_ids e he
  | calendarEdited hedit =>
    refine { h with calendars := h.calendars.of_editFetched hedit, calendar_ids := fun e he => ?_ }
    obtain ⟨held, hget, rfl | hupsert⟩ := Store.editFetched_eq_ok hedit
    · exact h.calendar_ids e he
    · rcases Store.mem_entries_of_upsert hupsert he with rfl | he
      · exact h.calendar_ids (_, held) (Store.mem_entries_of_get hget)
      · exact h.calendar_ids e he
  | calendarReplaced hget hid hshifts hupsert =>
    refine { h with calendars := h.calendars.of_upsert hupsert, calendar_ids := fun e he => ?_ }
    rcases Store.mem_entries_of_upsert hupsert he with rfl | he
    · obtain ⟨id, -, hheld, hencodable⟩ := h.calendar_ids _ (Store.mem_entries_of_get hget)
      exact ⟨id, by rw [hid, hheld]; rfl, hid.trans hheld, hencodable⟩
    · exact h.calendar_ids e he
  | routing hknown hproduct hcalendars hadd =>
    refine { h with routings := h.routings.of_add hadd, task_calendars := fun e he => ?_ }
    rcases (Store.mem_entries_of_add hadd e).mp he with rfl | he
    · exact fun task htask => isStorable_iff.mpr (hcalendars task htask)
    · exact h.task_calendars e he
  | component record hknown hids hproduct hcomponent hne hadd =>
    refine { h with bom := h.bom.of_add hadd, components := fun e he => ?_ }
    rcases (Store.mem_entries_of_add hadd e).mp he with rfl | he
    · exact hids.2
    · exact h.components e he
  | requirement hknown hadd => exact { h with requirements := h.requirements.of_add hadd }
  | options hrefs =>
    exact { h with
      supplierCalendar := isStorable_iff.mpr (hrefs _ (by simp [PlanningOptions.names]))
      fallbackCalendar := isStorable_iff.mpr (hrefs _ (by simp [PlanningOptions.names]))
      defaultFacility := isStorable_iff.mpr (hrefs _ (by simp [PlanningOptions.names])) }
  | bound | estimator => exact { h with }

theorem mem_routings_of_findRouting {product : Option Text} {asOf : Option Moment} {routing : Routing}
    (h : p.findRouting product asOf = .ok (some routing)) : ∃ key, (key, routing) ∈ p.routings.entries := by
  obtain ⟨found, hfind, hfirst⟩ := bind_eq_ok_iff.mp h
  obtain ⟨records, hrecords, rfl⟩ := map_eq_ok_iff.mp hfind
  exact (Store.mem_toList_iff hrecords).mp (List.mem_of_mem_filter (mem_of_firstActive hfirst))

/-- A routing that is resolved to is a stored one, of the product itself or of the one that stands in for it. -/
theorem mem_routings_of_resolveRouting {product : Product} {asOf : Option Moment} {routing : Routing}
    (h : (p.resolveRouting product asOf).result = .ok routing) : ∃ key, (key, routing) ∈ p.routings.entries := by
  unfold resolveRouting at h
  simp only [Logged.result_bind, Logged.result_lift] at h
  obtain ⟨found, hfind, h⟩ := bind_eq_ok_iff.mp h
  cases found with
  | some routing =>
    obtain rfl := Except.ok.inj h
    exact mem_routings_of_findRouting hfind
  | none =>
    dsimp only at h
    cases hvirtual : Text.nonEmpty product.virtualProduct with
    | none => simp [hvirtual] at h
    | some virtualProduct =>
      simp only [hvirtual, Logged.result_bind, Logged.result_lift] at h
      obtain ⟨found, hfind, h⟩ := bind_eq_ok_iff.mp h
      cases found with
      | none => cases h
      | some routing =>
        obtain rfl := Except.ok.inj h
        exact mem_routings_of_findRouting hfind

theorem settleQuantity_refs {order : ProposedOrder} {reorder : Option Amount} {settled : SettledOrder}
    (h : p.settleQuantity order reorder = .ok settled) :
    settled.order.product = order.product ∧ settled.order.facility = order.facility ∧
      settled.order.manufacturingFacility = order.manufacturingFacility := by
  obtain ⟨_, -, h⟩ := bind_eq_ok_iff.mp h
  obtain ⟨raised, -, h⟩ := bind_eq_ok_iff.mp h
  cases raised <;> obtain rfl := Except.ok.inj h <;> exact ⟨rfl, rfl, rfl⟩

namespace IsOrderly

variable (h : p.IsOrderly)

include h

theorem resolve_loaded {ref : Option Text} (href : Text.isStorable ref) :
    p.loaded.registry.resolve ref = p.registry.resolve ref := by
  cases ref with
  | none => rfl
  | some name =>
    have hget := h.calendars.loaded_get href
    simp only [RecordId.named] at hget
    simp only [CalendarRegistry.resolve, CalendarRegistry.bound?, registry, loaded, hget]

theorem subtract_loaded {ref : Option Text} (href : Text.isStorable ref) :
    p.loaded.registry.subtract ref = p.registry.subtract ref := by
  funext finish d
  rw [CalendarRegistry.subtract, h.resolve_loaded href, CalendarRegistry.subtract]

theorem product_loaded {name : Option Text} (hname : Text.isStorable name) :
    p.loaded.products.get (.named name) = p.products.get (.named name) := h.products.loaded_get hname

theorem facility?_loaded {product facility : Option Text} (hproduct : Text.isStorable product)
    (hfacility : Text.isStorable facility) : p.loaded.facility? product facility = p.facility? product facility := by
  have hkey := ProductFacility.isEncodable_keyOf hproduct hfacility
  have hget := @Store.IsOrderly.loaded_get _ _ (some _) hkey h.facilities
  simp only [RecordId.named] at hget
  rw [facility?, loaded, hget, facility?]

theorem shippingDays_loaded {product facility : Option Text} (hproduct : Text.isStorable product)
    (hfacility : Text.isStorable facility) :
    p.loaded.shippingDays product facility = p.shippingDays product facility := by
  rw [shippingDays, h.facility?_loaded hproduct hfacility, shippingDays]

theorem ownStart_loaded {product facility : Option Text} (hproduct : Text.isStorable product)
    (hfacility : Text.isStorable facility) (required : Moment) :
    p.loaded.ownStart product facility required = p.ownStart product facility required := by
  rw [ownStart, shippingTime, h.shippingDays_loaded hproduct hfacility, ownStart, shippingTime]

theorem componentsOf_loaded : p.loaded.componentsOf = p.componentsOf := by
  funext product asOf
  rw [componentsOf, loaded, h.bom.loaded_find, componentsOf]

theorem findRouting_loaded : p.loaded.findRouting = p.findRouting := by
  funext product asOf
  rw [findRouting, loaded, h.routings.loaded_find, findRouting]

theorem resolveRouting_loaded : p.loaded.resolveRouting = p.resolveRouting := by
  funext product asOf
  rw [resolveRouting, h.findRouting_loaded, resolveRouting]

theorem isBuilt_loaded : p.loaded.isBuilt = p.isBuilt := by
  funext product asOf
  rw [isBuilt, h.resolveRouting_loaded, h.componentsOf_loaded, isBuilt]

theorem listRequirements_loaded : p.loaded.listRequirements = p.listRequirements := by
  funext product
  rw [listRequirements, loaded, h.requirements.loaded_find, listRequirements]

theorem checkFallback_loaded {r : OptionsRequest} (href : Text.isStorable r.fallbackCalendar) :
    r.checkFallback p.loaded = r.checkFallback p := by
  unfold OptionsRequest.checkFallback
  cases hname : Text.nonEmpty r.fallbackCalendar with
  | none => rfl
  | some ref =>
    have hmem : ref ∈ r.fallbackCalendar := Text.mem_of_mem_nonEmpty hname
    have hresolve : p.loaded.registry.resolve (some ref) = p.registry.resolve (some ref) :=
      h.resolve_loaded (isStorable_iff.mp href ref hmem)
    simp only [hresolve]

theorem fallbackCalendar_loaded : p.loaded.fallbackCalendar = p.fallbackCalendar := by
  have hresolve := h.resolve_loaded h.fallbackCalendar
  have hoptions : p.loaded.options = p.options := rfl
  unfold Planner.fallbackCalendar
  rw [hoptions]
  cases href : p.options.fallbackCalendar with
  | none => rfl
  | some ref =>
    rw [href] at hresolve
    simp only [hresolve]

/-- The schedulers of the two planners may differ, but only for names that no table can be asked for. -/
theorem scheduler_bind_loaded {α : Type} {f : Scheduler → Logged α}
    (hf : ∀ fallback, f ⟨p.loaded.registry.subtract, fallback⟩ = f ⟨p.registry.subtract, fallback⟩) :
    p.loaded.scheduler >>= f = p.scheduler >>= f := by
  simp only [scheduler, h.fallbackCalendar_loaded, Bind.bind, Logged.bind]
  cases p.fallbackCalendar.result with
  | error e => rfl
  | ok calendar => simp only [pure, Logged.pure, hf]

theorem schedule_loaded {r : ScheduleRequest} (hrefs : ∀ step, .proper step ∈ r.steps → Text.isStorable step.calendar)
    (fallback : WorkingTime) :
    Scheduler.schedule ⟨p.loaded.registry.subtract, fallback⟩ r =
      Scheduler.schedule ⟨p.registry.subtract, fallback⟩ r := by
  refine Scheduler.schedule_congr ?_ fun step hstep => h.subtract_loaded (hrefs step hstep)
  rfl

theorem scheduleRouting_loaded {routing : Routing} (hrefs : ∀ task ∈ routing.tasks, Text.isStorable task.calendar)
    (completion : Moment) (quantity : Amount) (trailingOffset : Span) :
    p.loaded.scheduleRouting routing completion quantity trailingOffset =
      p.scheduleRouting routing completion quantity trailingOffset := by
  refine h.scheduler_bind_loaded fun fallback => h.schedule_loaded (fun step hstep => ?_) fallback
  obtain ⟨task, htask, hstep⟩ := List.mem_map.mp hstep
  exact Given.proper.inj hstep ▸ hrefs task htask

theorem boughtStart_loaded (order : ProposedOrder) (due : Moment) (offset : Duration) :
    p.loaded.boughtStart order due offset = p.boughtStart order due offset := by
  apply h.scheduler_bind_loaded
  intro fallback
  rw [h.schedule_loaded (fun step hstep => ?_) fallback]
  obtain rfl := Given.proper.inj (List.mem_singleton.mp hstep)
  exact h.supplierCalendar

theorem builtStart_loaded {routing : Routing} (hrefs : ∀ task ∈ routing.tasks, Text.isStorable task.calendar)
    (order : ProposedOrder) (due : Moment) (offset : Duration) :
    p.loaded.builtStart order due offset routing = p.builtStart order due offset routing := by
  rw [builtStart, h.scheduleRouting_loaded hrefs, builtStart]

theorem tasks_of_resolveRouting {product : Product} {asOf : Option Moment} {routing : Routing}
    (hresolve : (p.resolveRouting product asOf).result = .ok routing) :
    ∀ task ∈ routing.tasks, Text.isStorable task.calendar := by
  obtain ⟨key, hmem⟩ := mem_routings_of_resolveRouting hresolve
  exact h.task_calendars (key, routing) hmem

theorem calculateStartDate_loaded {routing : Option Routing}
    (hrefs : ∀ given ∈ routing, ∀ task ∈ given.tasks, Text.isStorable task.calendar) (order : ProposedOrder)
    (days : Amount) : p.loaded.calculateStartDate order days routing = p.calculateStartDate order days routing := by
  have hoffset : p.loaded.leadTimeOffset days = p.leadTimeOffset days := rfl
  unfold calculateStartDate
  simp only [h.boughtStart_loaded, h.resolveRouting_loaded, hoffset]
  cases order.requiredBy with
  | none => rfl
  | some due =>
    apply Logged.bind_congr
    intro offset _
    cases order.isMade with
    | false => simp only [Bool.not_false, if_true]
    | true =>
      simp only [Bool.not_true, Bool.false_eq_true, if_false]
      cases routing with
      | some given => exact h.builtStart_loaded (hrefs given rfl) order due offset
      | none =>
        apply Logged.bind_congr
        intro resolved hresolved
        cases resolved with
        | inr failure => rfl
        | inl found =>
          have hfound : (p.resolveRouting order.product (some due)).result = .ok found := by
            rw [Logged.result_tryCatch, Logged.result_map] at hresolved
            cases hresult : (p.resolveRouting order.product (some due)).result with
            | ok routing =>
              simp only [hresult, Except.map_ok, Except.ok.injEq, Sum.inl.injEq] at hresolved
              rw [hresolved]
            | error e =>
              simp only [hresult, Except.map_error] at hresolved
              split at hresolved <;> cases hresolved
          exact h.builtStart_loaded (h.tasks_of_resolveRouting hfound) order due offset

theorem explodeBelow_loaded {facility : Option Text} (hfacility : Text.isStorable facility) {product : Text}
    (hproduct : product.isEncodable) (required : Moment) {explode explode' : Text → Moment → Except PlanError Moment}
    (hexplode : ∀ component : Text, component.isEncodable → explode' component = explode component) :
    p.loaded.explodeBelow facility explode' product required = p.explodeBelow facility explode product required := by
  have hstorable : Text.isStorable (some product) := hproduct
  have hloaded : p.loaded.explodeBelow facility explode' product required =
      p.explodeBelow facility explode' product required := by
    rw [explodeBelow, h.ownStart_loaded hstorable hfacility, h.componentsOf_loaded, explodeBelow]
  rw [hloaded]
  apply explodeBelow_congr
  intro components hcomponents c hc
  obtain ⟨⟨key, hmem⟩, -, -⟩ := (mem_componentsOf_iff hcomponents).mp hc
  exact hexplode c.component (h.components (key, c) hmem)

theorem explodeWithin_loaded {facility : Option Text} (hfacility : Text.isStorable facility) (fuel : Nat)
    (path : List Text) {product : Text} (hproduct : product.isEncodable) :
    p.loaded.explodeWithin facility fuel path product = p.explodeWithin facility fuel path product := by
  funext required
  induction fuel generalizing path product required with
  | zero => rfl
  | succ fuel ih =>
    have hstorable : Text.isStorable (some product) := hproduct
    have hget : p.loaded.products.get (.text product) = p.products.get (.text product) := h.product_loaded hstorable
    have hexpanded : p.loaded.isExpanded path product = p.isExpanded path product := by
      unfold isExpanded
      rw [hget]
    have hbelow := h.explodeBelow_loaded hfacility hproduct required fun component hcomponent =>
      funext (ih (path ++ [product]) hcomponent)
    simp only [explodeWithin, hexpanded, hbelow]

theorem explosionStart_loaded {product facility : Option Text} (hproduct : Text.isStorable product)
    (hfacility : Text.isStorable facility) (required : Option Moment) :
    p.loaded.explosionStart product facility required = p.explosionStart product facility required := by
  have hlength : p.loaded.bom.length = p.bom.length := by
    rw [Store.length, loaded, h.bom.loaded_toList, Store.length]
  unfold explosionStart
  cases product with
  | none => exact h.ownStart_loaded hproduct hfacility _
  | some product =>
    rw [hlength]
    exact bind_congr_of_ok fun records _ => by rw [h.explodeWithin_loaded hfacility _ [] hproduct]

theorem recordedStart_loaded {order : ProposedOrder} (hproduct : Text.isStorable order.product.id)
    (hfacility : Text.isStorable order.manufacturingFacility) :
    p.loaded.recordedStart order = p.recordedStart order := by
  rw [recordedStart, h.explosionStart_loaded hproduct hfacility, recordedStart]

theorem settleQuantity_loaded {order : ProposedOrder} (hproduct : Text.isStorable order.product.id)
    (hfacility : Text.isStorable order.facility) (reorder : Option Amount) :
    p.loaded.settleQuantity order reorder = p.settleQuantity order reorder := by
  have hreorder : p.loaded.reorderQuantity order reorder = p.reorderQuantity order reorder := by
    unfold reorderQuantity
    rw [h.facility?_loaded hproduct hfacility]
  rw [settleQuantity, hreorder, settleQuantity]

theorem id_of_product {name : Option Text} {product : Product} (hget : p.products.get (.named name) = .ok product) :
    Text.isStorable product.id :=
  h.product_ids (_, product) (Store.mem_entries_of_get hget)

theorem facilityIn_ref {r : ProposalRequest} (hfacility : Text.isStorable r.facility) :
    Text.isStorable (r.facilityIn p) := isStorable_or hfacility h.defaultFacility

theorem order_loaded {r : ProposalRequest} (hproduct : Text.isStorable r.product)
    (hfacility : Text.isStorable r.facility) :
    r.order p.loaded = r.order p := by
  have hfacilityIn : r.facilityIn p.loaded = r.facilityIn p := rfl
  have hdraft : r.draft p.loaded = r.draft p := rfl
  have hbuilt : r.isBuiltIn p.loaded = r.isBuiltIn p := by
    funext product
    rw [ProposalRequest.isBuiltIn, h.isBuilt_loaded, ProposalRequest.isBuiltIn]
  have hdays : r.daysToShipIn p.loaded = r.daysToShipIn p := by
    unfold ProposalRequest.daysToShipIn
    rw [hfacilityIn, h.shippingDays_loaded hproduct (h.facilityIn_ref hfacility)]
  have hstart (order : ProposedOrder) (days : Amount) :
      p.loaded.calculateStartDate order days none = p.calculateStartDate order days none :=
    h.calculateStartDate_loaded (by simp) order days
  unfold ProposalRequest.order
  rw [h.product_loaded hproduct, hbuilt, hdays, hdraft]
  simp only [hstart]
  apply Logged.bind_congr
  intro _ _
  apply Logged.bind_congr
  intro product hget
  apply Logged.bind_congr
  intro isBuilt _
  have hsettle : p.loaded.settleQuantity (r.draft p product isBuilt) none =
      p.settleQuantity (r.draft p product isBuilt) none :=
    h.settleQuantity_loaded (h.id_of_product hget) (h.facilityIn_ref hfacility) none
  rw [hsettle]

/-- What the order of a request refers to can be asked for. -/
theorem order_refs {r : ProposalRequest} {outcome : ProposedOrder × StartDateCalculation}
    (hfacility : Text.isStorable r.facility) (hmanufacturing : Text.isStorable r.manufacturingFacility)
    (horder : (r.order p).result = .ok outcome) :
    Text.isStorable outcome.1.product.id ∧ Text.isStorable outcome.1.manufacturingFacility := by
  unfold ProposalRequest.order at horder
  simp only [Logged.result_bind, Logged.result_lift] at horder
  obtain ⟨_, -, horder⟩ := bind_eq_ok_iff.mp horder
  obtain ⟨product, hget, horder⟩ := bind_eq_ok_iff.mp horder
  obtain ⟨isBuilt, -, horder⟩ := bind_eq_ok_iff.mp horder
  obtain ⟨_, -, horder⟩ := bind_eq_ok_iff.mp horder
  obtain ⟨settled, hsettled, horder⟩ := bind_eq_ok_iff.mp horder
  obtain ⟨calculation, -, horder⟩ := bind_eq_ok_iff.mp horder
  obtain rfl := Except.ok.inj horder
  obtain ⟨hproduct, -, hfacility'⟩ := settleQuantity_refs hsettled
  rw [hproduct, hfacility']
  exact ⟨h.id_of_product hget, isStorable_or hmanufacturing (h.facilityIn_ref hfacility)⟩

end IsOrderly

end Planner

end SupplyPlan
