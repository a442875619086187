import SupplyPlan.Web.Handler
import SupplyPlan.Proofs.Calendar.ExactTime
import SupplyPlan.Proofs.Planning.Listing

namespace SupplyPlan

theorem mapM_eq_ok_iff {α β : Type} {f : α → Except PlanError β} {items : List α} {results : List β} :
    items.mapM f = .ok results ↔ List.Forall₂ (fun a b => f a = .ok b) items results := by
  induction items generalizing results with
  | nil => simp [pure, Except.pure, eq_comm]
  | cons a items ih =>
    rw [List.mapM_cons, bind_eq_ok_iff]
    constructor
    · rintro ⟨b, hb, h⟩
      obtain ⟨rest, hrest, h⟩ := bind_eq_ok_iff.mp h
      obtain rfl := Except.ok.inj h
      exact .cons hb (ih.mp hrest)
    · rintro (_ | ⟨hb, hrest⟩)
      exact ⟨_, hb, bind_eq_ok_iff.mpr ⟨_, ih.mpr hrest, rfl⟩⟩

theorem exists_forall₂_of_forall_mem {α β : Type} {R : α → β → Prop} {items : List α} (h : ∀ a ∈ items, ∃ b, R a b) :
    ∃ results, List.Forall₂ R items results := by
  induction items with
  | nil => exact ⟨[], .nil⟩
  | cons a items ih =>
    obtain ⟨⟨b, hb⟩, hrest⟩ := List.forall_mem_cons.mp h
    obtain ⟨results, hresults⟩ := ih hrest
    exact ⟨b :: results, .cons hb hresults⟩

theorem exists_of_mem_left {α β : Type} {R : α → β → Prop} {items : List α} {results : List β}
    (h : List.Forall₂ R items results) {a : α} (ha : a ∈ items) : ∃ b ∈ results, R a b := by
  induction h with
  | nil => cases ha
  | @cons first result rest results hfirst hrest ih =>
    obtain rfl | ha := List.mem_cons.mp ha
    · exact ⟨result, List.mem_cons_self, hfirst⟩
    · obtain ⟨b, hb, hab⟩ := ih ha
      exact ⟨b, List.mem_cons_of_mem result hb, hab⟩

theorem Json.areEncodable_iff {items : List Json} : areEncodable items = true ↔ ∀ item ∈ items, item.isEncodable := by
  induction items with
  | nil => simp [areEncodable]
  | cons item rest ih => simp [areEncodable, ih]

namespace Web

open Planning

variable {reader : Reader} {s : Session} {request : Request}

/-- A request for the list of requirements, which may be limited to a product. -/
def Request.AsksFor (request : Request) (product : Option Text) : Prop :=
  Target.of request.method request.path = .route .requirements ∧ request.productFilter = product

/-- A requirement that the list can show. -/
def CanBeShown (reader : Reader) (r : Requirement) : Prop :=
  ∃ body, requirementJson reader r = .ok body ∧ body.isEncodable

theorem result_handle_of_asksFor {product : Option Text} (h : request.AsksFor product) :
    ((reader.handle request).perform s).1 =
      listing reader s.planner product >>= fun body => (Answer.content 200 body).checked := by
  obtain ⟨htarget, rfl⟩ := h
  simp only [Reader.handle, respond, htarget, perform_bind, perform_ask]
  cases listing reader s.planner request.productFilter with
  | error e => rfl
  | ok body => rfl

theorem result_handle_of_listed {product : Option Text} (h : request.AsksFor product) {listed : List Requirement}
    (hlisted : s.planner.listRequirements product = .ok listed) :
    ((reader.handle request).perform s).1 =
      listed.mapM (requirementJson reader) >>= fun bodies => (Answer.content 200 (.array bodies)).checked := by
  rw [result_handle_of_asksFor h, listing, hlisted]
  simp only [bind, Except.bind]
  cases listed.mapM (requirementJson reader) <;> rfl

/-- A list is answered with all its requirements if and only if each of them can be shown. -/
theorem shows_iff {product : Option Text} (h : request.AsksFor product) {listed : List Requirement}
    (hlisted : s.planner.listRequirements product = .ok listed) :
    (∃ bodies, List.Forall₂ (fun r body => requirementJson reader r = .ok body) listed bodies ∧
        ((reader.handle request).perform s).1 = .ok (.content 200 (.array bodies))) ↔
      ∀ r ∈ listed, CanBeShown reader r := by
  rw [result_handle_of_listed h hlisted]
  constructor
  · rintro ⟨bodies, hbodies, hanswer⟩ r hr
    rw [mapM_eq_ok_iff.mpr hbodies] at hanswer
    have hencodable : Json.areEncodable bodies = true := by
      by_contra hnot
      have hrefused : (Answer.content 200 (.array bodies)).checked = .error .unwritableResponse := by
        simp [Answer.checked, Json.isEncodable, hnot]
      cases hrefused.symm.trans hanswer
    obtain ⟨body, hbody, hshown⟩ := exists_of_mem_left hbodies hr
    exact ⟨body, hshown, Json.areEncodable_iff.mp hencodable body hbody⟩
  · intro hshown
    obtain ⟨bodies, hbodies⟩ := exists_forall₂_of_forall_mem hshown
    have hresults : List.Forall₂ (fun r body => requirementJson reader r = .ok body) listed bodies :=
      hbodies.imp fun r body h => h.1
    have hencodable : Json.areEncodable bodies = true := by
      refine Json.areEncodable_iff.mpr fun body hbody => ?_
      obtain ⟨r, -, -, hencodable⟩ := exists_of_mem_left hbodies.flip hbody
      exact hencodable
    refine ⟨bodies, hresults, ?_⟩
    rw [mapM_eq_ok_iff.mpr hresults]
    simp [bind, Except.bind, Answer.checked, Json.isEncodable, hencodable]

end Web

open Web

/-- The requirements of a product, or all of them, where they are planned for instants. If a naive and an aware one are
among them, neither the list nor an answer to a request for it can be given. Otherwise the list holds each of them once,
in the order of their dates, and equal dates in the order of the store; a request is answered with the whole list if and
only if each requirement of it can be shown. -/
theorem Session.Planned.listsRequirements {s : Session} (hs : s.Planned) (reader : Reader) (product : Option Text) :
    ∃ matching, s.planner.requirements.find (·.isFor product) = .ok matching ∧
      ((∃ r ∈ matching, ∃ r' ∈ matching, r.isAware ≠ r'.isAware) →
        s.planner.listRequirements product = .error .typeMismatch ∧
          ∀ request, Request.AsksFor request product → ((reader.handle request).perform s).1 = .error .typeMismatch) ∧
      ((∀ r ∈ matching, ∀ r' ∈ matching, r.isAware = r'.isAware) →
        ∃ listed, s.planner.listRequirements product = .ok listed ∧
          Sorting.Orders Requirement.dueClock matching listed ∧
          ∀ request, Request.AsksFor request product →
            ((∃ bodies, List.Forall₂ (fun r body => requirementJson reader r = .ok body) listed bodies ∧
                ((reader.handle request).perform s).1 = .ok (.content 200 (.array bodies))) ↔
              ∀ r ∈ matching, CanBeShown reader r)) := by
  obtain ⟨matching, hfind, hdated⟩ := hs.hasDatedRequirements.exists_find product
  refine ⟨matching, hfind, fun hmixed => ?_, fun halike => ?_⟩
  · have herror := Planner.listRequirements_eq_error hfind hdated hmixed
    refine ⟨herror, fun request hasks => ?_⟩
    rw [result_handle_of_asksFor hasks, listing, herror]
    rfl
  · obtain ⟨listed, hlisted, horders⟩ := Planner.exists_listRequirements hfind hdated halike
    refine ⟨listed, hlisted, horders, fun request hasks => ?_⟩
    rw [shows_iff hasks hlisted]
    exact forall_congr' fun r => by rw [horders.perm.mem_iff]

/-- Five pieces of a product that is bought and comes without delay. -/
def Operation.need (product : Text) (due : Instant) : Operation :=
  proposeOrder
    { product := some product
      requiredBy := some (.proper due)
      quantity := .proper (.int 5)
      facility := none
      manufacturingFacility := none
      isBuilt := some false
      daysToShip := some (.proper (.int 0))
      planName := none }

/-- The same reading of the clock in universal time. -/
def Instant.universal (t : Instant) : Instant := { t with offset := some 0 }

namespace Session

/-- A session in which nails are needed, each time at another instant. -/
def nails (dues : List Instant) : Session :=
  (dues.map (Operation.need "NAIL")).foldl after
    ((fresh .numbered (.inMemory .standard)).after (.register "NAIL" .rawMaterial))

theorem Planned.foldl {s : Session} (h : s.Planned) {ops : List Operation} (hops : ∀ op ∈ ops, op.IsDated) :
    (ops.foldl Session.after s).Planned := by
  induction ops generalizing s with
  | nil => exact h
  | cons op rest ih =>
    obtain ⟨hop, hrest⟩ := List.forall_mem_cons.mp hops
    exact ih (h.after hop) hrest

theorem nails_planned (dues : List Instant) : (nails dues).Planned := by
  have hregistered : ((fresh .numbered (.inMemory .standard)).after (.register "NAIL" .rawMaterial)).Planned :=
    (Planned.inMemory .numbered .standard).after trivial
  apply hregistered.foldl
  intro op hop
  obtain ⟨due, -, rfl⟩ := List.mem_map.mp hop
  exact ⟨due, rfl⟩

/-- Nails that are needed at two hours of a day, the later ones asked for first, are listed by the hours and shown. -/
theorem nails_listsRequirements :
    ∃ s listed bodies, s = nails [.onTuesday 15, .onTuesday 9] ∧ s.Planned ∧
      s.planner.listRequirements none = .ok listed ∧ listed.map (·.id) = [("id-2" : Text), "id-1"] ∧
      ((Reader.standard.handle
        { method := "GET", path := "/requirements", productFilter := none, body := .absent }).perform s).1 =
          .ok (.content 200 (.array bodies)) := by
  obtain ⟨s, hs⟩ : ∃ s, s = nails [.onTuesday 15, .onTuesday 9] := exists_eq
  have hplanned : s.Planned := hs ▸ nails_planned _
  have hids : (s.planner.listRequirements none).toOption.map (·.map (·.id)) = some [("id-2" : Text), "id-1"] := by
    rw [hs]
    decide +kernel
  have hshown : (s.planner.requirements.find (·.isFor none)).toOption.map
      (·.all fun r => !r.isAware && (requirementJson .standard r).toOption.any Json.isEncodable) = some true := by
    rw [hs]
    decide +kernel
  obtain ⟨matching, hfind, -, hlists⟩ := hplanned.listsRequirements .standard none
  rw [hfind, Except.toOption, Option.map_some, Option.some_inj, List.all_eq_true] at hshown
  have hnaive : ∀ r ∈ matching, r.isAware = false ∧ CanBeShown .standard r := by
    intro r hr
    obtain ⟨haware, hbody⟩ := Bool.and_eq_true_iff.mp (hshown r hr)
    refine ⟨by simpa using haware, ?_⟩
    cases hresult : requirementJson .standard r with
    | error e => simp [hresult, Except.toOption] at hbody
    | ok body => exact ⟨body, hresult, by simpa [hresult, Except.toOption] using hbody⟩
  have halike : ∀ r ∈ matching, ∀ r' ∈ matching, r.isAware = r'.isAware := by
    intro r hr r' hr'
    rw [(hnaive r hr).1, (hnaive r' hr').1]
  obtain ⟨listed, hlisted, -, hanswers⟩ := hlists halike
  obtain ⟨bodies, -, hanswer⟩ := (hanswers
    { method := "GET", path := "/requirements", productFilter := none, body := .absent } ⟨by decide, rfl⟩).mpr
      fun r hr => (hnaive r hr).2
  rw [hlisted] at hids
  exact ⟨s, listed, bodies, hs, hplanned, hlisted, Option.some.inj hids, hanswer⟩

/-- Naive and aware nails cannot be listed together. -/
theorem not_exists_listRequirements :
    ¬ ∀ s : Session, s.Planned → ∀ product, ∃ listed, s.planner.listRequirements product = .ok listed := by
  intro h
  obtain ⟨s, hs⟩ : ∃ s, s = nails [.onTuesday 9, .universal (.onTuesday 15)] := exists_eq
  have herror : (s.planner.listRequirements none).isOk = false := by
    rw [hs]
    decide +kernel
  obtain ⟨listed, hlisted⟩ := h s (hs ▸ nails_planned _) none
  rw [hlisted] at herror
  cases herror

end Session

end SupplyPlan
