import SupplyPlan.Planning.StartDate
import SupplyPlan.Proofs.Calendar.ExactTime
import SupplyPlan.Proofs.Calendar.Registry
import SupplyPlan.Proofs.Planning.Change

namespace SupplyPlan

open Planning

/-- The larger of an amount and an integer is at least that integer, so it stays the larger one. -/
theorem Amount.larger_larger {given larger : Amount} {n : Int} (h : given.larger (.proper (.int n)) = .ok larger) :
    larger.larger (.proper (.int n)) = .ok larger := by
  obtain ⟨less, hless, hlarger⟩ := bind_eq_ok_iff.mp h
  cases less with
  | true =>
    obtain rfl := Except.ok.inj hlarger
    rw [larger_proper, Quantity.larger_int, max_self]
  | false =>
    obtain rfl := Except.ok.inj hlarger
    exact h

theorem WorkingCalendar.exists_ofShifts {calendar : ShiftCalendar} (hasShifts : calendar.shifts ≠ [])
    {lookback given : Amount} (hlookback : lookback.larger (.proper (.int 1)) = .ok given) :
    ∃ found, ofShifts calendar lookback = .ok found := by
  rw [ofShifts, dif_pos hasShifts, hlookback]
  simp only [bind, Except.bind]
  split <;> exact ⟨_, rfl⟩

namespace CalendarRegistry

variable {reg : CalendarRegistry} {ref : Text} {calendar : WorkingCalendar}

theorem resolve_of_bound (hbound : reg.bound? ref = some calendar) : reg.resolve (some ref) = .ok calendar := by
  simp only [resolve, hbound]

/-- A stored calendar has to have shifts to be of use. -/
def HasShifts (reg : CalendarRegistry) (ref : Text) : Prop :=
  ∃ calendar, reg.stored.get (.text ref) = .ok calendar ∧ calendar.shifts ≠ []

theorem hasShifts_of_resolve (hbound : reg.bound? ref = none) (h : reg.resolve (some ref) = .ok calendar) :
    reg.HasShifts ref := by
  cases hget : reg.stored.get (.text ref) with
  | error e =>
    simp only [resolve, hbound, hget] at h
    cases e <;> cases h
  | ok stored =>
    refine ⟨stored, hget, fun hnone => ?_⟩
    obtain ⟨_, _, hnowhere⟩ := (LeadsNowhere.withoutShifts hbound hget hnone).resolve_eq
    rw [h] at hnowhere
    cases hnowhere

theorem HasShifts.exists_resolve (h : reg.HasShifts ref) {given : Amount}
    (hlookback : reg.lookback.larger (.proper (.int 1)) = .ok given) :
    ∃ calendar, reg.resolve (some ref) = .ok calendar := by
  cases hbound : reg.bound? ref with
  | some calendar => exact ⟨calendar, resolve_of_bound hbound⟩
  | none =>
    obtain ⟨stored, hget, hshifts⟩ := h
    simp only [resolve, hbound, hget]
    exact WorkingCalendar.exists_ofShifts hshifts hlookback

/-- Where only the time without breaks is bound, all other calendars come from the store. -/
theorem exists_resolve_iff (hbound : reg.bound = standardBindings) {given : Amount}
    (hlookback : reg.lookback.larger (.proper (.int 1)) = .ok given) :
    (∃ calendar, reg.resolve (some ref) = .ok calendar) ↔ ref = continuousId ∨ reg.HasShifts ref := by
  by_cases hcontinuous : ref = continuousId
  · have hfound : reg.bound? ref = some continuousTime := by
      rw [bound?, hbound, hcontinuous]
      rfl
    exact iff_of_true ⟨_, resolve_of_bound hfound⟩ (.inl hcontinuous)
  · have hnone : reg.bound? ref = none := by
      simp [bound?, hbound, standardBindings, Ne.symm hcontinuous]
    constructor
    · rintro ⟨calendar, h⟩
      exact .inr (hasShifts_of_resolve hnone h)
    · rintro (h | h)
      · exact absurd h hcontinuous
      · exact h.exists_resolve hlookback

end CalendarRegistry

namespace Planner

variable {p : Planner} {ref : Text}

theorem fallbackCalendar_of_resolve (hoption : p.options.fallbackCalendar = some ref) {calendar : WorkingCalendar}
    (h : p.registry.resolve (some ref) = .ok calendar) : p.fallbackCalendar.result = .ok calendar := by
  simp only [fallbackCalendar, hoption, h]
  rfl

theorem fallbackCalendar_of_unavailable (hoption : p.options.fallbackCalendar = some ref) {named : Option Text}
    {fault : CalendarFault} (h : p.registry.resolve (some ref) = .error (.calendarUnavailable named fault)) :
    p.fallbackCalendar.result = .ok continuousTime := by
  simp only [fallbackCalendar, hoption, h]
  rfl

end Planner

namespace OptionsRequest

variable {r : OptionsRequest} {p : Planner}

theorem exists_resolve_of_checkFallback {ref : Text} (href : Text.nonEmpty r.fallbackCalendar = some ref)
    (h : r.checkFallback p = .ok ()) : ∃ calendar, p.registry.resolve (some ref) = .ok calendar := by
  simp only [checkFallback, href] at h
  cases hresolve : p.registry.resolve (some ref) with
  | ok calendar => exact ⟨calendar, rfl⟩
  | error e =>
    rw [hresolve] at h
    cases e <;> cases h

theorem lookback_of_options {options : PlanningOptions} (h : r.options = .ok options) :
    options.lookback.larger (.proper (.int 1)) = .ok options.lookback := by
  obtain ⟨_, -, h⟩ := bind_eq_ok_iff.mp h
  obtain ⟨_, -, h⟩ := bind_eq_ok_iff.mp h
  obtain ⟨lookback, hlookback, h⟩ := bind_eq_ok_iff.mp h
  obtain rfl := Except.ok.inj h
  exact Amount.larger_larger hlookback

end OptionsRequest

/-- The planner with other options, and with calendars that have been set up anew for them. -/
def Planner.withOptions (p : Planner) (options : PlanningOptions) : Planner :=
  { p with options, bound := standardBindings, lookback := options.lookback }

/-- Everything that can fail comes before the options are replaced. -/
theorem updateOptions_cases (r : OptionsRequest) (s : Session) :
    (∃ e, ((updateOptions r).perform s).1 = .error e ∧ ((updateOptions r).perform s).2.planner = s.planner) ∨
      ∃ options, ((updateOptions r).perform s).1 = .ok options ∧ r.checkFallback s.planner = .ok () ∧
        r.options = .ok options ∧ ((updateOptions r).perform s).2.planner = s.planner.withOptions options := by
  unfold updateOptions
  simp only [perform_bind, perform_ask]
  cases hcheck : r.checkFallback s.planner with
  | error e => exact .inl ⟨e, rfl, rfl⟩
  | ok _ =>
    cases hoptions : r.options with
    | error e => exact .inl ⟨e, rfl, rfl⟩
    | ok options => exact .inr ⟨options, rfl, rfl, rfl, rfl⟩

/-- Options with a fallback calendar; everything else is as usual. -/
def OptionsRequest.fallingBackOn (ref : Text) : OptionsRequest where
  workingHoursPerDay := .proper (.int 8)
  supplierCalendar := some continuousId
  fallbackCalendar := some ref
  lookback := .proper (.int defaultLookback)
  defaultFacility := some standardFacility

/-- A calendar that is bound, but not stored, is accepted and then dropped. -/
theorem not_exists_resolve_of_updateOptions : ¬ ∀ (s : Session) (r : OptionsRequest) (options : PlanningOptions)
    (ref : Text), ((updateOptions r).perform s).1 = .ok options → r.fallbackCalendar = some ref → ref ≠ "" →
      ∃ calendar, ((updateOptions r).perform s).2.planner.registry.resolve (some ref) = .ok calendar := by
  intro hall
  obtain ⟨s, hs⟩ : ∃ s, s = (Session.fresh .numbered (.inMemory .standard)).after
      (.bindCalendar (some "NIGHT") (.shifts .aroundTheClock)) := exists_eq
  have hok : ((updateOptions (.fallingBackOn "NIGHT")).perform s).1.isOk = true := by
    rw [hs]
    decide +kernel
  have hdropped : (((updateOptions (.fallingBackOn "NIGHT")).perform s).2.planner.registry.resolve
      (some "NIGHT")).isOk = false := by
    rw [hs]
    decide +kernel
  obtain ⟨options, hoptions⟩ := exists_of_isOk hok
  obtain ⟨calendar, hresolve⟩ := hall s _ options "NIGHT" hoptions rfl (by decide)
  rw [hresolve] at hdropped
  cases hdropped

/-- Options that are refused change nothing. The fallback calendar of options that are accepted could be used before the
calendars were set up anew. It can be used afterwards if it is the one without breaks or a stored one with shifts, and
only then; so a calendar that was not bound stays of use. Work falls back on it then, and on the time without breaks
where it has become unavailable. -/
theorem updateOptions_fallback (s : Session) (r : OptionsRequest) :
    (∀ e, ((updateOptions r).perform s).1 = .error e → ((updateOptions r).perform s).2.planner = s.planner) ∧
      ∀ options ref, ((updateOptions r).perform s).1 = .ok options → r.fallbackCalendar = some ref → ref ≠ "" →
        ∃ p, ((updateOptions r).perform s).2.planner = p ∧ p.options = options ∧
          p.options.fallbackCalendar = some ref ∧
          (∃ calendar, s.planner.registry.resolve (some ref) = .ok calendar) ∧
          ((∃ calendar, p.registry.resolve (some ref) = .ok calendar) ↔
            ref = continuousId ∨ s.planner.registry.HasShifts ref) ∧
          (s.planner.registry.bound? ref = none → ∃ calendar, p.registry.resolve (some ref) = .ok calendar) ∧
          (∀ calendar, p.registry.resolve (some ref) = .ok calendar → p.fallbackCalendar.result = .ok calendar) ∧
          (∀ named fault, p.registry.resolve (some ref) = .error (.calendarUnavailable named fault) →
            p.fallbackCalendar.result = .ok continuousTime) := by
  rcases updateOptions_cases r s with ⟨e, hresult, hplanner⟩ | ⟨options, hresult, hcheck, hoptions, hplanner⟩
  · exact ⟨fun _ _ => hplanner, fun options _ hok => nomatch hresult.symm.trans hok⟩
  · refine ⟨fun e herror => (nomatch hresult.symm.trans herror), fun options' ref hok href hne => ?_⟩
    obtain rfl := Except.ok.inj (hresult.symm.trans hok)
    have hnonEmpty : Text.nonEmpty r.fallbackCalendar = some ref := by
      rw [href]
      exact Option.filter_some_pos (by simpa using hne)
    have hfallback : options.fallbackCalendar = some ref :=
      (OptionsRequest.options_refs hoptions).2.1.trans hnonEmpty
    obtain ⟨before, hbefore⟩ := OptionsRequest.exists_resolve_of_checkFallback hnonEmpty hcheck
    have hiff : (∃ calendar, (s.planner.withOptions options).registry.resolve (some ref) = .ok calendar) ↔
        ref = continuousId ∨ s.planner.registry.HasShifts ref :=
      CalendarRegistry.exists_resolve_iff rfl (OptionsRequest.lookback_of_options hoptions)
    refine ⟨s.planner.withOptions options, hplanner, rfl, hfallback, ⟨before, hbefore⟩, hiff, fun hnone => ?_, ?_, ?_⟩
    · exact hiff.mpr (.inr (CalendarRegistry.hasShifts_of_resolve hnone hbefore))
    · exact fun _ => Planner.fallbackCalendar_of_resolve hfallback
    · exact fun _ _ => Planner.fallbackCalendar_of_unavailable hfallback

/-- A calendar of early shifts is stored, and work falls back on it. -/
theorem updateOptions_fallback_site :
    ∃ s options calendar,
      s = (Session.fresh .numbered (.inMemory .standard)).after (.createShiftCalendar none [.early] (some "SITE") []) ∧
      ((updateOptions (.fallingBackOn "SITE")).perform s).1 = .ok options ∧
      ((updateOptions (.fallingBackOn "SITE")).perform s).2.planner.fallbackCalendar.result = .ok calendar ∧
      calendar.id? = some "SITE" := by
  obtain ⟨s, hs⟩ : ∃ s, s = (Session.fresh .numbered (.inMemory .standard)).after
      (.createShiftCalendar none [.early] (some "SITE") []) := exists_eq
  have hok : ((updateOptions (.fallingBackOn "SITE")).perform s).1.isOk = true := by
    rw [hs]
    decide +kernel
  have hunbound : s.planner.registry.bound? "SITE" = none := by
    rw [hs]
    rfl
  have hsite : (((updateOptions (.fallingBackOn "SITE")).perform s).2.planner.registry.resolve
      (some "SITE")).toOption.bind (·.id?) = some "SITE" := by
    rw [hs]
    decide +kernel
  obtain ⟨options, hoptions⟩ := exists_of_isOk hok
  obtain ⟨p, rfl, -, -, -, -, hstays, hfallback, -⟩ :=
    (updateOptions_fallback s (.fallingBackOn "SITE")).2 options "SITE" hoptions rfl (by decide)
  obtain ⟨calendar, hresolve⟩ := hstays hunbound
  rw [hresolve] at hsite
  exact ⟨s, options, calendar, hs, hoptions, hfallback calendar hresolve, hsite⟩

end SupplyPlan
