import SupplyPlan.Proofs.Number.Clamping
import SupplyPlan.Proofs.Planning.Frame
import SupplyPlan.Proofs.Planning.Options
import SupplyPlan.Proofs.Planning.Scheduling

namespace SupplyPlan

open Planning

namespace CalendarRegistry

variable {reg : CalendarRegistry} {ref : Option Text}

theorem IsPlain.of_standardBindings {n : Int} (hbound : reg.bound = standardBindings)
    (hlookback : reg.lookback = .proper (.int n)) : reg.IsPlain where
  bound_plain := by
    rw [hbound]
    rintro entry hentry
    obtain rfl := List.mem_singleton.mp hentry
    trivial
  lookback_int := ⟨n, hlookback⟩

/-- A plain registry finds a plain calendar or none, or its store cannot be asked. -/
theorem IsPlain.resolve_store_cases (h : reg.IsPlain) (ref : Option Text) :
    reg.LeadsNowhere ref ∨ (∃ calendar, reg.resolve ref = .ok calendar ∧ calendar.IsPlain) ∨
      ∃ name e, reg.stored.get (.text name) = .error e ∧ reg.resolve ref = .error e := by
  by_cases hanswers : ∀ name ∈ ref, reg.stored.Answers name
  · exact (h.resolve_cases hanswers).imp_right .inl
  · obtain ⟨name, rfl, hname⟩ : ∃ name, ref = some name ∧ ¬ reg.stored.Answers name := by
      simpa using hanswers
    cases hbound : reg.bound? name with
    | some calendar => exact .inr (.inl ⟨calendar, resolve_of_bound hbound, h.of_bound? hbound⟩)
    | none =>
      cases hget : reg.stored.get (.text name) with
      | ok calendar => exact absurd (Store.answers_of_get hget) hname
      | error e =>
        cases e with
        | recordNotFound record => exact .inl (.unresolved hbound hget)
        | _ => exact .inr (.inr ⟨name, _, hget, by simp only [resolve, hbound, hget]⟩)

/-- Work on a plain registry fails in the regular ways, or because its store cannot be asked. -/
theorem IsPlain.subtract_eq_error (h : reg.IsPlain) {finish : Instant} {d : Duration} (hd : 0 ≤ d.micros)
    {e : PlanError} (herror : reg.subtract ref finish d = .error e) :
    IsRegular finish (reg.subtract ref finish d) ∨ ∃ name, reg.stored.get (.text name) = .error e := by
  rcases h.resolve_store_cases ref with hnowhere | ⟨calendar, hresolve, hplain⟩ | ⟨name, e', hget, hresolve⟩
  · exact .inl (.inl (hnowhere.isUnavailable finish d))
  · rw [subtract_of_resolve hresolve]
    exact .inl (hplain.subtract_isRegular finish hd)
  · rw [subtract, hresolve] at herror
    cases herror
    exact .inr ⟨name, hget⟩

end CalendarRegistry

/-- A regular failure that is no mere unavailability. -/
theorem IsRegular.eq_of_error {finish : Instant} {answer : Except PlanError Instant} {e : PlanError}
    (h : IsRegular finish answer) (hnot : ¬ IsUnavailable answer) (herror : answer = .error e) :
    e = .outOfRange ∨ e = .typeMismatch := by
  rcases h with hunavailable | hproceeds
  · exact absurd hunavailable hnot
  · rw [herror] at hproceeds
    cases hproceeds with
    | outOfRange => exact .inl rfl
    | aware => exact .inr rfl

namespace ScheduleRequest

variable (r : ScheduleRequest)

/-- The same request with another time added to its last step. -/
def withOffset (offset : Duration) : ScheduleRequest := { r with trailingOffset := .proper offset }

theorem checkOffset_proper {d : Duration} (hd : 0 ≤ d.micros) : checkOffset (.proper d) = .ok d :=
  checkOffset_eq_ok_iff.mpr ⟨rfl, hd⟩

/-- All offsets that are not negative pass the same checks. -/
theorem check_withOffset {d : Duration} (hd : 0 ≤ d.micros) :
    (r.withOffset d).check = (fun c => { c with trailingOffset := d }) <$> (r.withOffset .zero).check := by
  have hzero : checkOffset (.proper .zero) = .ok .zero := checkOffset_proper (by decide)
  simp only [check, withOffset, checkOffset_proper hd, hzero]
  cases checkCompletion r.completion with
  | error e => rfl
  | ok completion =>
    cases checkQuantity r.quantity with
    | error e => rfl
    | ok quantity =>
      cases checkSteps [] r.steps with
      | error e => rfl
      | ok steps => rfl

end ScheduleRequest

namespace Planner

variable {p : Planner} {r : ScheduleRequest} {e : PlanError}

/-- The failures of scheduling that come from elsewhere than the time added to the last step: the rest of the request is
refused, a step cannot tell whether it takes part or how long it takes, or a store of calendars cannot be asked. -/
inductive FailsAnyway (p : Planner) (r : ScheduleRequest) (e : PlanError) : Prop where
  | request (h : (r.withOffset .zero).check = .error e)
  | activity {step : Step} {moment : Instant} (hstep : .proper step ∈ r.steps) (h : step.isActive moment = .error e)
  | estimate {step : Step} (hstep : .proper step ∈ r.steps) (h : step.FailsEstimate r.quantity e)
  | calendars {ref : Text} (h : p.calendars.get (.text ref) = .error e)

/-- The fallback calendar of a plain planner is plain, or the store of calendars cannot be asked for it. -/
theorem fallbackCalendar_cases (hplain : p.registry.IsPlain) :
    (∃ calendar, p.fallbackCalendar.result = .ok calendar ∧ calendar.IsPlain) ∨
      ∃ ref e, p.calendars.get (.text ref) = .error e ∧ p.fallbackCalendar.result = .error e := by
  cases hoption : p.options.fallbackCalendar with
  | none => exact .inl ⟨continuousTime, by rw [fallbackCalendar, hoption]; rfl, trivial⟩
  | some ref =>
    rcases hplain.resolve_store_cases (some ref) with
      hnowhere | ⟨calendar, hresolve, hcalendar⟩ | ⟨name, e, hget, hresolve⟩
    · obtain ⟨named, fault, hresolve⟩ := hnowhere.resolve_eq
      exact .inl ⟨continuousTime, fallbackCalendar_of_unavailable hoption hresolve, trivial⟩
    · exact .inl ⟨calendar, fallbackCalendar_of_resolve hoption hresolve, hcalendar⟩
    · cases e with
      | calendarUnavailable named fault =>
        exact .inl ⟨continuousTime, fallbackCalendar_of_unavailable hoption hresolve, trivial⟩
      | _ => exact .inr ⟨name, _, hget, by simp only [fallbackCalendar, hoption, hresolve]; rfl⟩

/-- On plain calendars no offset that is not negative makes a schedule fail, except by leaving a range or because an
aware instant meets naive windows. -/
theorem result_schedule_eq_error (hplain : p.registry.IsPlain) {d : Duration} (hd : 0 ≤ d.micros)
    (h : (p.schedule (r.withOffset d)).result = .error e) :
    e = .outOfRange ∨ e = .typeMismatch ∨ p.FailsAnyway r e := by
  rw [result_schedule] at h
  rcases fallbackCalendar_cases hplain with ⟨fallback, hfallback, hregular⟩ | ⟨ref, e', hget, hfallback⟩
  · rw [hfallback] at h
    rcases Scheduler.result_schedule_eq_error_iff.mp h with hcheck | ⟨c, hcheck, hstops⟩
    · rw [r.check_withOffset hd] at hcheck
      exact .inr (.inr (.request (map_eq_error_iff.mp hcheck)))
    obtain ⟨hrequest, hvalid⟩ := ScheduleRequest.check_eq_ok_iff.mp hcheck
    have hquantity : r.quantity = .proper c.quantity := congrArg ScheduleRequest.quantity hrequest
    have hsteps : r.steps = c.steps.map .proper := congrArg ScheduleRequest.steps hrequest
    obtain ⟨late, step, early, ps, reached, hlist, -, hstops⟩ := hstops
    have hstep : .proper step ∈ r.steps := by
      rw [hsteps]
      refine List.mem_map_of_mem (List.mem_reverse.mp ?_)
      rw [hlist]
      exact List.mem_append_right _ List.mem_cons_self
    cases hstops with
    | activity h => exact .inr (.inr (.activity hstep h))
    | time _ h =>
      rcases Step.workingTime_eq_error h with hestimate | hrange
      · exact .inr (.inr (.estimate hstep (hquantity ▸ hestimate)))
      · exact .inl hrange
    | calendar _ hworking h =>
      have hnonneg := Step.workingTime_nonneg (Scheduler.nonneg_of_mem_left hvalid.offset_nonneg late) hworking
      rcases Scheduler.result_place_eq_error hnonneg h with ⟨hown, hnot⟩ | ⟨hsecond, hnot⟩ | hrange
      · rcases hplain.subtract_eq_error hnonneg hown with hregular | ⟨name, hget⟩
        · exact (hregular.eq_of_error hnot hown).imp_right .inl
        · exact .inr (.inr (.calendars hget))
      · exact ((hregular.subtract_isRegular reached hnonneg).eq_of_error hnot hsecond).imp_right .inl
      · exact .inl hrange
  · rw [hfallback] at h
    obtain rfl := Except.error.inj h
    exact .inr (.inr (.calendars hget))

theorem leadTimeOffset_proper {hours : Quantity} (h : p.options.workingHoursPerDay = .proper hours) (days : Quantity) :
    p.leadTimeOffset (.proper days) =
      match days.mul? hours with
      | some product => Duration.ofHours product
      | none => .error .outOfRange := by
  have htimes : Amount.times (.proper days) (.proper hours) =
      Json.calculated Quantity.mul? (.number days) (.number hours) := Json.times_number days hours
  rw [leadTimeOffset, h, htimes]
  simp only [Json.calculated, Json.toQuantity?]
  cases days.mul? hours <;> rfl

/-- Every number of days that is not negative has an offset that no schedule fails of, or it leaves the range. -/
def HasUsableLeadTimes (p : Planner) : Prop :=
  ∀ days : Nat, p.leadTimeOffset (.proper (.int days)) = .error .outOfRange ∨
    ∃ offset, p.leadTimeOffset (.proper (.int days)) = .ok offset ∧ 0 ≤ offset.micros ∧
      ∀ r e, (p.schedule (r.withOffset offset)).result = .error e →
        e = .outOfRange ∨ e = .typeMismatch ∨ p.FailsAnyway r e

theorem hasUsableLeadTimes (hplain : p.registry.IsPlain) {hours : Quantity}
    (hhours : p.options.workingHoursPerDay = .proper hours) (hlow : Quantity.IsUpTo (.int 0) hours)
    (hfinite : hours ≠ .float (.infinite false)) : p.HasUsableLeadTimes := by
  intro days
  rw [leadTimeOffset_proper hhours]
  cases hproduct : Quantity.mul? (.int days) hours with
  | none => exact .inl rfl
  | some product =>
    obtain ⟨hnonneg, hnumber⟩ := Quantity.mul?_nonneg (Int.natCast_nonneg days) hlow hfinite hproduct
    cases hoffset : Duration.ofHours product with
    | error e =>
      rcases Duration.ofUnits_eq_error hoffset with rfl | ⟨-, hnan⟩
      · exact .inl hoffset
      · exact absurd hnan hnumber
    | ok offset =>
      have hd : 0 ≤ offset.micros := Duration.ofUnits_nonneg hnonneg hoffset
      exact .inr ⟨offset, hoffset, hd, fun r e => result_schedule_eq_error hplain hd⟩

/-- Hours that are no number give no offset at all. -/
theorem leadTimeOffset_of_nan (h : p.options.workingHoursPerDay = .proper (.float .nan)) (days : Int) :
    p.leadTimeOffset (.proper (.int days)) = .error .outOfRange ∨
      p.leadTimeOffset (.proper (.int days)) = .error .unreadableValue := by
  rw [leadTimeOffset_proper h]
  have hproduct : Quantity.mul? (.int days) (.float .nan) =
      (Quantity.toBinary64? (.int days)).map fun x => .float (x.mul .nan) := by
    simp only [Quantity.mul?, Option.bind_eq_bind, Option.pure_def]
    cases Quantity.toBinary64? (.int days) <;> rfl
  rw [hproduct]
  cases Quantity.toBinary64? (.int days) with
  | none => exact .inl rfl
  | some x => cases x <;> exact .inr rfl

end Planner

/-- The limits of working hours. -/
def Quantity.noHours : Quantity := .float (.ofInt 0)

def Quantity.fullDay : Quantity := .float (.ofInt 24)

namespace OptionsRequest

variable {r : OptionsRequest} {options : PlanningOptions} {h : Quantity} {n : Int}

theorem options_numbers (hhours : r.workingHoursPerDay = .proper h) (hlookback : r.lookback = .proper (.int n))
    (hok : r.options = .ok options) :
    options.workingHoursPerDay = .proper (h.clamped .noHours .fullDay) ∧
      options.lookback = .proper (.int (max n 1)) := by
  obtain ⟨atLeastNone, hlarger, hok⟩ := bind_eq_ok_iff.mp hok
  obtain ⟨hours, hsmaller, hok⟩ := bind_eq_ok_iff.mp hok
  obtain ⟨dates, hdates, hok⟩ := bind_eq_ok_iff.mp hok
  rw [hhours, Amount.larger_proper] at hlarger
  obtain rfl := Except.ok.inj hlarger
  rw [Amount.smaller_proper] at hsmaller
  obtain rfl := Except.ok.inj hsmaller
  rw [hlookback, Amount.larger_proper, Quantity.larger_int] at hdates
  obtain rfl := Except.ok.inj hdates
  obtain rfl := Except.ok.inj hok
  exact ⟨rfl, rfl⟩

theorem noHours_isUpTo_fullDay : Quantity.noHours.IsUpTo .fullDay := by
  unfold Quantity.IsUpTo
  decide +kernel

/-- The limits have the places of the numbers 0 and 24. -/
theorem zero_isUpTo_noHours : Quantity.IsUpTo (.int 0) .noHours ∧ Quantity.noHours.IsUpTo (.int 0) := by
  unfold Quantity.IsUpTo
  decide +kernel

theorem fullDay_isUpTo : Quantity.fullDay.IsUpTo (.int 24) ∧ Quantity.IsUpTo (.int 24) .fullDay := by
  unfold Quantity.IsUpTo
  decide +kernel

end OptionsRequest

/-- The operation neither replaces the options nor binds a calendar. -/
def Operation.KeepsSettings (op : Operation) : Prop :=
  (∀ r, op ≠ .updateOptions r) ∧ ∀ ref calendar, op ≠ .bindCalendar ref calendar

/-- Two planners with the same options, bindings and look-back. -/
structure Planner.SharesSettings (p q : Planner) : Prop where
  options : q.options = p.options
  bound : q.bound = p.bound
  lookback : q.lookback = p.lookback

namespace Session

variable {s : Session}

theorem sharesSettings_after {op : Operation} (hop : op.KeepsSettings) :
    s.planner.SharesSettings (s.after op).planner := by
  by_cases hpart : op.part = some .setup
  · cases op with
    | updateOptions r => exact absurd rfl (hop.1 r)
    | bindCalendar ref calendar => exact absurd rfl (hop.2 ref calendar)
    | registerEstimator name estimator => cases name <;> exact ⟨rfl, rfl, rfl⟩
    | _ => cases hpart
  · obtain ⟨hoptions, hbound, hlookback, -⟩ := (s.after_agreesOutside op).setup hpart
    exact ⟨hoptions, hbound, hlookback⟩

theorem sharesSettings_foldl {ops : List Operation} (hops : ∀ op ∈ ops, op.KeepsSettings) :
    s.planner.SharesSettings (ops.foldl after s).planner := by
  induction ops generalizing s with
  | nil => exact ⟨rfl, rfl, rfl⟩
  | cons op rest ih =>
    have hfirst := sharesSettings_after (s := s) (hops op List.mem_cons_self)
    have hrest := ih (s := s.after op) fun op hop => hops op (List.mem_cons_of_mem _ hop)
    exact ⟨hrest.options.trans hfirst.options, hrest.bound.trans hfirst.bound, hrest.lookback.trans hfirst.lookback⟩

end Session

/-- Options that are accepted with a number of working hours and a whole look-back have hours between 0 and 24, the
given ones if they are, and a look-back of at least one date. As long as they are kept, every number of days has an
offset that no schedule fails of, or it leaves the range of durations. A NaN is the one number that passes the limits:
it is accepted too, and there are no offsets then. -/
theorem updateOptions_usable (s : Session) (r : OptionsRequest) {h : Quantity} {n : Int} {options : PlanningOptions}
    (hhours : r.workingHoursPerDay = .proper h) (hlookback : r.lookback = .proper (.int n))
    (hok : ((updateOptions r).perform s).1 = .ok options) :
    ∃ hours, options.workingHoursPerDay = .proper hours ∧ options.lookback = .proper (.int (max n 1)) ∧
      (hours = .float .nan ↔ h = .float .nan) ∧
      (h ≠ .float .nan → Quantity.IsUpTo (.int 0) hours ∧ hours.IsUpTo (.int 24)) ∧
      (Quantity.IsUpTo (.int 0) h → h.IsUpTo (.int 24) → hours = h) ∧
      ∀ (later : List Operation) (t : Session), (∀ op ∈ later, op.KeepsSettings) →
        t = later.foldl Session.after ((updateOptions r).perform s).2 →
        t.planner.options = options ∧ (h ≠ .float .nan → t.planner.HasUsableLeadTimes) ∧
        (h = .float .nan → ∀ days : Int, t.planner.leadTimeOffset (.proper (.int days)) = .error .outOfRange ∨
          t.planner.leadTimeOffset (.proper (.int days)) = .error .unreadableValue) := by
  rcases updateOptions_cases r s with ⟨e, herror, -⟩ | ⟨taken, hresult, -, hoptions, hplanner⟩
  · cases herror.symm.trans hok
  obtain rfl := Except.ok.inj (hresult.symm.trans hok)
  obtain ⟨hclamped, hdates⟩ := OptionsRequest.options_numbers hhours hlookback hoptions
  have hlimits := OptionsRequest.noHours_isUpTo_fullDay
  obtain ⟨hzero, hzero'⟩ := OptionsRequest.zero_isUpTo_noHours
  obtain ⟨hday, hday'⟩ := OptionsRequest.fullDay_isUpTo
  have hmem (hne : h ≠ .float .nan) :
      Quantity.IsUpTo (.int 0) (h.clamped .noHours .fullDay) ∧ (h.clamped .noHours .fullDay).IsUpTo (.int 24) :=
    ⟨hzero.trans (Quantity.clamped_mem hlimits hne).1, (Quantity.clamped_mem hlimits hne).2.trans hday⟩
  refine ⟨_, hclamped, hdates, Quantity.clamped_eq_nan_iff hlimits, hmem, fun hlow hhigh => ?_, ?_⟩
  · exact Quantity.clamped_of_mem (hzero'.trans hlow) (hhigh.trans hday')
  rintro later t hlater rfl
  have hshared := Session.sharesSettings_foldl (s := ((updateOptions r).perform s).2) hlater
  rw [hplanner] at hshared
  have hoptions' : (later.foldl Session.after ((updateOptions r).perform s).2).planner.options = taken :=
    hshared.options
  refine ⟨hoptions', fun hne => ?_, fun hnan => ?_⟩
  · refine Planner.hasUsableLeadTimes (.of_standardBindings hshared.bound (hshared.lookback.trans hdates))
      (hoptions' ▸ hclamped) (hmem hne).1 fun hinfinite => ?_
    have hbounded := (hmem hne).2
    rw [hinfinite] at hbounded
    exact hbounded.not_lt rfl
  · refine Planner.leadTimeOffset_of_nan ?_
    rw [hoptions', hclamped, hnan, Quantity.clamped_nan]

/-- Options with a number of working hours; everything else is as usual. -/
def OptionsRequest.working (hours : Quantity) : OptionsRequest where
  workingHoursPerDay := .proper hours
  supplierCalendar := some continuousId
  fallbackCalendar := none
  lookback := .proper (.int defaultLookback)
  defaultFacility := some standardFacility

/-- Thirty hours are taken for a full day. -/
theorem updateOptions_usable_thirty :
    ∃ s t options hours, s = Session.fresh .numbered (.inMemory .standard) ∧
      ((updateOptions (.working (.int 30))).perform s).1 = .ok options ∧
      t = [Operation.listRequirements none].foldl Session.after ((updateOptions (.working (.int 30))).perform s).2 ∧
      options.workingHoursPerDay = .proper hours ∧ hours.IsUpTo (.int 24) ∧
      t.planner.options = options ∧ t.planner.HasUsableLeadTimes := by
  obtain ⟨s, hs⟩ : ∃ s, s = Session.fresh .numbered (.inMemory .standard) := exists_eq
  obtain ⟨t, ht⟩ : ∃ t, t = [Operation.listRequirements none].foldl Session.after
    ((updateOptions (.working (.int 30))).perform s).2 := exists_eq
  have hok : ((updateOptions (.working (.int 30))).perform s).1.isOk = true := by
    rw [hs]
    decide +kernel
  obtain ⟨options, hoptions⟩ := exists_of_isOk hok
  obtain ⟨hours, hhours, -, -, hmem, -, hlater⟩ := updateOptions_usable s (.working (.int 30)) rfl rfl hoptions
  obtain ⟨hkept, husable, -⟩ := hlater _ t (by simp [Operation.KeepsSettings]) ht
  exact ⟨s, t, options, hours, hs, hoptions, ht, hhours, (hmem nofun).2, hkept, husable nofun⟩

/-- A NaN is accepted as the number of working hours, and it is kept. -/
theorem not_updateOptions_usable : ¬ ∀ (s : Session) (r : OptionsRequest) (h : Quantity) (n : Int)
    (options : PlanningOptions), r.workingHoursPerDay = .proper h → r.lookback = .proper (.int n) →
      ((updateOptions r).perform s).1 = .ok options →
      (∃ hours, options.workingHoursPerDay = .proper hours ∧ Quantity.IsUpTo (.int 0) hours ∧ hours.IsUpTo (.int 24)) ∧
        ((updateOptions r).perform s).2.planner.HasUsableLeadTimes := by
  intro hall
  obtain ⟨s, hs⟩ : ∃ s, s = Session.fresh .numbered (.inMemory .standard) := exists_eq
  have hnan : ((updateOptions (.working (.float .nan))).perform s).1.toOption.map (·.workingHoursPerDay.toQuantity?) =
      some (some (.float .nan)) := by
    rw [hs]
    decide +kernel
  obtain ⟨options, hoptions, hkept⟩ := Option.map_eq_some_iff.mp hnan
  obtain ⟨⟨hours, hhours, hzero, -⟩, -⟩ := hall s _ _ _ options rfl rfl (eq_ok_of_toOption hoptions)
  rw [hhours] at hkept
  exact hzero.ne_nan.2 (Option.some.inj hkept)

end SupplyPlan
