import SupplyPlan.Proofs.Calendar.Subtraction
import SupplyPlan.Proofs.Schedule.Request
import SupplyPlan.Schedule.Backward

namespace SupplyPlan

/-- The working time of a step is its estimate, not negative, and what is added to it. -/
theorem Step.workingTime_eq_ok_iff {step : Step} {quantity : Amount} {addition : Option Duration} {d : Duration} :
    step.workingTime quantity addition = .ok d ↔
      ∃ estimate, step.estimate quantity = .ok (.proper estimate) ∧ 0 ≤ estimate.micros ∧
        d.micros = estimate.micros + addition.elim 0 (·.micros) := by
  simp only [workingTime, bind_eq_ok_iff]
  constructor
  · rintro ⟨given, hgiven, estimate, hproper, h⟩
    cases given with
    | other v => cases hproper
    | proper estimate' =>
      obtain rfl : estimate' = estimate := Except.ok.inj hproper
      refine ⟨estimate', hgiven, ?_⟩
      by_cases hneg : estimate'.micros < 0
      · simp [Duration.isNegative, hneg] at h
      · simp only [Duration.isNegative, hneg, decide_false, Bool.false_eq_true, if_false] at h
        refine ⟨Int.not_lt.mp hneg, ?_⟩
        cases addition with
        | none =>
          cases h
          simp
        | some extra => exact Duration.ofMicros_eq_ok_iff.mp h
  · rintro ⟨estimate, hgiven, hnonneg, hd⟩
    refine ⟨.proper estimate, hgiven, estimate, rfl, ?_⟩
    simp only [Duration.isNegative, Int.not_lt.mpr hnonneg, decide_false, Bool.false_eq_true, if_false]
    cases addition with
    | none => exact congrArg _ (Duration.ext_micros (by simpa using hd.symm))
    | some extra => exact Duration.ofMicros_eq_ok_iff.mpr hd

theorem Step.workingTime_nonneg {step : Step} {quantity : Amount} {addition : Option Duration} {d : Duration}
    (haddition : ∀ extra ∈ addition, 0 ≤ extra.micros) (h : step.workingTime quantity addition = .ok d) :
    0 ≤ d.micros := by
  obtain ⟨estimate, _, hnonneg, hd⟩ := workingTime_eq_ok_iff.mp h
  cases addition with
  | none =>
    simp only [Option.elim_none] at hd
    omega
  | some extra =>
    have hextra := haddition extra rfl
    simp only [Option.elim_some] at hd
    omega

namespace Scheduler

variable {s : Scheduler} {quantity : Amount}

/-- Where work starts by the fallback rules: by the fallback calendar, or the whole time before the finish if that is
unavailable too. -/
def StartsOnFallback (s : Scheduler) (finish : Instant) (d : Duration) (start : Instant) : Prop :=
  s.fallback finish d = .ok start ∨ IsUnavailable (s.fallback finish d) ∧ finish.minus d = .ok start

/-- How a step is placed: on its own calendar, or by the fallback rules if that one is unavailable. -/
inductive Places (s : Scheduler) (step : Step) (finish : Instant) (d : Duration) : Placement → Prop where
  | own {start : Instant} (hown : s.calendars step.calendar finish d = .ok start) :
      Places s step finish d { step := step.id, start, onFallback := false }
  | fallback {start : Instant} (hown : IsUnavailable (s.calendars step.calendar finish d))
      (hfallback : s.StartsOnFallback finish d start) :
      Places s step finish d { step := step.id, start, onFallback := true }

section Place

variable {step : Step} {finish : Instant} {d : Duration} {p : Placement}

theorem result_placeOnFallback_of_available (h : ¬ IsUnavailable (s.fallback finish d)) :
    (s.placeOnFallback step finish d).result =
      (s.fallback finish d >>= fun start => .ok { step := step.id, start, onFallback := true }) := by
  unfold placeOnFallback
  split
  · next start hstart =>
    rw [hstart]
    rfl
  · next ref fault hfault => exact absurd ⟨ref, fault, hfault⟩ h
  · next e _ he =>
    rw [he]
    rfl

theorem result_placeOnFallback_of_unavailable (hd : 0 ≤ d.micros) (h : IsUnavailable (s.fallback finish d)) :
    (s.placeOnFallback step finish d).result =
      (finish.minus d >>= fun start => .ok { step := step.id, start, onFallback := true }) := by
  obtain ⟨ref, fault, h⟩ := h
  rw [placeOnFallback, h]
  simp only [Logged.result_bind, Logged.result_log, Logged.result_lift, Logged.result_pure, continuousTime,
    WorkingCalendar.subtract_continuous hd]
  rfl

theorem result_place_of_available (h : ¬ IsUnavailable (s.calendars step.calendar finish d)) :
    (s.place step finish d).result = (s.calendars step.calendar finish d >>= fun start =>
      .ok { step := step.id, start, onFallback := false }) := by
  unfold place
  split
  · next start hstart =>
    rw [hstart]
    rfl
  · next ref fault hfault => exact absurd ⟨ref, fault, hfault⟩ h
  · next e _ he =>
    rw [he]
    rfl

theorem result_place_of_unavailable (h : IsUnavailable (s.calendars step.calendar finish d)) :
    (s.place step finish d).result = (s.placeOnFallback step finish d).result := by
  obtain ⟨ref, fault, h⟩ := h
  rw [place, h]
  simp only [Logged.result_bind, Logged.result_log]
  rfl

theorem result_placeOnFallback_eq_ok_iff (hd : 0 ≤ d.micros) :
    (s.placeOnFallback step finish d).result = .ok p ↔
      ∃ start, s.StartsOnFallback finish d start ∧ { step := step.id, start, onFallback := true } = p := by
  unfold StartsOnFallback
  by_cases h : IsUnavailable (s.fallback finish d)
  · rw [result_placeOnFallback_of_unavailable hd h, bind_eq_ok_iff]
    simp [h, h.ne_ok]
  · rw [result_placeOnFallback_of_available h, bind_eq_ok_iff]
    simp [h]

theorem result_place_eq_ok_iff (hd : 0 ≤ d.micros) :
    (s.place step finish d).result = .ok p ↔ s.Places step finish d p := by
  constructor
  · intro hp
    by_cases h : IsUnavailable (s.calendars step.calendar finish d)
    · rw [result_place_of_unavailable h, result_placeOnFallback_eq_ok_iff hd] at hp
      obtain ⟨start, hstart, rfl⟩ := hp
      exact .fallback h hstart
    · rw [result_place_of_available h, bind_eq_ok_iff] at hp
      obtain ⟨start, hown, hp⟩ := hp
      cases hp
      exact .own hown
  · rintro (hown | ⟨h, hstart⟩)
    · rw [result_place_of_available (not_isUnavailable_of_eq_ok hown), hown]
      rfl
    · rw [result_place_of_unavailable h, result_placeOnFallback_eq_ok_iff hd]
      exact ⟨_, hstart, rfl⟩

end Place

/-- A run over steps, given from last to first: the addition goes to the first of them or is dropped, a step that is not
active leaves no trace, and any other one moves the cursor to its start. -/
inductive Run (s : Scheduler) (quantity : Amount) :
    Option Duration → List Step → Instant → List Placement → Instant → Prop where
  | nil (addition : Option Duration) (cursor : Instant) : Run s quantity addition [] cursor [] cursor
  | skip {addition : Option Duration} {step : Step} {earlier : List Step} {cursor stop : Instant}
      {ps : List Placement} (hactive : step.isActive cursor = .ok false)
      (hrest : Run s quantity none earlier cursor ps stop) :
      Run s quantity addition (step :: earlier) cursor ps stop
  | place {addition : Option Duration} {step : Step} {earlier : List Step} {cursor stop : Instant}
      {d : Duration} {p : Placement} {ps : List Placement} (hactive : step.isActive cursor = .ok true)
      (hd : step.workingTime quantity addition = .ok d) (hp : s.Places step cursor d p)
      (hrest : Run s quantity none earlier p.start ps stop) :
      Run s quantity addition (step :: earlier) cursor (p :: ps) stop

theorem result_placeAll_eq_ok_iff {addition : Option Duration} {steps : List Step} {cursor stop : Instant}
    {ps : List Placement} (haddition : ∀ extra ∈ addition, 0 ≤ extra.micros) :
    (s.placeAll quantity addition steps cursor).result = .ok (ps, stop) ↔
      s.Run quantity addition steps cursor ps stop := by
  induction steps generalizing addition cursor ps with
  | nil =>
    constructor
    · intro h
      cases h
      exact .nil _ _
    · rintro ⟨⟩
      rfl
  | cons step earlier ih =>
    rw [result_placeAll_cons, bind_eq_ok_iff]
    constructor
    · rintro ⟨active, hactive, h⟩
      cases active with
      | false => exact .skip hactive ((ih (by simp)).mp h)
      | true =>
        simp only [if_true, bind_eq_ok_iff] at h
        obtain ⟨d, hd, p, hp, ⟨rest, stop'⟩, hrest, h⟩ := h
        cases h
        have hnonneg := Step.workingTime_nonneg haddition hd
        exact .place hactive hd ((result_place_eq_ok_iff hnonneg).mp hp) ((ih (by simp)).mp hrest)
    · intro h
      cases h with
      | skip hactive hrest => exact ⟨false, hactive, (ih (by simp)).mpr hrest⟩
      | place hactive hd hp hrest =>
        have hnonneg := Step.workingTime_nonneg haddition hd
        refine ⟨true, hactive, ?_⟩
        simp only [if_true, bind_eq_ok_iff]
        exact ⟨_, hd, _, (result_place_eq_ok_iff hnonneg).mpr hp, _, (ih (by simp)).mpr hrest, rfl⟩

theorem result_scheduleChain_eq_ok_iff {c : Chain} (hoffset : 0 ≤ c.trailingOffset.micros) {sch : Schedule} :
    (s.scheduleChain c).result = .ok sch ↔ sch.completion = c.completion ∧
      s.Run (.proper c.quantity) (some c.trailingOffset) c.steps.reverse c.completion sch.placements sch.start := by
  have haddition : ∀ extra ∈ some c.trailingOffset, 0 ≤ extra.micros := by
    rintro extra ⟨⟩
    exact hoffset
  simp only [scheduleChain, Logged.result_bind, bind_eq_ok_iff]
  constructor
  · rintro ⟨⟨ps, stop⟩, hrun, h⟩
    cases h
    exact ⟨rfl, (result_placeAll_eq_ok_iff haddition).mp hrun⟩
  · rintro ⟨hcompletion, hrun⟩
    refine ⟨(sch.placements, sch.start), (result_placeAll_eq_ok_iff haddition).mpr hrun, ?_⟩
    rw [← hcompletion]
    rfl

theorem result_schedule_of_check {r : ScheduleRequest} {c : Chain} (h : r.check = .ok c) :
    (s.schedule r).result = (s.scheduleChain c).result := by
  rw [schedule, Logged.result_bind, Logged.result_lift, h]
  rfl

/-- Scheduling succeeds exactly on the requests of valid chains for which there is a run, and tells its placements and
where its cursor stops. -/
theorem result_schedule_eq_ok_iff {r : ScheduleRequest} {sch : Schedule} :
    (s.schedule r).result = .ok sch ↔
      ∃ c : Chain, r = c.request ∧ c.IsValid ∧ sch.completion = c.completion ∧
        s.Run (.proper c.quantity) (some c.trailingOffset) c.steps.reverse c.completion sch.placements sch.start := by
  rw [schedule, Logged.result_bind, Logged.result_lift, bind_eq_ok_iff]
  constructor
  · rintro ⟨c, hcheck, h⟩
    obtain ⟨hrequest, hvalid⟩ := ScheduleRequest.check_eq_ok_iff.mp hcheck
    exact ⟨c, hrequest, hvalid, (result_scheduleChain_eq_ok_iff hvalid.offset_nonneg).mp h⟩
  · rintro ⟨c, hrequest, hvalid, h⟩
    exact ⟨c, ScheduleRequest.check_eq_ok_iff.mpr ⟨hrequest, hvalid⟩,
      (result_scheduleChain_eq_ok_iff hvalid.offset_nonneg).mpr h⟩

end Scheduler

end SupplyPlan
