import SupplyPlan.Proofs.Schedule.Chain

namespace SupplyPlan

/-- No time more is no addition. -/
theorem Step.workingTime_zero (step : Step) (quantity : Amount) :
    step.workingTime quantity (some .zero) = step.workingTime quantity none := by
  unfold workingTime
  refine bind_congr fun given => bind_congr fun d => ?_
  have hsum : d.add .zero = .ok d := Duration.ofMicros_eq_ok_iff.mpr (Int.add_zero d.micros).symm
  split
  · rfl
  · exact hsum

namespace Chain

/-- The chain of the last steps, with the completion and the offset of the whole chain. -/
def lastPart (c : Chain) (steps : List Step) : Chain := { c with steps }

/-- The chain of the first steps; the offset does not belong to it. -/
def firstPart (c : Chain) (steps : List Step) (completion : Instant) : Chain :=
  { c with steps, completion, trailingOffset := .zero }

variable {c : Chain} {first last : List Step}

theorem IsValid.lastPart (h : c.IsValid) (hsteps : c.steps = first ++ last) : (c.lastPart last).IsValid where
  quantity_nonneg := h.quantity_nonneg
  offset_nonneg := h.offset_nonneg
  ids_nodup := by
    have hids := h.ids_nodup
    rw [hsteps, List.map_append] at hids
    exact hids.of_append_right

theorem IsValid.firstPart (h : c.IsValid) (hsteps : c.steps = first ++ last) (completion : Instant) :
    (c.firstPart first completion).IsValid where
  quantity_nonneg := h.quantity_nonneg
  offset_nonneg := le_rfl
  ids_nodup := by
    have hids := h.ids_nodup
    rw [hsteps, List.map_append] at hids
    exact hids.of_append_left

end Chain

namespace Schedule

/-- A schedule that goes on with an earlier one from where it starts. -/
def precededBy (late early : Schedule) : Schedule where
  completion := late.completion
  start := early.start
  placements := late.placements ++ early.placements

variable {late early : Schedule}

@[simp] theorem starts_precededBy : (late.precededBy early).starts = late.starts ++ early.starts :=
  List.map_append

@[simp] theorem fallbacks_precededBy : (late.precededBy early).fallbacks = late.fallbacks ++ early.fallbacks := by
  simp [fallbacks, precededBy]

theorem leadTime_eq_ok_iff {sch : Schedule} {d : Duration} :
    sch.leadTime = .ok d ↔ sch.completion.isAware = sch.start.isAware ∧
      d.micros = sch.completion.onCommonClock - sch.start.onCommonClock := by
  unfold leadTime Instant.since
  split
  · next hsame => simp [hsame, Duration.ofMicros_eq_ok_iff]
  · next hother => simp [hother]

/-- On one clock there is always a lead time, and it is the time that passes on the clock. -/
theorem exists_leadTime {sch : Schedule} (h : sch.start.offset = sch.completion.offset) :
    ∃ d, sch.leadTime = .ok d ∧ d.micros = sch.completion.micros - sch.start.micros := by
  have hclock : sch.completion.onCommonClock - sch.start.onCommonClock = sch.completion.micros - sch.start.micros := by
    simp only [Instant.onCommonClock, h]
    omega
  have hcompletion := sch.completion.inRange
  have hstart := sch.start.inRange
  have hrange : -999999999 * dayMicros ≤ sch.completion.micros - sch.start.micros ∧
      sch.completion.micros - sch.start.micros < 1000000000 * dayMicros := by
    unfold dateCount dayMicros at *
    omega
  refine ⟨⟨_, hrange⟩, leadTime_eq_ok_iff.mpr ⟨?_, hclock.symm⟩, rfl⟩
  rw [Instant.isAware, Instant.isAware, h]

/-- The lead times of two schedules of which one precedes the other add up. -/
theorem leadTime_precededBy (hmeet : early.completion = late.start) {d₂ d₁ : Duration} (hlate : late.leadTime = .ok d₂)
    (hearly : early.leadTime = .ok d₁) : (late.precededBy early).leadTime = d₂.add d₁ := by
  obtain ⟨hsame₂, h₂⟩ := leadTime_eq_ok_iff.mp hlate
  obtain ⟨hsame₁, h₁⟩ := leadTime_eq_ok_iff.mp hearly
  have hsame : late.completion.isAware = early.start.isAware := by rw [hsame₂, ← hmeet, hsame₁]
  have hsum : late.completion.onCommonClock - early.start.onCommonClock = d₂.micros + d₁.micros := by
    rw [h₂, h₁, hmeet]
    omega
  rw [leadTime, precededBy, Instant.since, if_pos hsame, Duration.add, hsum]

end Schedule

namespace Scheduler

variable {s : Scheduler} {quantity : Amount}

theorem placeAll_zero (s : Scheduler) (quantity : Amount) (steps : List Step) (cursor : Instant) :
    s.placeAll quantity (some .zero) steps cursor = s.placeAll quantity none steps cursor := by
  cases steps with
  | nil => rfl
  | cons step earlier => simp only [placeAll, step.workingTime_zero]

/-- The placements of steps in two parts: the earlier ones go on where the cursor has stopped. The addition belongs to
the first step that is visited, so it must not be left over for the earlier part. -/
theorem result_placeAll_append {addition : Option Duration} {late : List Step} (h : late ≠ [] ∨ addition = none)
    (early : List Step) (cursor : Instant) :
    (s.placeAll quantity addition (late ++ early) cursor).result = (do
      let placed ← (s.placeAll quantity addition late cursor).result
      let more ← (s.placeAll quantity none early placed.2).result
      return (placed.1 ++ more.1, more.2)) := by
  induction late generalizing addition cursor with
  | nil =>
    obtain rfl : addition = none := h.resolve_left (· rfl)
    exact (bind_pure _).symm
  | cons step rest ih =>
    have hrest (cursor : Instant) := @ih none (.inr rfl) cursor
    rw [List.cons_append, result_placeAll_cons, result_placeAll_cons, bind_assoc]
    refine bind_congr fun active => ?_
    cases active with
    | false => simpa using hrest cursor
    | true => simp only [if_true, hrest, bind_assoc, pure_bind, List.cons_append]

theorem result_scheduleChain_append {c : Chain} {first last : List Step} (hsteps : c.steps = first ++ last)
    (hlast : last ≠ []) :
    (s.scheduleChain c).result = (do
      let late ← (s.scheduleChain (c.lastPart last)).result
      let early ← (s.scheduleChain (c.firstPart first late.start)).result
      return late.precededBy early) := by
  have hlate : last.reverse ≠ [] ∨ some c.trailingOffset = none := .inl (by simpa using hlast)
  have happend := @result_placeAll_append s (.proper c.quantity) _ _ hlate first.reverse c.completion
  simp only [scheduleChain, Logged.result_bind, Logged.result_pure, Chain.lastPart, Chain.firstPart, placeAll_zero,
    hsteps, List.reverse_append, happend, bind_assoc, pure_bind]
  rfl

/-- Scheduling a valid chain is scheduling its last part and, from where that starts, its first part. -/
theorem result_schedule_append {c : Chain} (hvalid : c.IsValid) {first last : List Step}
    (hsteps : c.steps = first ++ last) (hlast : last ≠ []) :
    (s.schedule c.request).result = (do
      let late ← (s.schedule (c.lastPart last).request).result
      let early ← (s.schedule (c.firstPart first late.start).request).result
      return late.precededBy early) := by
  have hrequest {part : Chain} (hpart : part.IsValid) :
      (s.schedule part.request).result = (s.scheduleChain part).result :=
    result_schedule_of_check (ScheduleRequest.check_eq_ok_iff.mpr ⟨rfl, hpart⟩)
  rw [hrequest hvalid, hrequest (hvalid.lastPart hsteps), result_scheduleChain_append hsteps hlast]
  exact bind_congr fun late => by rw [hrequest (hvalid.firstPart hsteps late.start)]

theorem completion_of_schedule {c : Chain} {sch : Schedule} (h : (s.schedule c.request).result = .ok sch) :
    sch.completion = c.completion := by
  obtain ⟨c', hrequest, -, hcompletion, -⟩ := result_schedule_eq_ok_iff.mp h
  exact hcompletion.trans (Given.proper.inj (congrArg ScheduleRequest.completion hrequest)).symm

end Scheduler

/-- Chains compose. Cut a valid chain anywhere but at its end: it has a schedule if and only if its last part has one
and its first part has one that is complete where the last part starts, without the offset. Then the starts and the
fallbacks of the whole chain are those of the last part and behind them those of the first part, it starts where the
first part starts, and its lead time is the sum of their lead times, which exist wherever the calendars stay on the
clock of the completion. Otherwise it fails as the last part does or, if that has a schedule, as the first part does. -/
theorem schedule_append {s : Scheduler} {r : ScheduleRequest} {c : Chain} (hcheck : r.check = .ok c)
    {first last : List Step} (hsteps : c.steps = first ++ last) (hlast : last ≠ []) :
    ((∃ sch, (s.schedule r).result = .ok sch) ↔
      ∃ late early, (s.schedule (c.lastPart last).request).result = .ok late ∧
        (s.schedule (c.firstPart first late.start).request).result = .ok early) ∧
    (∀ e, (s.schedule (c.lastPart last).request).result = .error e → (s.schedule r).result = .error e) ∧
    ∀ late, (s.schedule (c.lastPart last).request).result = .ok late →
      (∀ e, (s.schedule (c.firstPart first late.start).request).result = .error e → (s.schedule r).result = .error e) ∧
      ∀ early, (s.schedule (c.firstPart first late.start).request).result = .ok early →
        ∃ sch, (s.schedule r).result = .ok sch ∧ sch.completion = c.completion ∧
          sch.starts = late.starts ++ early.starts ∧ sch.fallbacks = late.fallbacks ++ early.fallbacks ∧
          sch.start = early.start ∧
          (∀ d₂ d₁, late.leadTime = .ok d₂ → early.leadTime = .ok d₁ → sch.leadTime = d₂.add d₁) ∧
          (late.start.offset = c.completion.offset → early.start.offset = late.start.offset →
            ∃ d₂ d₁ d, late.leadTime = .ok d₂ ∧ early.leadTime = .ok d₁ ∧ sch.leadTime = .ok d ∧
              d.micros = d₂.micros + d₁.micros) := by
  obtain ⟨rfl, hvalid⟩ := ScheduleRequest.check_eq_ok_iff.mp hcheck
  have hparts := s.result_schedule_append hvalid hsteps hlast
  refine ⟨?_, ?_, ?_⟩
  · simp only [hparts, bind_eq_ok_iff]
    constructor
    · rintro ⟨_, late, hlate, early, hearly, -⟩
      exact ⟨late, early, hlate, hearly⟩
    · rintro ⟨late, early, hlate, hearly⟩
      exact ⟨_, late, hlate, early, hearly, rfl⟩
  · intro e he
    rw [hparts, he]
    rfl
  · intro late hlate
    rw [hlate] at hparts
    refine ⟨?_, ?_⟩
    · intro e he
      rw [hparts]
      exact bind_eq_error_iff.mpr (.inr ⟨late, rfl, bind_eq_error_iff.mpr (.inl he)⟩)
    · intro early hearly
      have hwhole : (s.schedule c.request).result = .ok (late.precededBy early) :=
        hparts.trans (bind_eq_ok_iff.mpr ⟨late, rfl, bind_eq_ok_iff.mpr ⟨early, hearly, rfl⟩⟩)
      have hcomplete : late.completion = (c.lastPart last).completion := Scheduler.completion_of_schedule hlate
      have hmeet : early.completion = (c.firstPart first late.start).completion :=
        Scheduler.completion_of_schedule hearly
      change late.completion = c.completion at hcomplete
      change early.completion = late.start at hmeet
      refine ⟨_, hwhole, hcomplete, Schedule.starts_precededBy, Schedule.fallbacks_precededBy, rfl, ?_, ?_⟩
      · exact fun d₂ d₁ h₂ h₁ => Schedule.leadTime_precededBy hmeet h₂ h₁
      · intro hclock₂ hclock₁
        obtain ⟨d₂, hlead₂, h₂⟩ := Schedule.exists_leadTime (hclock₂.trans (congrArg Instant.offset hcomplete.symm))
        obtain ⟨d₁, hlead₁, h₁⟩ := Schedule.exists_leadTime (hclock₁.trans (congrArg Instant.offset hmeet.symm))
        have hoffset : (late.precededBy early).start.offset = (late.precededBy early).completion.offset :=
          hclock₁.trans (hclock₂.trans (congrArg Instant.offset hcomplete.symm))
        obtain ⟨d, hlead, hd⟩ := Schedule.exists_leadTime hoffset
        refine ⟨d₂, d₁, d, hlead₂, hlead₁, hlead, ?_⟩
        rw [hd, h₂, h₁, hmeet]
        simp only [Schedule.precededBy]
        omega

/-- The schedule of a part of which one step takes place, at its start. -/
def Schedule.ofStep (step : Text) (start completion : Instant) (onFallback : Bool) : Schedule where
  completion
  start
  placements := [{ step := some step, start, onFallback }]

/-- The hour of the bending and the five hours of the cutting before it add up. -/
theorem schedule_append_cutBendPack :
    Chain.cutBendPack.request.check = .ok .cutBendPack ∧
      Chain.cutBendPack.steps = Chain.cutBendPack.steps.take 1 ++ Chain.cutBendPack.steps.drop 1 ∧
      Chain.cutBendPack.steps.drop 1 ≠ [] ∧
      ∃ sch, (Scheduler.continuousByName.schedule Chain.cutBendPack.request).result = .ok sch ∧
        sch.starts = [(some ("bend" : Text), .onTuesday 9), (some ("cut" : Text), .onTuesday 4)] ∧
        sch.fallbacks = [some ("bend" : Text)] ∧ sch.start = .onTuesday 4 ∧
        ∃ d, sch.leadTime = .ok d ∧ d.micros = 6 * 3600000000 := by
  have hvalid := Chain.cutBendPack_isValid
  have hcheck := ScheduleRequest.check_eq_ok_iff.mpr ⟨rfl, hvalid⟩
  have hsteps := (List.take_append_drop 1 Chain.cutBendPack.steps).symm
  have hlast : Chain.cutBendPack.steps.drop 1 ≠ [] := List.cons_ne_nil _ _
  have hbend : (Instant.onTuesday 10).minus (.minutes 60 (by decide)) = .ok (.onTuesday 9) :=
    Instant.ofMicros_eq_ok_iff.mpr ⟨by decide, rfl⟩
  have hcut : (Instant.onTuesday 9).minus (.minutes 300 (by decide)) = .ok (.onTuesday 4) :=
    Instant.ofMicros_eq_ok_iff.mpr ⟨by decide, rfl⟩
  have hlate : (Scheduler.continuousByName.schedule
      (Chain.cutBendPack.lastPart (Chain.cutBendPack.steps.drop 1)).request).result =
        .ok (.ofStep "bend" (.onTuesday 9) (.onTuesday 10) true) := by
    refine Scheduler.result_schedule_eq_ok_iff.mpr ⟨_, rfl, hvalid.lastPart hsteps, rfl, ?_⟩
    exact .skip rfl (.place rfl rfl (.fallback ⟨_, _, rfl⟩ (.inr ⟨⟨_, _, rfl⟩, hbend⟩)) (.nil _ _))
  have hearly : (Scheduler.continuousByName.schedule (Chain.cutBendPack.firstPart (Chain.cutBendPack.steps.take 1)
      (.onTuesday 9)).request).result = .ok (.ofStep "cut" (.onTuesday 4) (.onTuesday 9) false) := by
    refine Scheduler.result_schedule_eq_ok_iff.mpr ⟨_, rfl, hvalid.firstPart hsteps _, rfl, ?_⟩
    exact .place rfl rfl (.own hcut) (.nil _ _)
  obtain ⟨-, -, hparts⟩ := schedule_append (s := .continuousByName) hcheck hsteps hlast
  obtain ⟨sch, hwhole, -, hstarts, hfallbacks, hstart, -, hclock⟩ := (hparts _ hlate).2 _ hearly
  obtain ⟨d₂, d₁, d, h₂, h₁, hlead, hd⟩ := hclock rfl rfl
  have hhour : d₂.micros = 3600000000 := (Schedule.leadTime_eq_ok_iff.mp h₂).2.trans (by decide)
  have hhours : d₁.micros = 5 * 3600000000 := (Schedule.leadTime_eq_ok_iff.mp h₁).2.trans (by decide)
  refine ⟨hcheck, hsteps, hlast, sch, hwhole, hstarts, hfallbacks, hstart, d, hlead, ?_⟩
  rw [hd, hhour, hhours]
  rfl

end SupplyPlan
