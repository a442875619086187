import SupplyPlan.Planning.StartDate
import SupplyPlan.Proofs.Calendar.Registry
import SupplyPlan.Proofs.Schedule.Chain

namespace SupplyPlan

/-- Time that does not fail in ways of its own, whatever work is asked for that is not negative. -/
def IsReliable (calendar : WorkingTime) : Prop :=
  ∀ (finish : Instant) (d : Duration), 0 ≤ d.micros → IsRegular finish (calendar finish d)

/-- A step that can be asked at every instant on the clock of the completion whether it takes part, and whose estimate
is a duration and not negative. No cursor of a schedule leaves that clock. -/
structure Step.IsDefinite (step : Step) (completion : Instant) (quantity : Amount) : Prop where
  active : ∀ cursor : Instant, cursor.offset = completion.offset → ∃ active, step.isActive cursor = .ok active
  estimate : ∃ d : Duration, step.estimate quantity = .ok (.proper d) ∧ 0 ≤ d.micros

/-- Validity whose bounds, where there are any, can be compared with the instants of a naive or an aware clock. -/
structure Validity.FitsClock (v : Validity) (aware : Bool) : Prop where
  fromDate : ∀ bound ∈ v.fromDate, ∃ t : Instant, bound = .proper t ∧ t.isAware = aware
  thruDate : ∀ bound ∈ v.thruDate, ∃ t : Instant, bound = .proper t ∧ t.isAware = aware

theorem Validity.FitsClock.exists_isActive {v : Validity} {moment : Instant} (h : v.FitsClock moment.isAware) :
    ∃ active, v.isActive (some (.proper moment)) = .ok active := by
  have hlt (t : Instant) (hkind : t.isAware = moment.isAware) :
      moment.lt t = .ok (decide (moment.onCommonClock < t.onCommonClock)) := if_pos hkind.symm
  rcases v with ⟨_ | first, _ | last⟩
  · exact ⟨true, rfl⟩
  · obtain ⟨t, rfl, hkind⟩ := h.thruDate last rfl
    exact ⟨decide (moment.onCommonClock < t.onCommonClock), by simp [isActive, hlt t hkind]⟩
  · obtain ⟨t, rfl, hkind⟩ := h.fromDate first rfl
    simp only [isActive, Option.getD_some, Moment.lt_proper, hlt t hkind]
    cases decide (moment.onCommonClock < t.onCommonClock)
    · exact ⟨true, rfl⟩
    · exact ⟨false, rfl⟩
  · obtain ⟨t, rfl, hkind⟩ := h.fromDate first rfl
    obtain ⟨u, rfl, hlast⟩ := h.thruDate last rfl
    simp only [isActive, Option.getD_some, Moment.lt_proper, Moment.le_proper, hlt t hkind, hlt u hlast]
    cases decide (moment.onCommonClock < t.onCommonClock)
    · exact ⟨_, rfl⟩
    · exact ⟨_, rfl⟩

/-- The step of a task with a time is definite, whatever the dates of the task are on the clock of the completion. -/
theorem RoutingTask.step_isDefinite {task : RoutingTask} {estimators : Estimators} {completion : Instant}
    {quantity : Amount} {d : Duration} (hvalidity : task.validity.FitsClock completion.isAware)
    (htime : task.time estimators quantity = .ok (.proper d)) (hd : 0 ≤ d.micros) :
    (task.step estimators).IsDefinite completion quantity where
  active cursor hcursor := by
    have hkind : cursor.isAware = completion.isAware := congrArg Option.isSome hcursor
    exact Validity.FitsClock.exists_isActive (hkind ▸ hvalidity)
  estimate := ⟨d, htime, hd⟩

theorem Duration.ofMicros_proceeds (finish : Instant) {n : Int} (hn : 0 ≤ n) :
    Proceeds finish (fun d : Duration => 0 ≤ d.micros) (ofMicros n) := by
  unfold ofMicros
  cases h : ofMicros? n with
  | none => exact .outOfRange
  | some d =>
    refine .ok ?_
    rwa [ofMicros?_eq_some_iff.mp h]

theorem Step.IsDefinite.workingTime_proceeds {step : Step} {completion : Instant} {quantity : Amount}
    {addition : Option Duration} (h : step.IsDefinite completion quantity)
    (haddition : ∀ extra ∈ addition, 0 ≤ extra.micros) (finish : Instant) :
    Proceeds finish (fun d : Duration => 0 ≤ d.micros) (step.workingTime quantity addition) := by
  obtain ⟨d, hestimate, hnonneg⟩ := h.estimate
  have hnot : d.isNegative = false := by simpa [Duration.isNegative] using hnonneg
  have heq : step.workingTime quantity addition = addition.elim (.ok d) d.add := by
    simp only [workingTime, hestimate]
    cases addition <;> simp [bind, Except.bind, Given.toExcept, hnot]
  rw [heq]
  cases addition with
  | none => exact .ok hnonneg
  | some extra => exact Duration.ofMicros_proceeds finish (Int.add_nonneg hnonneg (haddition extra rfl))

namespace Schedule

variable {sch : Schedule}

theorem mem_fallbacks_iff {id : Option Text} :
    id ∈ sch.fallbacks ↔ ∃ p ∈ sch.placements, p.onFallback = true ∧ p.step = id := by
  simp [fallbacks, and_assoc]

/-- A schedule reports a step exactly if its placement is on the fallback calendar, if no two placements share a
step. -/
theorem mem_fallbacks_iff_onFallback (hnodup : (sch.placements.map (·.step)).Nodup) {p : Placement}
    (hp : p ∈ sch.placements) : p.step ∈ sch.fallbacks ↔ p.onFallback = true := by
  rw [mem_fallbacks_iff]
  constructor
  · rintro ⟨q, hq, hfallback, hsame⟩
    obtain rfl : q = p := List.inj_on_of_nodup_map hnodup hq hp hsame
    exact hfallback
  · intro hfallback
    exact ⟨p, hp, hfallback, rfl⟩

theorem fallbacks_sublist (sch : Schedule) : sch.fallbacks.Sublist (sch.placements.map (·.step)) :=
  List.filter_sublist.map _

end Schedule

namespace Scheduler

variable {s : Scheduler} {quantity : Amount}

theorem result_placeOnFallback_proceeds (hfallback : IsReliable s.fallback) (step : Step) (finish : Instant)
    {d : Duration} (hd : 0 ≤ d.micros) :
    Proceeds finish (fun p : Placement => p.start.offset = finish.offset)
      (s.placeOnFallback step finish d).result := by
  rcases hfallback finish d hd with hunavailable | hanswer
  · rw [result_placeOnFallback_of_unavailable hd hunavailable]
    exact (finish.ofMicros_proceeds _).bind fun start hstart => .ok hstart
  · rw [result_placeOnFallback_of_available hanswer.not_isUnavailable]
    exact hanswer.bind fun start hstart => .ok hstart

theorem result_place_proceeds (hfallback : IsReliable s.fallback) {step : Step}
    (hown : IsReliable (s.calendars step.calendar)) (finish : Instant) {d : Duration} (hd : 0 ≤ d.micros) :
    Proceeds finish (fun p : Placement => p.start.offset = finish.offset) (s.place step finish d).result := by
  rcases hown finish d hd with hunavailable | hanswer
  · rw [result_place_of_unavailable hunavailable]
    exact result_placeOnFallback_proceeds hfallback step finish hd
  · rw [result_place_of_available hanswer.not_isUnavailable]
    exact hanswer.bind fun start hstart => .ok hstart

/-- A step that is always placed on the clock of its finish, unless the range is left or an aware instant meets the
windows of a calendar. -/
def CanPlace (s : Scheduler) (step : Step) : Prop :=
  ∀ (finish : Instant) (d : Duration), 0 ≤ d.micros →
    Proceeds finish (fun p : Placement => p.start.offset = finish.offset) (s.place step finish d).result

/-- Along a run the cursor stays on the clock of the completion, so that an aware instant can only meet a calendar if
the completion is aware. -/
theorem result_placeAll_proceeds {completion : Instant} {steps : List Step}
    (hplace : ∀ step ∈ steps, s.CanPlace step)
    (hsteps : ∀ step ∈ steps, step.IsDefinite completion quantity) {addition : Option Duration}
    (haddition : ∀ extra ∈ addition, 0 ≤ extra.micros) {cursor : Instant}
    (hcursor : cursor.offset = completion.offset) :
    Proceeds completion (fun _ => True) (s.placeAll quantity addition steps cursor).result := by
  induction steps generalizing addition cursor with
  | nil => exact .ok trivial
  | cons step earlier ih =>
    rw [List.forall_mem_cons] at hplace hsteps
    obtain ⟨active, hactive⟩ := hsteps.1.active cursor hcursor
    rw [result_placeAll_cons, hactive]
    cases active with
    | false => exact ih hplace.2 hsteps.2 (by simp) hcursor
    | true =>
      refine (hsteps.1.workingTime_proceeds haddition completion).bind fun d hd => ?_
      have hplaced := (hplace.1 cursor d hd).of_offset_eq hcursor
      refine hplaced.bind fun p hp => ?_
      exact (ih hplace.2 hsteps.2 (by simp) (hp.trans hcursor)).bind fun _ _ => .ok trivial

theorem result_scheduleChain_proceeds_of_canPlace {c : Chain} (hplace : ∀ step ∈ c.steps, s.CanPlace step)
    (hsteps : ∀ step ∈ c.steps, step.IsDefinite c.completion (.proper c.quantity))
    (hoffset : 0 ≤ c.trailingOffset.micros) :
    Proceeds c.completion (fun _ => True) (s.scheduleChain c).result := by
  rw [scheduleChain, Logged.result_bind]
  refine Proceeds.bind (P := fun _ => True) ?_ fun _ _ => .ok trivial
  refine result_placeAll_proceeds ?_ ?_ ?_ rfl
  · simpa using hplace
  · simpa using hsteps
  · rintro extra ⟨⟩
    exact hoffset

theorem result_scheduleChain_proceeds (hfallback : IsReliable s.fallback) {c : Chain}
    (hown : ∀ step ∈ c.steps, IsReliable (s.calendars step.calendar))
    (hsteps : ∀ step ∈ c.steps, step.IsDefinite c.completion (.proper c.quantity))
    (hoffset : 0 ≤ c.trailingOffset.micros) :
    Proceeds c.completion (fun _ => True) (s.scheduleChain c).result :=
  result_scheduleChain_proceeds_of_canPlace
    (fun step hstep finish _ hd => result_place_proceeds hfallback (hown step hstep) finish hd) hsteps hoffset

theorem Places.onFallback_iff {step : Step} {cursor : Instant} {d : Duration} {p : Placement}
    (h : s.Places step cursor d p) : p.onFallback = true ↔ IsUnavailable (s.calendars step.calendar cursor d) := by
  cases h with
  | own hown => simp [not_isUnavailable_of_eq_ok hown]
  | fallback hunavailable _ => simp [hunavailable]

theorem Places.startsOnFallback {step : Step} {cursor : Instant} {d : Duration} {p : Placement}
    (h : s.Places step cursor d p) (hp : p.onFallback = true) : s.StartsOnFallback cursor d p.start := by
  cases h with
  | own _ => cases hp
  | fallback _ hstart => exact hstart

end Scheduler

/-- A calendar that fails never stops a schedule. On a plain registry, with a plain calendar or none at all to fall back
to, a chain of definite steps is scheduled unless a range is left or its aware completion meets the naive windows of a
calendar. The schedule then reports, in the order of its visits and once each, the steps whose reference was of no use
for their whole working time before the cursor, and for no other reason. Each of them starts where the fallback calendar
has all of that time to start, or that time before the cursor if the fallback calendar is unavailable too.

The registry has to answer for the references of the steps: one in memory always does, a table unless the reference is
no text that can be encoded, a closed table never. -/
theorem schedule_reportsFallbacks {reg : CalendarRegistry} {fallback : WorkingTime} {r : ScheduleRequest}
    {c : Chain} (hreg : reg.IsPlain)
    (hfallback : (∃ calendar : WorkingCalendar, calendar.IsPlain ∧ fallback = calendar.subtract) ∨
      ∀ finish d, IsUnavailable (fallback finish d))
    (hcheck : r.check = .ok c) (hsteps : ∀ step ∈ c.steps, step.IsDefinite c.completion (.proper c.quantity))
    (hanswers : ∀ step ∈ c.steps, ∀ name ∈ step.calendar, reg.stored.Answers name) :
    Proceeds c.completion
      (fun sch : Schedule =>
        sch.fallbacks.Sublist (c.steps.reverse.map (·.id)) ∧ sch.fallbacks.Nodup ∧
        ∃ cursors : Nat → Instant, cursors 0 = c.completion ∧ cursors c.steps.length = sch.start ∧
          ∀ j step, c.steps.reverse[j]? = some step →
            (step.isActive (cursors j) = .ok false ∧ cursors (j + 1) = cursors j ∧
              sch.start? step.id = none ∧ step.id ∉ sch.fallbacks) ∨
            (step.isActive (cursors j) = .ok true ∧ sch.start? step.id = some (cursors (j + 1)) ∧
              ∃ d, step.workingTime (.proper c.quantity) (if j = 0 then some c.trailingOffset else none) = .ok d ∧
                (step.id ∈ sch.fallbacks ↔ reg.IsUnusable step.calendar (cursors j) d) ∧
                (step.id ∈ sch.fallbacks →
                  fallback (cursors j) d = .ok (cursors (j + 1)) ∨
                  IsUnavailable (fallback (cursors j) d) ∧ (cursors j).minus d = .ok (cursors (j + 1)))))
      (Scheduler.schedule { calendars := reg.subtract, fallback } r).result := by
  obtain ⟨_, hvalid⟩ := ScheduleRequest.check_eq_ok_iff.mp hcheck
  have hreliable : IsReliable fallback := by
    intro finish d hd
    rcases hfallback with ⟨calendar, hplain, rfl⟩ | hclosed
    · exact hplain.subtract_isRegular finish hd
    · exact .inl (hclosed finish d)
  have hown : ∀ step ∈ c.steps, IsReliable (reg.subtract step.calendar) :=
    fun step hstep finish d hd => hreg.subtract_isRegular (hanswers step hstep) finish hd
  rw [Scheduler.result_schedule_of_check hcheck]
  refine (Scheduler.result_scheduleChain_proceeds hreliable hown hsteps hvalid.offset_nonneg).of_ok ?_
  intro sch hok
  obtain ⟨_, hrun⟩ := (Scheduler.result_scheduleChain_eq_ok_iff hvalid.offset_nonneg).mp hok
  obtain ⟨hnodup, cursors, hbegin, hend, hvisits⟩ := hrun.exists_visits hvalid
  refine ⟨sch.fallbacks_sublist.trans hrun.ids_sublist, sch.fallbacks_sublist.nodup hnodup, ?_⟩
  refine ⟨cursors, hbegin, hend, ?_⟩
  intro j step hstep
  have hmem : step ∈ c.steps := List.mem_reverse.mp (List.mem_of_getElem? hstep)
  have hvisit := hvisits j step hstep
  generalize cursors (j + 1) = next at hvisit ⊢
  cases hvisit with
  | skipped hactive hnone =>
    refine .inl ⟨hactive, rfl, Schedule.start?_eq_none hnone, ?_⟩
    rw [Schedule.mem_fallbacks_iff]
    rintro ⟨p, hp, _, hid⟩
    exact hnone p hp hid
  | @placed d p hactive hd hplaces hp =>
    have hstart := Schedule.start?_eq_some_of_mem hnodup hp
    have hreported := Schedule.mem_fallbacks_iff_onFallback hnodup hp
    rw [hplaces.step_eq] at hstart hreported
    refine .inr ⟨hactive, hstart, d, hd, ?_, ?_⟩
    · rw [hreported, hplaces.onFallback_iff]
      exact hreg.isUnavailable_subtract_iff (hanswers step hmem) (cursors j) d
    · intro hfallbacks
      exact hplaces.startsOnFallback (hreported.mp hfallbacks)

/-- A registry that knows the calendar without breaks and no other one. -/
def CalendarRegistry.continuousOnly : CalendarRegistry where
  stored := .memory .empty
  bound := [(continuousId, continuousTime)]
  lookback := .proper (.int defaultLookback)

/-- A task that only has to be set up, with its dates. -/
def RoutingTask.dated (id : Text) (setupTime : Duration) (calendar : Option Text) (fromDate : Instant)
    (thruDate : Option Instant) : RoutingTask where
  id := some id
  name := none
  setupTime := .proper setupTime
  runTimePerUnit := .proper .zero
  calendar
  validity := ⟨some (.proper fromDate), thruDate.map .proper⟩
  estimateMethod := none
  description := none

theorem RoutingTask.dated_fitsClock {id : Text} {setupTime : Duration} {calendar : Option Text} {fromDate : Instant}
    {thruDate : Option Instant} {aware : Bool} (hfrom : fromDate.isAware = aware)
    (hthru : ∀ t ∈ thruDate, t.isAware = aware) :
    (dated id setupTime calendar fromDate thruDate).validity.FitsClock aware := by
  refine ⟨?_, ?_⟩
  · rintro _ ⟨⟩
    exact ⟨fromDate, rfl, hfrom⟩
  · intro bound hbound
    obtain ⟨t, ht, rfl⟩ := Option.map_eq_some_iff.mp hbound
    exact ⟨t, rfl, hthru t ht⟩

/-- Cutting, bending and packing for an hour each. The bending ends at noon for good, and the packing is only done from
eleven o'clock on. -/
def Chain.datedTasks (hour : Duration) (six ten eleven noon : Instant) : Chain where
  steps :=
    [ RoutingTask.step [] (.dated "cut" hour (some continuousId) six none),
      RoutingTask.step [] (.dated "bend" hour none six (some noon)),
      RoutingTask.step [] (.dated "pack" hour none eleven none) ]
  completion := ten
  quantity := .int 5
  trailingOffset := hour

/-- All of them can be asked on Tuesday, which like the dates of the tasks is on a naive clock. -/
theorem Chain.datedTasks_isDefinite :
    ∀ step ∈ (datedTasks (.minutes 60 (by decide)) (.onTuesday 6) (.onTuesday 10) (.onTuesday 11)
        (.onTuesday 12)).steps, step.IsDefinite (.onTuesday 10) (.proper (.int 5)) := by
  have hnaive (hour : Fin 24) : (Instant.onTuesday hour).isAware = false := rfl
  simp only [datedTasks, List.forall_mem_cons, List.not_mem_nil, false_imp_iff, implies_true, and_true]
  refine ⟨RoutingTask.step_isDefinite ?cut rfl (by decide), RoutingTask.step_isDefinite ?bend rfl (by decide),
    RoutingTask.step_isDefinite ?pack rfl (by decide)⟩
  all_goals rw [hnaive]
  case cut => exact RoutingTask.dated_fitsClock (hnaive 6) (by simp)
  case bend => exact RoutingTask.dated_fitsClock (hnaive 6) fun t ht => Option.some.inj ht ▸ hnaive 12
  case pack => exact RoutingTask.dated_fitsClock (hnaive 11) (by simp)

theorem ShiftClock.subtract_aroundTheClock_hour :
    (WorkingCalendar.shifts aroundTheClock).subtract (.onTuesday 10) (.minutes 60 (by decide)) =
      .ok (.onTuesday 9) := by
  rw [WorkingCalendar.subtract_shifts (by decide)]
  change aroundTheClock.walk none (738599 * dayMicros + 36000000000) 3600000000 = _
  rw [walk_of_some none (by decide) latestWindow_aroundTheClock_early, walk_of_nonpos none (by decide)]
  rfl

/-- The bending is on no calendar, so the shifts it falls back to are reported; the cutting before it is on its own
calendar and is not. The packing is left out, for the dates of its task. -/
theorem schedule_reportsFallbacks_datedTasks :
    ∃ c sch, c = Chain.datedTasks (.minutes 60 (by decide)) (.onTuesday 6) (.onTuesday 10) (.onTuesday 11)
        (.onTuesday 12) ∧
      (Scheduler.schedule
        { calendars := CalendarRegistry.continuousOnly.subtract
          fallback := (WorkingCalendar.shifts .aroundTheClock).subtract } c.request).result = .ok sch ∧
      sch.start = .onTuesday 8 ∧ sch.fallbacks = [some ("bend" : Text)] ∧
      ∃ cursors : Nat → Instant, cursors 0 = .onTuesday 10 ∧ cursors 3 = .onTuesday 8 := by
  obtain ⟨c, hc⟩ : ∃ c, c = Chain.datedTasks (.minutes 60 (by decide)) (.onTuesday 6) (.onTuesday 10) (.onTuesday 11)
    (.onTuesday 12) := exists_eq
  have hplain : CalendarRegistry.continuousOnly.IsPlain := by
    refine ⟨?_, defaultLookback, rfl⟩
    intro entry hentry
    rw [List.mem_singleton.mp hentry]
    trivial
  have hvalid : c.IsValid := by
    rw [hc]
    exact ⟨by decide, by decide, by decide⟩
  have hcheck := ScheduleRequest.check_eq_ok_iff.mpr ⟨rfl, hvalid⟩
  have hsteps : ∀ step ∈ c.steps, step.IsDefinite c.completion (.proper c.quantity) := by
    rw [hc]
    exact Chain.datedTasks_isDefinite
  have hanswers : ∀ step ∈ c.steps, ∀ name ∈ step.calendar,
      CalendarRegistry.continuousOnly.stored.Answers name := fun _ _ _ _ => trivial
  have hcut : continuousTime.subtract (.onTuesday 9) (.minutes 60 (by decide)) = .ok (.onTuesday 8) := by
    rw [continuousTime, WorkingCalendar.subtract_continuous (by decide)]
    exact Instant.ofMicros_eq_ok_iff.mpr ⟨by decide, rfl⟩
  obtain ⟨sch, hsch⟩ : ∃ sch : Schedule, sch =
      { completion := .onTuesday 10, start := .onTuesday 8
        placements := [⟨some "bend", .onTuesday 9, true⟩, ⟨some "cut", .onTuesday 8, false⟩] } := exists_eq
  have hresult : (Scheduler.schedule
      { calendars := CalendarRegistry.continuousOnly.subtract
        fallback := (WorkingCalendar.shifts .aroundTheClock).subtract } c.request).result = .ok sch := by
    refine Scheduler.result_schedule_eq_ok_iff.mpr ⟨c, rfl, hvalid, ?_, ?_⟩
    · rw [hc, hsch]
      rfl
    · rw [hc, hsch]
      refine .skip rfl (.place rfl rfl ?bend (.place rfl rfl ?cut (.nil _ _)))
      case bend => exact .fallback ⟨_, _, rfl⟩ (.inl ShiftClock.subtract_aroundTheClock_hour)
      case cut => exact .own hcut
  have hproceeds := schedule_reportsFallbacks hplain (.inl ⟨.shifts .aroundTheClock, trivial, rfl⟩) hcheck hsteps
    hanswers
  rw [hresult] at hproceeds
  cases hproceeds with
  | ok hreported =>
    obtain ⟨_, _, cursors, hbegin, hend, _⟩ := hreported
    rw [hc] at hbegin hend
    rw [hsch] at hend
    exact ⟨c, sch, hc, hresult, hsch ▸ rfl, hsch ▸ rfl, cursors, hbegin, hend⟩

end SupplyPlan
