import SupplyPlan.Proofs.Calendar.Elapsed
import SupplyPlan.Proofs.Schedule.Composition
import SupplyPlan.Proofs.Schedule.Fallback
import SupplyPlan.Proofs.Schedule.Work

namespace SupplyPlan

/-- Time in which no work is done faster than time passes, and on one clock. -/
def IsUnhurried (calendar : WorkingTime) : Prop :=
  ∀ (finish : Instant) (d : Duration) (start : Instant), 0 ≤ d.micros → calendar finish d = .ok start →
    start.offset = finish.offset ∧ start.micros + d.micros ≤ finish.micros

namespace WorkingCalendar

theorem IsPlain.isUnhurried {calendar : WorkingCalendar} (h : calendar.IsPlain) : IsUnhurried calendar.subtract :=
  fun _ _ _ hd hstart => h.subtract_passes hd hstart

/-- Shifts that cannot be searched leave time for no work at all. -/
theorem unsearchable_isUnhurried (calendar : ShiftCalendar) : IsUnhurried (unsearchable calendar).subtract := by
  intro finish d start hd h
  obtain ⟨hzero, rfl⟩ := subtract_unsearchable_eq_ok hd h
  exact ⟨rfl, by omega⟩

/-- A calendar of shifts is searched or cannot be searched, whatever is given as its horizon. -/
theorem isUnhurried_of_ofShifts {shifts : ShiftCalendar} {lookback : Amount} {calendar : WorkingCalendar}
    (h : ofShifts shifts lookback = .ok calendar) : IsUnhurried calendar.subtract := by
  unfold ofShifts at h
  split at h
  · obtain ⟨given, _, h⟩ := bind_eq_ok_iff.mp h
    split at h
    · cases h
      exact IsPlain.isUnhurried trivial
    · cases h
      exact IsPlain.isUnhurried trivial
    · cases h
      exact unsearchable_isUnhurried shifts
  · cases h

end WorkingCalendar

namespace CalendarRegistry

variable {reg : CalendarRegistry} {ref : Option Text}

/-- The calendars that are bound, like all that are stored, are made of shifts or have no breaks. Nothing is said about
how far back they are searched. -/
def BindsPlain (reg : CalendarRegistry) : Prop := ∀ entry ∈ reg.bound, entry.2.IsPlain

theorem BindsPlain.isUnhurried (h : reg.BindsPlain) (ref : Option Text) : IsUnhurried (reg.subtract ref) := by
  intro finish d start hd hsubtract
  obtain ⟨calendar, hresolve, hstart⟩ := bind_eq_ok_iff.mp hsubtract
  suffices hcalendar : IsUnhurried calendar.subtract from hcalendar finish d start hd hstart
  cases ref with
  | none => cases hresolve
  | some name =>
    rw [resolve] at hresolve
    split at hresolve
    · next bound hbound =>
      cases hresolve
      obtain ⟨entry, hfind, rfl⟩ := Option.map_eq_some_iff.mp hbound
      exact (h entry (List.mem_of_find?_eq_some hfind)).isUnhurried
    · split at hresolve
      · exact WorkingCalendar.isUnhurried_of_ofShifts hresolve
      · cases hresolve
      · cases hresolve

/-- A step of the given length runs in time without breaks: on its own calendar, on the fallback calendar, or because
that one is unavailable too. -/
inductive RunsWithoutBreaks (reg : CalendarRegistry) (fallback : WorkingCalendar) (ref : Option Text)
    (finish : Instant) (d : Duration) : Prop where
  | own {id : Option Text} (hresolve : reg.resolve ref = .ok (.continuous id))
  | fallback {id : Option Text} (hown : IsUnavailable (reg.subtract ref finish d))
      (hfallback : fallback = .continuous id)
  | lastResort (hown : IsUnavailable (reg.subtract ref finish d))
      (hfallback : IsUnavailable (fallback.subtract finish d))

end CalendarRegistry

theorem Schedule.map_snd_starts (sch : Schedule) : sch.starts.map (·.2) = sch.placements.map (·.start) := by
  rw [starts, List.map_map]
  rfl

namespace Scheduler

variable {s : Scheduler} {step : Step} {finish : Instant} {d : Duration} {p : Placement}

/-- A placed step takes at least as long as its work, wherever it is placed in the end. -/
theorem Places.passes (hown : IsUnhurried (s.calendars step.calendar)) (hfallback : IsUnhurried s.fallback)
    (hd : 0 ≤ d.micros) (h : s.Places step finish d p) :
    p.start.offset = finish.offset ∧ p.start.micros + d.micros ≤ finish.micros := by
  cases h with
  | own hstart => exact hown finish d _ hd hstart
  | fallback _ hstart =>
    rcases hstart with hstart | ⟨_, hstart⟩
    · exact hfallback finish d _ hd hstart
    · obtain ⟨hmicros, hoffset⟩ := Instant.ofMicros_eq_ok_iff.mp hstart
      refine ⟨hoffset, ?_⟩
      dsimp only
      omega

/-- In time without breaks a placed step takes exactly as long as its work. -/
theorem Places.minus_eq {reg : CalendarRegistry} {fallback : WorkingCalendar} (hd : 0 ≤ d.micros)
    (h : Places { calendars := reg.subtract, fallback := fallback.subtract } step finish d p)
    (hcontinuous : reg.RunsWithoutBreaks fallback step.calendar finish d) : finish.minus d = .ok p.start := by
  have hminus {id : Option Text} (hresolve : reg.resolve step.calendar = .ok (.continuous id)) :
      reg.subtract step.calendar finish d = finish.minus d := by
    rw [CalendarRegistry.subtract_of_resolve hresolve, WorkingCalendar.subtract_continuous hd]
  cases h with
  | own hstart =>
    cases hcontinuous with
    | own hresolve => exact (hminus hresolve).symm.trans hstart
    | fallback hown _ | lastResort hown _ => exact absurd hstart (hown.ne_ok _)
  | fallback hown hstart =>
    cases hcontinuous with
    | own hresolve =>
      -- time without breaks is never unavailable
      dsimp only at hown
      rw [hminus hresolve] at hown
      exact absurd hown (finish.ofMicros_proceeds (finish.micros - d.micros)).not_isUnavailable
    | @fallback id _ hfallback =>
      have hminus' : fallback.subtract finish d = finish.minus d := by
        rw [hfallback, WorkingCalendar.subtract_continuous hd]
      rcases hstart with hstart | ⟨_, hstart⟩
      · exact hminus'.symm.trans hstart
      · exact hstart
    | lastResort _ hfallback =>
      rcases hstart with hstart | ⟨_, hstart⟩
      · exact absurd hstart (hfallback.ne_ok _)
      · exact hstart

/-- Along a run the starts never increase. -/
theorem Run.starts_pairwise {quantity : Amount} {addition : Option Duration} {steps : List Step}
    {cursor stop : Instant} {ps : List Placement} (h : s.Run quantity addition steps cursor ps stop)
    (hfallback : IsUnhurried s.fallback) (hown : ∀ step ∈ steps, IsUnhurried (s.calendars step.calendar))
    (haddition : ∀ extra ∈ addition, 0 ≤ extra.micros) :
    (cursor :: ps.map (·.start)).Pairwise fun later earlier => earlier.NotAfter later := by
  induction h with
  | nil => exact List.pairwise_singleton _ _
  | skip _ _ ih => exact ih (fun step hstep => hown step (List.mem_cons_of_mem _ hstep)) (by simp)
  | @place addition step earlier cursor stop d p ps _ hd hp _ ih =>
    obtain ⟨hfirst, hrest⟩ := List.forall_mem_cons.mp hown
    have hpairwise := ih hrest (by simp)
    have hnonneg := Step.workingTime_nonneg haddition hd
    obtain ⟨hoffset, hpassed⟩ := hp.passes hfirst hfallback hnonneg
    have hstart : p.start.NotAfter cursor := (Instant.notAfter_iff_of_offset_eq hoffset).mpr (by omega)
    refine List.pairwise_cons.mpr ⟨?_, hpairwise⟩
    intro t ht
    rcases List.mem_cons.mp ht with rfl | hmem
    · exact hstart
    · exact ((List.pairwise_cons.mp hpairwise).1 t hmem).trans hstart

end Scheduler

/-- Starts never increase, and the lead time covers the work. On every registry of calendars with shifts and without
breaks, however far back they are searched, and with any such calendar to fall back to: from the completion on, in the
order of the entries, no start is later than one before it; each one is earlier than its cursor by the whole estimate of
its step at least, and by the offset too for the last step of the chain; and the lead time is no less than all this
work. It is equal to the work if every scheduled step ran in time without breaks. -/
theorem schedule_coversWork {reg : CalendarRegistry} {fallback : WorkingCalendar} (hreg : reg.BindsPlain)
    (hfallback : fallback.IsPlain) {r : ScheduleRequest} {sch : Schedule}
    (h : (Scheduler.schedule { calendars := reg.subtract, fallback := fallback.subtract } r).result = .ok sch) :
    (sch.completion :: sch.starts.map (·.2)).Pairwise (fun later earlier => earlier.NotAfter later) ∧
      ∃ c : Chain, r = c.request ∧ c.IsValid ∧ sch.completion = c.completion ∧
        ∃ cursors : Nat → Instant, cursors 0 = c.completion ∧ cursors c.steps.length = sch.start ∧
          (∀ j step, c.steps.reverse[j]? = some step →
            (step.isActive (cursors j) = .ok false ∧ sch.start? step.id = none ∧ cursors (j + 1) = cursors j) ∨
            (step.isActive (cursors j) = .ok true ∧ sch.start? step.id = some (cursors (j + 1)) ∧
              ∃ estimate : Duration, step.estimate (.proper c.quantity) = .ok (.proper estimate) ∧
                0 ≤ estimate.micros ∧ (cursors (j + 1)).offset = (cursors j).offset ∧
                (cursors (j + 1)).micros + (estimate.micros + (if j = 0 then c.trailingOffset.micros else 0)) ≤
                  (cursors j).micros)) ∧
          ∃ lead, sch.leadTime = .ok lead ∧ c.workIn sch ≤ lead.micros ∧
            ((∀ j step d, c.steps.reverse[j]? = some step → (sch.start? step.id).isSome →
                step.workingTime (.proper c.quantity) (if j = 0 then some c.trailingOffset else none) = .ok d →
                reg.RunsWithoutBreaks fallback step.calendar (cursors j) d) →
              lead.micros = c.workIn sch) := by
  obtain ⟨c, rfl, hvalid, hcompletion, hrun⟩ := Scheduler.result_schedule_eq_ok_iff.mp h
  obtain ⟨hnodup, cursors, hbegin, hend, hvisits⟩ := hrun.exists_visits hvalid
  have hown (ref : Option Text) : IsUnhurried (reg.subtract ref) := hreg.isUnhurried ref
  have hpassed : sch.start.offset = c.completion.offset ∧
      sch.start.micros + c.workIn sch ≤ c.completion.micros := by
    rw [← hend]
    refine Scheduler.Visits.workIn_induction hvalid hvisits hnodup
      (I := fun done cursor => cursor.offset = c.completion.offset ∧ cursor.micros + done ≤ c.completion.micros) ?_ ?_
    · rw [hbegin]
      exact ⟨rfl, by omega⟩
    · rintro j step d p done _ _ hd hp _ ⟨hoffset, hdone⟩
      obtain ⟨hoffset', hstart⟩ := hp.passes (hown step.calendar) hfallback.isUnhurried hd
      exact ⟨hoffset'.trans hoffset, by omega⟩
  refine ⟨?_, c, rfl, hvalid, hcompletion, cursors, hbegin, hend, ?_, ?_⟩
  · have hpairwise := hrun.starts_pairwise hfallback.isUnhurried (fun step _ => hown step.calendar)
      (hvalid.addition_nonneg 0)
    rwa [hcompletion, sch.map_snd_starts]
  · intro j step hstep
    refine ((hvisits j step hstep).entry_cases hnodup).imp_right ?_
    rintro ⟨hactive, hentry, d, p, hd, hp, _, hnext⟩
    obtain ⟨estimate, hestimate, hnonneg, hmicros⟩ := Step.workingTime_eq_ok_iff.mp hd
    have hlength : d.micros = estimate.micros + (if j = 0 then c.trailingOffset.micros else 0) := by
      rw [hmicros]
      by_cases hlast : j = 0 <;> simp [hlast]
    have hlengthNonneg : 0 ≤ d.micros := by
      have hoffset := hvalid.offset_nonneg
      split at hlength <;> omega
    obtain ⟨hoffset, hstart⟩ := hp.passes (hown step.calendar) hfallback.isUnhurried hlengthNonneg
    rw [hnext] at hoffset hstart
    exact ⟨hactive, hentry, estimate, hestimate, hnonneg, hoffset, by omega⟩
  · have hclock : sch.start.offset = sch.completion.offset := by
      rw [hcompletion]
      exact hpassed.1
    obtain ⟨lead, hlead, hmicros⟩ := Schedule.exists_leadTime hclock
    rw [hcompletion] at hmicros
    refine ⟨lead, hlead, by omega, fun hcontinuous => ?_⟩
    have hexact : sch.start.micros + c.workIn sch = c.completion.micros := by
      rw [← hend]
      refine Scheduler.Visits.workIn_induction hvalid hvisits hnodup
        (I := fun done cursor => cursor.micros + done = c.completion.micros) ?_ ?_
      · rw [hbegin]
        omega
      · intro j step d p done hstep hd hnonneg hp hmem hdone
        have hentry := Schedule.start?_eq_some_of_mem hnodup hmem
        rw [hp.step_eq] at hentry
        have hminus := hp.minus_eq hnonneg (hcontinuous j step d hstep (by rw [hentry]; rfl) hd)
        obtain ⟨hstart, _⟩ := Instant.ofMicros_eq_ok_iff.mp hminus
        omega
    omega

/-- Cutting in time without breaks and bending that falls back to such time: the lead time is the work, and what does
not take place adds nothing to it. -/
theorem schedule_coversWork_cutBendPack :
    (Scheduler.schedule { calendars := CalendarRegistry.continuousOnly.subtract, fallback := continuousTime.subtract }
        Chain.cutBendPack.request).result = .ok .cutBendPack ∧
      Chain.cutBendPack.workIn .cutBendPack = 6 * 3600000000 ∧
      ∃ lead, Schedule.cutBendPack.leadTime = .ok lead ∧ lead.micros = Chain.cutBendPack.workIn .cutBendPack := by
  have hreg : CalendarRegistry.continuousOnly.BindsPlain := by
    intro entry hentry
    rw [List.mem_singleton.mp hentry]
    trivial
  have hfallback : continuousTime.IsPlain := trivial
  have hbend : continuousTime.subtract (.onTuesday 10) (.minutes 60 (by decide)) = .ok (.onTuesday 9) := by
    rw [continuousTime, WorkingCalendar.subtract_continuous (by decide)]
    exact Instant.ofMicros_eq_ok_iff.mpr ⟨by decide, rfl⟩
  have hcut : continuousTime.subtract (.onTuesday 9) (.minutes 300 (by decide)) = .ok (.onTuesday 4) := by
    rw [continuousTime, WorkingCalendar.subtract_continuous (by decide)]
    exact Instant.ofMicros_eq_ok_iff.mpr ⟨by decide, rfl⟩
  have hresult : (Scheduler.schedule
      { calendars := CalendarRegistry.continuousOnly.subtract, fallback := continuousTime.subtract }
      Chain.cutBendPack.request).result = .ok .cutBendPack := by
    refine Scheduler.result_schedule_eq_ok_iff.mpr ⟨Chain.cutBendPack, rfl, Chain.cutBendPack_isValid, rfl, ?_⟩
    exact .skip rfl (.place rfl rfl (.fallback ⟨_, _, rfl⟩ (.inl hbend)) (.place rfl rfl (.own hcut) (.nil _ _)))
  obtain ⟨_, c, hrequest, hvalid, _, cursors, _, _, _, lead, hlead, _, hexact⟩ :=
    schedule_coversWork hreg hfallback hresult
  have hcheck := ScheduleRequest.check_eq_ok_iff.mpr ⟨hrequest, hvalid⟩
  have hcheck' := ScheduleRequest.check_eq_ok_iff.mpr ⟨rfl, Chain.cutBendPack_isValid⟩
  obtain rfl : c = Chain.cutBendPack := Except.ok.inj (hcheck.symm.trans hcheck')
  refine ⟨hresult, by decide, lead, hlead, hexact ?_⟩
  intro j step d hstep hentry _
  rcases j with _ | _ | _ | j
  · obtain rfl := Option.some.inj hstep
    exact absurd hentry (by decide)
  · obtain rfl := Option.some.inj hstep
    exact .fallback ⟨_, _, rfl⟩ rfl
  · obtain rfl := Option.some.inj hstep
    exact .own rfl
  · cases hstep

end SupplyPlan
