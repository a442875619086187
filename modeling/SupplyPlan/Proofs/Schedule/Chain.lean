import SupplyPlan.Proofs.Calendar.ExactTime
import SupplyPlan.Proofs.Schedule.Run

namespace SupplyPlan

namespace Schedule

/-- A schedule answers for a step with its placement, if no two placements share a step. -/
theorem start?_eq_some_of_mem {sch : Schedule} (hnodup : (sch.placements.map (·.step)).Nodup) {p : Placement}
    (hp : p ∈ sch.placements) : sch.start? p.step = some p.start := by
  unfold start?
  cases hfound : sch.placements.find? (·.step = p.step) with
  | none =>
    have hnone := List.find?_eq_none.mp hfound p hp
    simp at hnone
  | some q =>
    have hsame : q.step = p.step := by simpa using List.find?_some hfound
    have heq : q = p := List.inj_on_of_nodup_map hnodup (List.mem_of_find?_eq_some hfound) hp hsame
    rw [heq]
    rfl

theorem start?_eq_none {sch : Schedule} {id : Option Text} (h : ∀ p ∈ sch.placements, p.step ≠ id) :
    sch.start? id = none := by
  unfold start?
  rw [Option.map_eq_none_iff, List.find?_eq_none]
  simpa using h

theorem map_fst_starts (sch : Schedule) : sch.starts.map (·.1) = sch.placements.map (·.step) := by
  simp [starts]

end Schedule

namespace Scheduler

variable {s : Scheduler} {quantity : Amount} {addition : Option Duration} {steps : List Step}
  {cursor stop : Instant} {ps : List Placement}

theorem Places.step_eq {step : Step} {d : Duration} {p : Placement} (h : s.Places step cursor d p) :
    p.step = step.id := by
  cases h <;> rfl

/-- Placements come in the order of the steps they are for. -/
theorem Run.ids_sublist (h : s.Run quantity addition steps cursor ps stop) :
    (ps.map (·.step)).Sublist (steps.map (·.id)) := by
  induction h with
  | nil => exact .slnil
  | skip _ _ ih => exact ih.cons _
  | place _ _ hp _ ih =>
    rw [List.map_cons, List.map_cons, hp.step_eq]
    exact ih.cons_cons _

/-- What a run makes of one of its steps, told by all the placements it leaves behind. -/
inductive Visit (s : Scheduler) (quantity : Amount) (ps : List Placement) (addition : Option Duration)
    (step : Step) (cursor : Instant) : Instant → Prop where
  | skipped (hactive : step.isActive cursor = .ok false) (hnone : ∀ p ∈ ps, p.step ≠ step.id) :
      Visit s quantity ps addition step cursor cursor
  | placed {d : Duration} {p : Placement} (hactive : step.isActive cursor = .ok true)
      (hd : step.workingTime quantity addition = .ok d) (hp : s.Places step cursor d p) (hmem : p ∈ ps) :
      Visit s quantity ps addition step cursor p.start

theorem Visit.cons {step : Step} {next : Instant} {p : Placement}
    (h : s.Visit quantity ps addition step cursor next) (hp : p.step ≠ step.id) :
    s.Visit quantity (p :: ps) addition step cursor next := by
  cases h with
  | skipped hactive hnone => exact .skipped hactive (List.forall_mem_cons.mpr ⟨hp, hnone⟩)
  | placed hactive hd hplaces hmem => exact .placed hactive hd hplaces (List.mem_cons_of_mem _ hmem)

/-- A sequence of cursors behind a first one. -/
def cursorsFrom (cursor : Instant) (later : Nat → Instant) : Nat → Instant
  | 0 => cursor
  | j + 1 => later j

/-- The cursor of a run before each step and after the last one. Only the first step that is visited, which is the last
one of its chain, gets the addition. -/
theorem Run.exists_cursors (h : s.Run quantity addition steps cursor ps stop)
    (hids : (steps.map (·.id)).Nodup) :
    ∃ cursors : Nat → Instant, cursors 0 = cursor ∧ cursors steps.length = stop ∧
      ∀ j step, steps[j]? = some step →
        s.Visit quantity ps (if j = 0 then addition else none) step (cursors j) (cursors (j + 1)) := by
  induction h with
  | nil addition cursor => exact ⟨fun _ => cursor, rfl, rfl, by simp⟩
  | @skip addition step earlier cursor stop ps hactive hrest ih =>
    rw [List.map_cons, List.nodup_cons] at hids
    obtain ⟨cursors, hbegin, hend, hvisits⟩ := ih hids.2
    refine ⟨cursorsFrom cursor cursors, rfl, hend, ?_⟩
    intro j other hother
    cases j with
    | zero =>
      obtain rfl : step = other := by simpa using hother
      simp only [if_true, cursorsFrom, hbegin]
      refine .skipped hactive fun p hp hid => hids.1 ?_
      rw [← hid]
      exact hrest.ids_sublist.mem (List.mem_map_of_mem hp)
    | succ j => simpa [cursorsFrom] using hvisits j other (by simpa using hother)
  | @place addition step earlier cursor stop d p ps hactive hd hp hrest ih =>
    rw [List.map_cons, List.nodup_cons] at hids
    obtain ⟨cursors, hbegin, hend, hvisits⟩ := ih hids.2
    refine ⟨cursorsFrom cursor cursors, rfl, hend, ?_⟩
    intro j other hother
    cases j with
    | zero =>
      obtain rfl : step = other := by simpa using hother
      simp only [if_true, cursorsFrom, hbegin]
      exact .placed hactive hd hp (List.mem_cons_self ..)
    | succ j =>
      have hearlier : earlier[j]? = some other := by simpa using hother
      have hvisit := hvisits j other hearlier
      simp only [ite_self] at hvisit
      refine Visit.cons (by simpa [cursorsFrom] using hvisit) ?_
      rw [hp.step_eq]
      intro hid
      apply hids.1
      rw [hid]
      exact List.mem_map_of_mem (List.mem_of_getElem? hearlier)

/-- A schedule that a run over a valid chain leaves behind tells no step twice, and there are cursors between the visits
of the run that made it. -/
theorem Run.exists_visits {c : Chain} (hvalid : c.IsValid) {sch : Schedule}
    (h : s.Run (.proper c.quantity) (some c.trailingOffset) c.steps.reverse c.completion sch.placements sch.start) :
    (sch.placements.map (·.step)).Nodup ∧
      ∃ cursors : Nat → Instant, cursors 0 = c.completion ∧ cursors c.steps.length = sch.start ∧
        ∀ j step, c.steps.reverse[j]? = some step →
          s.Visit (.proper c.quantity) sch.placements (if j = 0 then some c.trailingOffset else none) step
            (cursors j) (cursors (j + 1)) := by
  have hids : (c.steps.reverse.map (·.id)).Nodup := by
    rw [List.map_reverse, List.nodup_reverse]
    exact hvalid.ids_nodup
  obtain ⟨cursors, hbegin, hend, hvisits⟩ := h.exists_cursors hids
  rw [List.length_reverse] at hend
  exact ⟨h.ids_sublist.nodup hids, cursors, hbegin, hend, hvisits⟩

/-- Where a step of the given length starts, whatever calendar it is on in the end. -/
def StartsAt (s : Scheduler) (ref : Option Text) (finish : Instant) (d : Duration) (start : Instant) : Prop :=
  s.calendars ref finish d = .ok start ∨
    IsUnavailable (s.calendars ref finish d) ∧ s.StartsOnFallback finish d start

theorem Places.startsAt {step : Step} {d : Duration} {p : Placement} (h : s.Places step cursor d p) :
    s.StartsAt step.calendar cursor d p.start := by
  cases h with
  | own hown => exact .inl hown
  | fallback hown hfallback => exact .inr ⟨hown, hfallback⟩

end Scheduler

/-- A schedule is the backward chain that its request asks for. The cursor starts at the completion and visits the steps
from last to first: one that is not active has no entry and leaves the cursor alone, any other one has as its entry the
instant from which its working time leads to the cursor, and the cursor goes on from there. The trailing offset belongs
to the last step of the chain and is dropped with it. -/
theorem schedule_isBackwardChain {s : Scheduler} {r : ScheduleRequest} {sch : Schedule}
    (h : (s.schedule r).result = .ok sch) :
    ∃ c : Chain, r = c.request ∧ c.IsValid ∧ sch.completion = c.completion ∧
      (sch.starts.map (·.1)).Sublist (c.steps.reverse.map (·.id)) ∧ (sch.starts.map (·.1)).Nodup ∧
      ∃ cursors : Nat → Instant, cursors 0 = c.completion ∧ cursors c.steps.length = sch.start ∧
        ∀ j step, c.steps.reverse[j]? = some step →
          (step.isActive (cursors j) = .ok false ∧ sch.start? step.id = none ∧ cursors (j + 1) = cursors j) ∨
          (step.isActive (cursors j) = .ok true ∧ sch.start? step.id = some (cursors (j + 1)) ∧
            ∃ estimate d : Duration, step.estimate (.proper c.quantity) = .ok (.proper estimate) ∧
              0 ≤ estimate.micros ∧
              d.micros = estimate.micros + (if j = 0 then c.trailingOffset.micros else 0) ∧
              s.StartsAt step.calendar (cursors j) d (cursors (j + 1))) := by
  obtain ⟨c, rfl, hvalid, hcompletion, hrun⟩ := Scheduler.result_schedule_eq_ok_iff.mp h
  have hsublist := hrun.ids_sublist
  obtain ⟨hnodup, cursors, hbegin, hend, hvisits⟩ := hrun.exists_visits hvalid
  refine ⟨c, rfl, hvalid, hcompletion, ?_, ?_, cursors, hbegin, hend, ?_⟩
  · rwa [sch.map_fst_starts]
  · rwa [sch.map_fst_starts]
  · intro j step hstep
    have hvisit := hvisits j step hstep
    generalize cursors (j + 1) = next at hvisit ⊢
    cases hvisit with
    | skipped hactive hnone => exact .inl ⟨hactive, Schedule.start?_eq_none hnone, rfl⟩
    | @placed d p hactive hd hp hmem =>
      obtain ⟨estimate, hestimate, hnonneg, hmicros⟩ := Step.workingTime_eq_ok_iff.mp hd
      have hstart := Schedule.start?_eq_some_of_mem hnodup hmem
      rw [hp.step_eq] at hstart
      refine .inr ⟨hactive, hstart, estimate, d, hestimate, hnonneg, ?_, hp.startsAt⟩
      rw [hmicros]
      by_cases hlast : j = 0
      · simp [hlast]
      · simp [hlast]

/-- Cutting around the clock and bending on no calendar at all; the packing at the end does not take place. -/
def Chain.cutBendPack : Chain where
  steps :=
    [ { id := some "cut", estimate := fun _ => .ok (.proper (.minutes 300 (by decide)))
        calendar := some continuousId, isActive := fun _ => .ok true },
      { id := some "bend", estimate := fun _ => .ok (.proper (.minutes 60 (by decide)))
        calendar := none, isActive := fun _ => .ok true },
      { id := some "pack", estimate := fun _ => .ok (.proper (.minutes 45 (by decide)))
        calendar := none, isActive := fun _ => .ok false } ]
  completion := .onTuesday 10
  quantity := .int 5
  trailingOffset := .minutes 35 (by decide)

theorem Chain.cutBendPack_isValid : cutBendPack.IsValid := ⟨by decide, by decide, by decide⟩

/-- The offset is dropped with the packing, and the other steps follow on each other without a break. -/
def Schedule.cutBendPack : Schedule where
  completion := .onTuesday 10
  start := .onTuesday 4
  placements :=
    [ { step := some "bend", start := .onTuesday 9, onFallback := true },
      { step := some "cut", start := .onTuesday 4, onFallback := false } ]

/-- Every name stands for the time without breaks, and the fallback is never open. -/
def Scheduler.continuousByName : Scheduler where
  calendars
    | some _ => continuousTime.subtract
    | none => fun _ _ => .error (.calendarUnavailable none .unassigned)
  fallback := fun _ _ => .error (.calendarUnavailable none .noShifts)

theorem schedule_isBackwardChain_cutBendPack :
    (Scheduler.continuousByName.schedule Chain.cutBendPack.request).result = .ok .cutBendPack ∧
      ∃ c : Chain, Chain.cutBendPack.request = c.request ∧
        ∃ cursors : Nat → Instant, cursors 0 = c.completion ∧
          cursors c.steps.length = .onTuesday 4 := by
  have hbend : (Instant.onTuesday 10).minus (.minutes 60 (by decide)) = .ok (.onTuesday 9) :=
    Instant.ofMicros_eq_ok_iff.mpr ⟨by decide, rfl⟩
  have hcut : (Instant.onTuesday 9).minus (.minutes 300 (by decide)) = .ok (.onTuesday 4) :=
    Instant.ofMicros_eq_ok_iff.mpr ⟨by decide, rfl⟩
  have hresult : (Scheduler.continuousByName.schedule Chain.cutBendPack.request).result = .ok .cutBendPack := by
    refine Scheduler.result_schedule_eq_ok_iff.mpr ⟨Chain.cutBendPack, rfl, Chain.cutBendPack_isValid, rfl, ?_⟩
    refine .skip rfl (.place rfl rfl (.fallback ⟨_, _, rfl⟩ (.inr ⟨⟨_, _, rfl⟩, hbend⟩)) ?_)
    exact .place rfl rfl (.own hcut) (.nil _ _)
  obtain ⟨c, hrequest, _, _, _, _, cursors, hbegin, hend, _⟩ := schedule_isBackwardChain hresult
  exact ⟨hresult, c, hrequest, cursors, hbegin, hend⟩

end SupplyPlan
