import SupplyPlan.Proofs.Schedule.Chain

namespace SupplyPlan

/-- The length of an estimate in microseconds, if there is one. -/
def Step.estimatedMicros (step : Step) (quantity : Amount) : Int :=
  match step.estimate quantity with
  | .ok (.proper d) => d.micros
  | _ => 0

/-- The work of those steps, given from last to first, for which a schedule has an entry: the sum of their estimates,
and the addition if the first of the given steps is among them. -/
def Schedule.work (sch : Schedule) (quantity : Amount) : Int → List Step → Int
  | _, [] => 0
  | addition, step :: earlier =>
    (if (sch.start? step.id).isSome then step.estimatedMicros quantity + addition else 0)
      + sch.work quantity 0 earlier

/-- The work of a chain that a schedule has placed: the estimates of the scheduled steps, and the trailing offset if the
last step of the chain is scheduled. -/
def Chain.workIn (c : Chain) (sch : Schedule) : Int :=
  sch.work (.proper c.quantity) c.trailingOffset.micros c.steps.reverse

theorem Step.micros_of_workingTime {step : Step} {quantity : Amount} {addition : Option Duration} {d : Duration}
    (h : step.workingTime quantity addition = .ok d) :
    d.micros = step.estimatedMicros quantity + addition.elim 0 (·.micros) := by
  obtain ⟨estimate, hestimate, _, hd⟩ := workingTime_eq_ok_iff.mp h
  rw [hd, estimatedMicros, hestimate]

/-- The offset is all that is added to estimates, and only at the last step, which is visited first. -/
theorem Chain.IsValid.addition_nonneg {c : Chain} (h : c.IsValid) (j : Nat) :
    ∀ extra ∈ (if j = 0 then some c.trailingOffset else none), 0 ≤ extra.micros := by
  intro extra hextra
  split at hextra
  · cases hextra
    exact h.offset_nonneg
  · cases hextra

namespace Scheduler

variable {s : Scheduler} {quantity : Amount} {addition : Option Duration} {steps : List Step} {sch : Schedule}
  {cursors : Nat → Instant}

/-- A visit leaves no entry and the cursor alone, or it leaves an entry and the cursor there. -/
theorem Visit.entry_cases {step : Step} {cursor next : Instant} (hnodup : (sch.placements.map (·.step)).Nodup)
    (h : s.Visit quantity sch.placements addition step cursor next) :
    (step.isActive cursor = .ok false ∧ sch.start? step.id = none ∧ next = cursor) ∨
      (step.isActive cursor = .ok true ∧ sch.start? step.id = some next ∧
        ∃ d p, step.workingTime quantity addition = .ok d ∧ s.Places step cursor d p ∧ p ∈ sch.placements ∧
          p.start = next) := by
  cases h with
  | skipped hactive hnone => exact .inl ⟨hactive, Schedule.start?_eq_none hnone, rfl⟩
  | @placed d p hactive hd hp hmem =>
    have hstart := Schedule.start?_eq_some_of_mem hnodup hmem
    rw [hp.step_eq] at hstart
    exact .inr ⟨hactive, hstart, d, p, hd, hp, hmem, rfl⟩

/-- The visits of a run to its steps, with the cursors between them. -/
def Visits (s : Scheduler) (quantity : Amount) (ps : List Placement) (addition : Option Duration) (steps : List Step)
    (cursors : Nat → Instant) : Prop :=
  ∀ j step, steps[j]? = some step →
    s.Visit quantity ps (if j = 0 then addition else none) step (cursors j) (cursors (j + 1))

theorem Visits.tail {step : Step} {ps : List Placement}
    (h : s.Visits quantity ps addition (step :: steps) cursors) :
    s.Visits quantity ps none steps fun j => cursors (j + 1) := by
  intro j other hother
  simpa using h (j + 1) other (by simpa using hother)

/-- What holds before the work is done and is kept by every placement holds at the end of the run. The induction is on
the steps: those without an entry leave the cursor alone and do no work. -/
theorem Visits.work_induction {I : Int → Instant → Prop} {done : Int}
    (hvisits : s.Visits quantity sch.placements addition steps cursors)
    (hnodup : (sch.placements.map (·.step)).Nodup) (haddition : ∀ extra ∈ addition, 0 ≤ extra.micros)
    (hbegin : I done (cursors 0))
    (hplace : ∀ j step d p done, steps[j]? = some step →
      step.workingTime quantity (if j = 0 then addition else none) = .ok d → 0 ≤ d.micros →
      s.Places step (cursors j) d p → p ∈ sch.placements → I done (cursors j) → I (done + d.micros) p.start) :
    I (done + sch.work quantity (addition.elim 0 (·.micros)) steps) (cursors steps.length) := by
  induction steps generalizing addition cursors done with
  | nil => simpa [Schedule.work] using hbegin
  | cons step earlier ih =>
    have hrest {done : Int} (hnext : I done (cursors 1)) :
        I (done + sch.work quantity 0 earlier) (cursors (earlier.length + 1)) := by
      refine ih hvisits.tail (by simp) hnext fun j other d p done hother hd => ?_
      exact hplace (j + 1) other d p done (by simpa using hother) (by simpa using hd)
    rw [Schedule.work, ← Int.add_assoc]
    refine hrest ?_
    rcases (hvisits 0 step rfl).entry_cases hnodup with ⟨_, hnone, hnext⟩ | ⟨_, hstart, d, p, hd, hp, hmem, hnext⟩
    · rw [hnone, hnext]
      simpa using hbegin
    · have hwork := Step.micros_of_workingTime hd
      simp only [if_true] at hwork
      rw [hstart, Option.isSome_some, if_pos rfl, ← hwork, ← hnext]
      exact hplace 0 step d p done rfl hd (Step.workingTime_nonneg haddition hd) hp hmem hbegin

/-- The induction for all steps of a chain: from no work before the completion to the work of the schedule. -/
theorem Visits.workIn_induction {I : Int → Instant → Prop} {c : Chain} (hvalid : c.IsValid)
    (hvisits : s.Visits (.proper c.quantity) sch.placements (some c.trailingOffset) c.steps.reverse cursors)
    (hnodup : (sch.placements.map (·.step)).Nodup) (hbegin : I 0 (cursors 0))
    (hplace : ∀ j step d p done, c.steps.reverse[j]? = some step →
      step.workingTime (.proper c.quantity) (if j = 0 then some c.trailingOffset else none) = .ok d → 0 ≤ d.micros →
      s.Places step (cursors j) d p → p ∈ sch.placements → I done (cursors j) → I (done + d.micros) p.start) :
    I (c.workIn sch) (cursors c.steps.length) := by
  have h := hvisits.work_induction hnodup (hvalid.addition_nonneg 0) hbegin hplace
  rw [Int.zero_add, List.length_reverse] at h
  exact h

end Scheduler

end SupplyPlan
