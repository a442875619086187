import Mathlib.Data.List.Perm.Subperm
import SupplyPlan.Proofs.Schedule.Chain

namespace SupplyPlan

theorem Instant.same_iff_pointKey_eq {t u : Instant} :
    t.same u = true ↔ Schedule.pointKey t = Schedule.pointKey u := by
  simp [same, Schedule.pointKey]

namespace Schedule

variable {a b : Schedule}

theorem hashKey_starts (a : Schedule) :
    a.hashKey.starts = a.placements.map fun p => (p.step, pointKey p.start) := by
  simp [hashKey, starts]

theorem map_fst_hashKey_starts (a : Schedule) : a.hashKey.starts.map (·.1) = a.placements.map (·.step) := by
  simp [hashKey_starts]

theorem exists_mem_of_start? {step : Option Text} {t : Instant} (h : b.start? step = some t) :
    ∃ p ∈ b.placements, p.step = step ∧ p.start = t := by
  obtain ⟨p, hfound, hstart⟩ := Option.map_eq_some_iff.mp h
  exact ⟨p, List.mem_of_find?_eq_some hfound, by simpa using List.find?_some hfound, hstart⟩

/-- Equality of schedules, in terms of their keys. The order of the starts has no part in it. -/
structure KeysAgree (a b : Schedule) : Prop where
  completion_eq : a.hashKey.completion = b.hashKey.completion
  start_eq : a.hashKey.start = b.hashKey.start
  fallbacks_eq : a.hashKey.fallbacks = b.hashKey.fallbacks
  length_eq : a.hashKey.starts.length = b.hashKey.starts.length
  starts_subset : a.hashKey.starts ⊆ b.hashKey.starts

theorem keysAgree_of_same (h : a.same b = true) : KeysAgree a b := by
  simp only [same, Bool.and_eq_true, decide_eq_true_eq, List.all_eq_true, Option.any_eq_true] at h
  obtain ⟨⟨⟨⟨hcompletion, hstart⟩, hlength⟩, hstarts⟩, hfallbacks⟩ := h
  refine ⟨Instant.same_iff_pointKey_eq.mp hcompletion, Instant.same_iff_pointKey_eq.mp hstart, hfallbacks, ?_, ?_⟩
  · rw [hashKey_starts, hashKey_starts, List.length_map, List.length_map, hlength]
  · intro key hkey
    rw [hashKey_starts, List.mem_map] at hkey ⊢
    obtain ⟨p, hp, rfl⟩ := hkey
    obtain ⟨t, ht, hsame⟩ := hstarts p hp
    obtain ⟨q, hq, hstep, rfl⟩ := exists_mem_of_start? ht
    exact ⟨q, hq, by rw [hstep, Instant.same_iff_pointKey_eq.mp hsame]⟩

namespace KeysAgree

theorem starts_perm (h : KeysAgree a b) (hnodup : (a.placements.map (·.step)).Nodup) :
    a.hashKey.starts.Perm b.hashKey.starts := by
  rw [← map_fst_hashKey_starts] at hnodup
  exact (List.subperm_of_subset (.of_map _ hnodup) h.starts_subset).perm_of_length_le h.length_eq.ge

theorem steps_perm (h : KeysAgree a b) (hnodup : (a.placements.map (·.step)).Nodup) :
    (a.placements.map (·.step)).Perm (b.placements.map (·.step)) := by
  rw [← map_fst_hashKey_starts, ← map_fst_hashKey_starts]
  exact (h.starts_perm hnodup).map _

/-- The steps in their order decide about the starts in their order, because no step has two starts. -/
theorem hashKey_eq (h : KeysAgree a b) (hnodup : (b.placements.map (·.step)).Nodup)
    (hsteps : a.placements.map (·.step) = b.placements.map (·.step)) : a.hashKey = b.hashKey := by
  have hstarts : a.hashKey.starts = b.hashKey.starts := by
    rw [← map_fst_hashKey_starts] at hnodup
    rw [← map_fst_hashKey_starts, ← map_fst_hashKey_starts] at hsteps
    refine List.ext_getElem h.length_eq fun i hi hi' => ?_
    have hmem := h.starts_subset (List.getElem_mem hi)
    have hmem' := List.getElem_mem hi'
    refine List.inj_on_of_nodup_map hnodup hmem hmem' ?_
    have hlist := congrArg (fun steps => steps[i]?) hsteps
    simpa [hi, hi'] using hlist
  simp only [hashKey, HashKey.mk.injEq]
  exact ⟨h.completion_eq, h.start_eq, hstarts, h.fallbacks_eq⟩

end KeysAgree

end Schedule

/-- Steps that are named in an order once and for all are placed in the reverse of that order, by whichever run. -/
theorem Scheduler.Run.steps_eq {s s' : Scheduler} {quantity quantity' : Amount} {addition addition' : Option Duration}
    {steps steps' : List Step} {cursor cursor' stop stop' : Instant} {ps ps' : List Placement}
    (h : s.Run quantity addition steps.reverse cursor ps stop)
    (h' : s'.Run quantity' addition' steps'.reverse cursor' ps' stop')
    (hperm : (ps.map (·.step)).Perm (ps'.map (·.step))) {order : List (Option Text)} (hnodup : order.Nodup)
    (hsteps : (steps.map (·.id)).Sublist order) (hsteps' : (steps'.map (·.id)).Sublist order) :
    ps.map (·.step) = ps'.map (·.step) := by
  have hsublist := h.ids_sublist
  have hsublist' := h'.ids_sublist
  rw [List.map_reverse] at hsublist hsublist'
  have hfirst := hsublist.trans hsteps.reverse
  have hsecond := hsublist'.trans hsteps'.reverse
  exact ((List.nodup_reverse.mpr hnodup).perm_iff_eq_of_sublist hfirst hsecond).mp hperm

/-- Two steps that take no time, in the order given. -/
def Chain.instantaneous (completion : Instant) (first second : Text) : Chain where
  steps := [first, second].map fun name =>
    { id := some name, estimate := fun _ => .ok (.proper .zero), calendar := some continuousId
      isActive := fun _ => .ok true }
  completion := completion
  quantity := .int 1
  trailingOffset := .zero

/-- Both of them start when they are complete, and the second one is placed first. -/
def Schedule.instantaneous (completion : Instant) (first second : Text) : Schedule where
  completion := completion
  start := completion
  placements :=
    [ { step := some second, start := completion, onFallback := false },
      { step := some first, start := completion, onFallback := false } ]

theorem schedule_instantaneous (completion : Instant) {first second : Text} (hne : first ≠ second) :
    (Scheduler.continuousByName.schedule (Chain.instantaneous completion first second).request).result =
      .ok (.instantaneous completion first second) := by
  have hvalid : (Chain.instantaneous completion first second).IsValid :=
    ⟨rfl, Int.le_refl 0, by simp [Chain.instantaneous, hne]⟩
  have hzero : completion.minus .zero = .ok completion :=
    Instant.ofMicros_eq_ok_iff.mpr ⟨(Int.sub_zero _).symm, rfl⟩
  refine Scheduler.result_schedule_eq_ok_iff.mpr ⟨_, rfl, hvalid, rfl, ?_⟩
  exact .place rfl rfl (.own hzero) (.place rfl rfl (.own hzero) (.nil _ _))

/-- Steps without work between them may be named in either order. Their schedules are equal, but not their keys. -/
theorem not_hashKey_eq_of_same : ¬ ∀ (s : Scheduler) (r r' : ScheduleRequest) (a b : Schedule),
    (s.schedule r).result = .ok a → (s.schedule r').result = .ok b → a.same b = true → a.hashKey = b.hashKey := by
  intro hall
  have hfirst := schedule_instantaneous (.onTuesday 19) (show ("sign" : Text) ≠ "seal" by decide)
  have hsecond := schedule_instantaneous (.onTuesday 19) (show ("seal" : Text) ≠ "sign" by decide)
  have hkeys := hall _ _ _ _ _ hfirst hsecond rfl
  exact absurd hkeys (by decide)

/-- Schedules that are equal, of whichever requests on whichever calendars, have keys that differ at most in the order
of the starts. The keys are equal exactly if the steps were placed in the same order. So they are if all steps can be
named in one order that both requests keep to, for instance if the requests have the same steps in the same order. -/
theorem hashKey_of_same {s s' : Scheduler} {r r' : ScheduleRequest} {a b : Schedule}
    (ha : (s.schedule r).result = .ok a) (hb : (s'.schedule r').result = .ok b) (hsame : a.same b = true) :
    ∃ c c' : Chain, r = c.request ∧ r' = c'.request ∧
      a.hashKey.completion = b.hashKey.completion ∧ a.hashKey.start = b.hashKey.start ∧
      a.hashKey.fallbacks = b.hashKey.fallbacks ∧ a.hashKey.starts.Perm b.hashKey.starts ∧
      (a.hashKey = b.hashKey ↔ a.starts.map (·.1) = b.starts.map (·.1)) ∧
      ∀ order : List (Option Text), order.Nodup → (c.steps.map (·.id)).Sublist order →
        (c'.steps.map (·.id)).Sublist order → a.hashKey = b.hashKey := by
  obtain ⟨c, hrequest, hvalid, _, hrun⟩ := Scheduler.result_schedule_eq_ok_iff.mp ha
  obtain ⟨c', hrequest', hvalid', _, hrun'⟩ := Scheduler.result_schedule_eq_ok_iff.mp hb
  have hnodup := (hrun.exists_visits hvalid).1
  have hnodup' := (hrun'.exists_visits hvalid').1
  have hagree := Schedule.keysAgree_of_same hsame
  refine ⟨c, c', hrequest, hrequest', hagree.completion_eq, hagree.start_eq, hagree.fallbacks_eq,
    hagree.starts_perm hnodup, ?_, ?_⟩
  · rw [Schedule.map_fst_starts, Schedule.map_fst_starts]
    constructor
    · intro hkeys
      rw [← Schedule.map_fst_hashKey_starts, ← Schedule.map_fst_hashKey_starts, hkeys]
    · exact hagree.hashKey_eq hnodup'
  · intro order horder hsteps hsteps'
    exact hagree.hashKey_eq hnodup' (hrun.steps_eq hrun' (hagree.steps_perm hnodup) horder hsteps hsteps')

/-- The time on a clock that is so many minutes ahead of universal time. -/
def Instant.ahead (t : Instant) (minutes : Int) : Instant := { t with offset := some minutes }

/-- The same two steps, complete at one and the same moment on two clocks. -/
theorem hashKey_of_same_clocks :
    ∃ (a b : Schedule) (r r' : ScheduleRequest), (Scheduler.continuousByName.schedule r).result = .ok a ∧
      (Scheduler.continuousByName.schedule r').result = .ok b ∧ a.same b = true ∧ a ≠ b ∧ a.hashKey = b.hashKey := by
  have hne : ("sign" : Text) ≠ "seal" := by decide
  have ha := schedule_instantaneous ((Instant.onTuesday 19).ahead 0) hne
  have hb := schedule_instantaneous ((Instant.onTuesday 23).ahead 240) hne
  refine ⟨_, _, _, _, ha, hb, rfl, by decide, ?_⟩
  obtain ⟨_, _, _, _, _, _, _, _, hiff, _⟩ := hashKey_of_same ha hb rfl
  exact hiff.mpr rfl

end SupplyPlan
