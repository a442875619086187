import SupplyPlan.Proofs.Number.Doubles
import SupplyPlan.Proofs.Planning.MissingData

namespace SupplyPlan

/-- A duration that is taken a double number of times. Only a finite one gives a duration, if that is not too long. -/
theorem Duration.scale_float_eq_ok_iff {d product : Duration} {y : Binary64} :
    d.scale (.float y) = .ok product ↔
      ∃ x, y.rat? = some x ∧ IsNearestEven product.micros (d.micros * x) := by
  cases y with
  | nan =>
    refine iff_of_false nofun ?_
    rintro ⟨_, hx, _⟩
    cases hx
  | infinite negative =>
    refine iff_of_false nofun ?_
    rintro ⟨_, hx, _⟩
    cases negative <;> cases hx
  | finite negative m q onGrid =>
    have hround := Binary64.scaleRound_isNearestEven d.micros negative m q
    simp only [scale, ofMicros_eq_ok_iff, Binary64.rat?_finite, Option.some.injEq, exists_eq_left']
    constructor
    · intro h
      exact h ▸ hround
    · intro hnear
      exact hnear.unique hround

theorem Quantity.toBinary64_eq_ok_iff {q : Quantity} {y : Binary64} :
    q.toBinary64 = .ok y ↔ q.toBinary64? = some y := by
  unfold toBinary64
  cases q.toBinary64? <;> simp

namespace RoutingTask

variable {task : RoutingTask} {setup run : Duration} {estimators : Estimators}

/-- A task with times of the usual kind whose time is not estimated in another way. -/
structure IsStandard (task : RoutingTask) (setup run : Duration) : Prop where
  method : task.method? = none
  setup : task.setupTime = .proper setup
  run : task.runTimePerUnit = .proper run

/-- A task has a time if and only if the number can be a double, and both the run time and its sum with the setup are
durations. -/
theorem IsStandard.time_eq_ok_iff (h : task.IsStandard setup run) {q : Quantity} {given : Span} :
    task.time estimators (.proper q) = .ok given ↔
      ∃ (d product : Duration) (x : ℚ), given = .proper d ∧ d.micros = setup.micros + product.micros ∧
        q.double? = some x ∧ IsNearestEven product.micros (run.micros * x) := by
  rw [time_of_none h.method, standardTime, runTime, h.setup, h.run]
  constructor
  · intro htime
    obtain ⟨taken, htaken, hsum⟩ := bind_eq_ok_iff.mp htime
    obtain ⟨y, hunits, hproduct⟩ := bind_eq_ok_iff.mp htaken
    obtain ⟨product, hscale, rfl⟩ := map_eq_ok_iff.mp hproduct
    obtain ⟨d, hadd, rfl⟩ := map_eq_ok_iff.mp hsum
    obtain ⟨x, hx, hnear⟩ := Duration.scale_float_eq_ok_iff.mp hscale
    have hdouble : q.double? = some x := Option.bind_eq_some_iff.mpr ⟨y, Quantity.toBinary64_eq_ok_iff.mp hunits, hx⟩
    exact ⟨d, product, x, rfl, Duration.ofMicros_eq_ok_iff.mp hadd, hdouble, hnear⟩
  · rintro ⟨d, product, x, rfl, htotal, hdouble, hnear⟩
    obtain ⟨y, hy, hx⟩ := Option.bind_eq_some_iff.mp hdouble
    have hunits : Amount.toBinary64 (.proper q) = .ok y := Quantity.toBinary64_eq_ok_iff.mpr hy
    have hscale : run.scale (.float y) = .ok product := Duration.scale_float_eq_ok_iff.mpr ⟨x, hx, hnear⟩
    have hadd : setup.add product = .ok d := Duration.ofMicros_eq_ok_iff.mpr htotal
    refine bind_eq_ok_iff.mpr ⟨.proper product, bind_eq_ok_iff.mpr ⟨y, hunits, ?_⟩, ?_⟩
    · exact map_eq_ok_iff.mpr ⟨product, hscale, rfl⟩
    · exact map_eq_ok_iff.mpr ⟨d, hadd, rfl⟩

theorem IsStandard.time_int (h : task.IsStandard setup run) {n : Int} (hn : |n| ≤ 2 ^ 53) {d : Duration}
    (htime : task.time estimators (.proper (.int n)) = .ok (.proper d)) : d.micros = setup.micros + run.micros * n := by
  obtain ⟨d', product, x, heq, htotal, hx, hnear⟩ := h.time_eq_ok_iff.mp htime
  obtain rfl := Given.proper.inj heq
  rw [Quantity.double?_int hn hx, ← Int.cast_mul] at hnear
  rw [htotal, hnear.unique (.intCast _)]

theorem IsStandard.time_mono (h : task.IsStandard setup run) (hrun : 0 ≤ run.micros) {p q : Quantity} (hle : p.IsUpTo q)
    {d e : Duration} (hp : task.time estimators (.proper p) = .ok (.proper d))
    (hq : task.time estimators (.proper q) = .ok (.proper e)) : d.micros ≤ e.micros := by
  obtain ⟨d', product, x, heq, htotal, hx, hnear⟩ := h.time_eq_ok_iff.mp hp
  obtain ⟨e', product', y, heq', htotal', hy, hnear'⟩ := h.time_eq_ok_iff.mp hq
  obtain rfl := Given.proper.inj heq
  obtain rfl := Given.proper.inj heq'
  have hunits : x ≤ y := Quantity.double?_mono hx hy hle
  have hrun : (0 : ℚ) ≤ run.micros := by exact_mod_cast hrun
  have hwhole := hnear.mono hnear' (mul_le_mul_of_nonneg_left hunits hrun)
  omega

end RoutingTask

/-- For a task that names no method to estimate its time, the setup is followed by the run time of one unit times the
number of units as a double, to the nearest microsecond and ties to even; the double is the nearest to the number
itself. There is a time whenever this sum and the run time alone are durations, and the number is finite and not beyond
the doubles. Whole numbers up to the first one that is skipped by the doubles give exact times, and as long as a
unit does not take negative time, neither of the two roundings lets more units take less time. -/
theorem time_isNearestEven (estimators : Estimators) {task : RoutingTask} {setup run : Duration}
    (htask : task.IsStandard setup run) :
    (∀ (q : Quantity) (given : Span), task.time estimators (.proper q) = .ok given ↔
      ∃ (d product : Duration) (r x : ℚ), given = .proper d ∧ d.micros - setup.micros = product.micros ∧
        q.rat? = some r ∧ q.double? = some x ∧ IsRounded r x ∧ IsNearestEven product.micros (run.micros * x)) ∧
    (∀ (n : Int) (d : Duration), |n| ≤ 2 ^ 53 → task.time estimators (.proper (.int n)) = .ok (.proper d) →
      d.micros - setup.micros = run.micros * n) ∧
    (0 ≤ run.micros → ∀ (p q : Quantity) (d e : Duration), p.IsUpTo q →
      task.time estimators (.proper p) = .ok (.proper d) → task.time estimators (.proper q) = .ok (.proper e) →
        d.micros ≤ e.micros) := by
  refine ⟨fun q given => ?_, fun n d hn htime => ?_, fun hrun p q d e hle hp hq => ?_⟩
  · rw [htask.time_eq_ok_iff]
    constructor
    · rintro ⟨d, product, x, hgiven, htotal, hx, hnear⟩
      obtain ⟨r, hr⟩ := Quantity.exists_rat?_of_double? hx
      exact ⟨d, product, r, x, hgiven, by omega, hr, hx, Quantity.double?_isRounded hr hx, hnear⟩
    · rintro ⟨d, product, _, x, hgiven, htotal, _, hx, _, hnear⟩
      exact ⟨d, product, x, hgiven, by omega, hx, hnear⟩
  · rw [htask.time_int hn htime, add_sub_cancel_left]
  · exact htask.time_mono hrun hle hp hq

/-- Three microseconds of setup and one for each unit. -/
def RoutingTask.blink : RoutingTask where
  id := none
  name := none
  setupTime := .proper ⟨3, by decide⟩
  runTimePerUnit := .proper ⟨1, by decide⟩
  calendar := none
  validity := .always
  estimateMethod := none
  description := none

namespace Quantity

def twoAndHalf : Quantity := .float (.finite false 5629499534213120 (-51) (by decide))

/-- The first whole number that no double stands for. -/
def firstSkipped : Quantity := .int 9007199254740993

/-- The double after it. -/
def nextDouble : Quantity := .float (.finite false 4503599627370497 1 (by decide))

end Quantity

/-- Half a microsecond is left off, as two is even. The first whole number that no double stands for is brought to the
power of two before it, and takes less time than the double after it. -/
theorem time_isNearestEven_blink :
    RoutingTask.blink.IsStandard ⟨3, by decide⟩ ⟨1, by decide⟩ ∧
      (∃ d x, RoutingTask.blink.time [] (.proper .twoAndHalf) = .ok (.proper d) ∧ d.micros = 5 ∧
        Quantity.twoAndHalf.double? = some x ∧ IsNearestEven (d.micros - 3) ((1 : Int) * x)) ∧
      (∃ d, RoutingTask.blink.time [] (.proper (.int 9007199254740992)) = .ok (.proper d) ∧
        d.micros - 3 = 1 * 9007199254740992) ∧
      ∃ d e, RoutingTask.blink.time [] (.proper .firstSkipped) = .ok (.proper d) ∧ d.micros = 9007199254740995 ∧
        RoutingTask.blink.time [] (.proper .nextDouble) = .ok (.proper e) ∧ d.micros ≤ e.micros := by
  have htask : RoutingTask.blink.IsStandard ⟨3, by decide⟩ ⟨1, by decide⟩ := ⟨rfl, rfl, rfl⟩
  have hhalf : RoutingTask.blink.time [] (.proper .twoAndHalf) = .ok (.proper ⟨5, by decide⟩) := rfl
  have hpower : RoutingTask.blink.time [] (.proper (.int 9007199254740992)) =
      .ok (.proper ⟨9007199254740995, by decide⟩) := rfl
  have hskipped : RoutingTask.blink.time [] (.proper .firstSkipped) =
      .ok (.proper ⟨9007199254740995, by decide⟩) := rfl
  have hnext : RoutingTask.blink.time [] (.proper .nextDouble) =
      .ok (.proper ⟨9007199254740997, by decide⟩) := rfl
  have hle : Quantity.IsUpTo .firstSkipped .nextDouble := rfl
  obtain ⟨hnearest, hwhole, hmono⟩ := time_isNearestEven [] htask
  refine ⟨htask, ?_, ⟨_, hpower, hwhole _ _ (by decide) hpower⟩,
    _, _, hskipped, rfl, hnext, hmono (by decide) _ _ _ _ hle hskipped hnext⟩
  obtain ⟨d, product, _, x, hgiven, htotal, _, hx, _, hnear⟩ := (hnearest _ _).mp hhalf
  obtain rfl := Given.proper.inj hgiven
  exact ⟨_, x, hhalf, rfl, hx, htotal ▸ hnear⟩

end SupplyPlan
