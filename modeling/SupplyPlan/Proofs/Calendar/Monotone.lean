import SupplyPlan.Proofs.Calendar.Elapsed

namespace SupplyPlan

namespace ShiftCalendar

variable {c rested : ShiftCalendar} {t : Int}

/-- Fewer covered moments make for less working time. -/
theorem workingTime_le_of_covers (hcovers : ∀ t, rested.Covers t → c.Covers t) (start stop : Int) :
    rested.workingTime start stop ≤ c.workingTime start stop := by
  unfold workingTime
  exact_mod_cast Nat.count_mono_left fun k _ => hcovers (start + k)

theorem workingTime_le_of_le {start stop stop' : Int} (hle : start ≤ stop) (hstop : stop ≤ stop') :
    c.workingTime start stop ≤ c.workingTime start stop' := by
  have hsplit := workingTime_add (c := c) hle hstop
  have hrest := c.workingTime_nonneg stop stop'
  omega

/-- More work that has to end earlier, in a calendar that covers less, cannot start later. If it did, the longer
calendar would have as much time from that later start on as the longer work needs, and that is too much. -/
theorem IsLatestStart.start_le_start {finish length start finish' length' start' : Int}
    (h : c.IsLatestStart finish length start) (h' : rested.IsLatestStart finish' length' start')
    (hcovers : ∀ t, rested.Covers t → c.Covers t) (hfinish : finish' ≤ finish) (hlength : length ≤ length') :
    start' ≤ start := by
  by_contra hnot
  have hlater : start < start' := not_le.mp hnot
  have hless := h.workingTime_lt hlater (h'.start_le.trans hfinish)
  have hcalendar := workingTime_le_of_covers hcovers start' finish'
  have hspan := workingTime_le_of_le (c := c) h'.start_le hfinish
  have hwork := h'.workingTime_eq
  omega

/-- The calendar after some dates have been taken out of it. -/
def withDaysOff (c : ShiftCalendar) (days : List Date) : ShiftCalendar := days.foldl addNonWorkingDay c

theorem isWorkingDay_of_addNonWorkingDay {d : Date} {day : Int} (h : (c.addNonWorkingDay d).isWorkingDay day = true) :
    c.isWorkingDay day = true := by
  simp only [isWorkingDay, addNonWorkingDay, Bool.not_eq_true', List.any_eq_false, decide_eq_true_eq] at h ⊢
  exact fun e he => h e (Date.mem_insertInto.mpr (.inr he))

theorem covers_of_addNonWorkingDay {d : Date} (h : (c.addNonWorkingDay d).Covers t) : c.Covers t := by
  obtain ⟨day, w, hw, ht⟩ := h
  obtain ⟨hworking, hshift⟩ := mem_windowsOn.mp hw
  exact ⟨day, w, mem_windowsOn.mpr ⟨isWorkingDay_of_addNonWorkingDay hworking, hshift⟩, ht⟩

/-- Dates that are taken out leave no working time where there was none. -/
theorem covers_of_withDaysOff {days : List Date} (h : (c.withDaysOff days).Covers t) : c.Covers t := by
  induction days generalizing c with
  | nil => exact h
  | cons d rest ih => exact covers_of_addNonWorkingDay (ih h)

end ShiftCalendar

namespace ShiftClock

variable {clock : ShiftClock} {cursor remaining : Int}

theorem isLatestStart_of_walk (hdense : clock.calendar.HasShiftWithin (clock.lookback - 1))
    (hremaining : 0 ≤ remaining) {start : Instant} (h : clock.walk none cursor remaining = .ok start) :
    start.offset = none ∧ clock.calendar.IsLatestStart cursor remaining start.micros := by
  rcases clock.walk_isLatestStart hdense cursor remaining hremaining with hout | ⟨t, ht, hnaive, hlatest⟩
  · rw [h] at hout
    cases hout
  · obtain rfl := Except.ok.inj (h.symm.trans ht)
    exact ⟨hnaive, hlatest⟩

/-- A calendar that carries shifts often enough for the horizon of its search is never unavailable, not even for
instants that are aware. -/
theorem not_isUnavailable_walk (hdense : clock.calendar.HasShiftWithin (clock.lookback - 1)) (finish : Instant)
    (cursor remaining : Int) : ¬ IsUnavailable (clock.walk finish.offset cursor remaining) := by
  have hlookback : clock.lookback = clock.lookback.toNat := by
    have hpos := clock.lookback_pos
    omega
  rw [hlookback] at hdense
  fun_induction walk clock finish.offset cursor remaining with
  | case1 cursor remaining _ e hsearch =>
    rintro ⟨_, _, hfault⟩
    obtain rfl := Except.error.inj hfault
    rcases ShiftCalendar.latestWindow_error hsearch with hout | ⟨hmixed, _⟩
    · cases hout
    · cases hmixed
  | case2 cursor remaining _ hsearch => exact absurd hsearch hdense.latestWindow_ne_none
  | case3 _ _ _ _ _ _ ih => exact ih
  | case4 cursor => exact (finish.ofMicros_proceeds cursor).not_isUnavailable

end ShiftClock

/-- Elapsed time goes back by as much on the clock that two instants share. -/
theorem Instant.onCommonClock_of_minus {finish start : Instant} {d : Duration} (h : finish.minus d = .ok start) :
    start.isAware = finish.isAware ∧ start.onCommonClock = finish.onCommonClock - d.micros := by
  obtain ⟨hmicros, hoffset⟩ := ofMicros_eq_ok_iff.mp h
  simp only [isAware, onCommonClock, hmicros, hoffset]
  exact ⟨trivial, by omega⟩

namespace WorkingCalendar

variable {calendar rested : WorkingCalendar}

/-- A calendar without breaks, or one that carries a shift on one of any `L - 1` consecutive dates if it is searched `L`
dates back. -/
def IsSteady : WorkingCalendar → Prop
  | continuous _ => True
  | shifts clock => clock.calendar.HasShiftWithin (clock.lookback - 1)
  | unsearchable _ | stretched _ | closed .. | rule _ => False

/-- The second calendar is the first one after some dates, or none, have been taken out of it. -/
inductive AddsDaysOff : WorkingCalendar → WorkingCalendar → Prop where
  | continuous (id : Option Text) : AddsDaysOff (.continuous id) (.continuous id)
  | shifts {clock rested : ShiftClock} (days : List Date)
      (hcalendar : rested.calendar = clock.calendar.withDaysOff days) : AddsDaysOff (.shifts clock) (.shifts rested)

theorem IsSteady.isPlain (h : calendar.IsSteady) : calendar.IsPlain := by
  cases calendar with
  | continuous | shifts => trivial
  | unsearchable | stretched | closed | rule => exact h.elim

/-- A steady calendar answers on the clock of the finish, unless the range is left or an aware instant meets shifts. -/
theorem IsSteady.subtract_proceeds (h : calendar.IsSteady) (finish : Instant) {d : Duration} (hd : 0 ≤ d.micros) :
    Proceeds finish (fun t : Instant => t.offset = finish.offset) (calendar.subtract finish d) := by
  refine (h.isPlain.subtract_isRegular finish hd).resolve_left ?_
  cases calendar with
  | continuous id =>
    rw [subtract_continuous hd]
    exact (finish.ofMicros_proceeds _).not_isUnavailable
  | shifts clock =>
    rw [subtract_shifts hd]
    exact clock.not_isUnavailable_walk h finish _ _
  | unsearchable | stretched | closed | rule => exact h.elim

/-- Work starts no later if it has to end no later, takes no less and has no more days. -/
theorem AddsDaysOff.subtract_notAfter (h : calendar.AddsDaysOff rested) (hsteady : calendar.IsSteady)
    (hsteady' : rested.IsSteady) {finish finish' start start' : Instant} {d d' : Duration}
    (hfinish : finish'.NotAfter finish) (hd : 0 ≤ d.micros) (hle : d.micros ≤ d'.micros)
    (hstart : calendar.subtract finish d = .ok start) (hstart' : rested.subtract finish' d' = .ok start') :
    start'.NotAfter start := by
  obtain ⟨hkind, hcommon⟩ := Instant.notAfter_iff.mp hfinish
  cases h with
  | continuous id =>
    rw [subtract_continuous hd] at hstart
    rw [subtract_continuous (hd.trans hle)] at hstart'
    obtain ⟨haware, hclock⟩ := Instant.onCommonClock_of_minus hstart
    obtain ⟨haware', hclock'⟩ := Instant.onCommonClock_of_minus hstart'
    exact Instant.notAfter_iff.mpr ⟨haware'.trans (hkind.trans haware.symm), by omega⟩
  | @shifts clock rested days hcalendar =>
    rw [subtract_shifts hd] at hstart
    rw [subtract_shifts (hd.trans hle)] at hstart'
    by_cases haware : finish.offset.isSome
    · -- aware instants leave no work on shifts, so that neither of them moves
      have haware' : finish'.offset.isSome := hkind.trans haware
      rw [ShiftClock.walk_of_nonpos _ (ShiftClock.remaining_nonpos_of_aware haware hstart)] at hstart
      rw [ShiftClock.walk_of_nonpos _ (ShiftClock.remaining_nonpos_of_aware haware' hstart')] at hstart'
      obtain rfl := Except.ok.inj (finish.ofMicros_self.symm.trans hstart)
      obtain rfl := Except.ok.inj (finish'.ofMicros_self.symm.trans hstart')
      exact hfinish
    · have hnaive : finish.offset = none := by simpa using haware
      have hnaive' : finish'.offset = none := by
        rw [Instant.isAware, Instant.isAware, hnaive] at hkind
        simpa using hkind
      rw [hnaive] at hstart
      rw [hnaive'] at hstart'
      obtain ⟨hoffset, hlatest⟩ := ShiftClock.isLatestStart_of_walk hsteady hd hstart
      obtain ⟨hoffset', hlatest'⟩ := ShiftClock.isLatestStart_of_walk hsteady' (hd.trans hle) hstart'
      have hmicros : finish'.micros ≤ finish.micros :=
        (Instant.notAfter_iff_of_offset_eq (hnaive'.trans hnaive.symm)).mp hfinish
      rw [hcalendar] at hlatest'
      have hstarts := hlatest.start_le_start hlatest' (fun t => ShiftCalendar.covers_of_withDaysOff) hmicros hle
      exact (Instant.notAfter_iff_of_offset_eq (hoffset'.trans hoffset.symm)).mpr hstarts

end WorkingCalendar

end SupplyPlan
