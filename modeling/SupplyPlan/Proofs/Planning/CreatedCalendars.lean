import SupplyPlan.Proofs.Planning.Integrity
import SupplyPlan.Proofs.Planning.Options

namespace SupplyPlan

open Planning

/-- A calendar is stored under its id, the last thing that can fail. -/
theorem createShiftCalendar_cases (name : Option Text) (shifts : List Shift) (given : Option Text) (days : List Date)
    (s : Session) :
    (∃ e, ((createShiftCalendar name shifts given days).perform s).1 = .error e ∧
        ((createShiftCalendar name shifts given days).perform s).2.planner = s.planner) ∨
      ∃ id calendars, shifts ≠ [] ∧
        ((createShiftCalendar name shifts given days).perform s).1 =
          .ok { id := some id, name, shifts, nonWorkingDays := Date.sorted days } ∧
        s.planner.calendars.add (.text id) { id := some id, name, shifts, nonWorkingDays := Date.sorted days } =
          .ok calendars ∧
        ((createShiftCalendar name shifts given days).perform s).2.planner = { s.planner with calendars } := by
  unfold createShiftCalendar
  cases hempty : shifts.isEmpty with
  | true => exact .inl ⟨_, rfl, rfl⟩
  | false =>
    have hshifts : shifts ≠ [] := List.isEmpty_eq_false_iff.mp hempty
    have hplanner := (returns_idOrFresh given s rfl).1
    simp only [Bool.false_eq_true, if_false, perform_bind, perform_pure, perform_ask]
    rcases hid : (idOrFresh given).perform s with ⟨e | id, s'⟩
    · rw [hid] at hplanner
      exact .inl ⟨e, rfl, hplanner⟩
    · rw [hid] at hplanner
      dsimp only at hplanner ⊢
      rw [hplanner]
      cases hadd : s.planner.calendars.add (.text id)
          { id := some id, name, shifts, nonWorkingDays := Date.sorted days } with
      | error e => exact .inl ⟨e, rfl, hplanner⟩
      | ok calendars =>
        refine .inr ⟨id, calendars, hshifts, rfl, hadd, ?_⟩
        simp only [perform_planner, perform_setPlanner, hplanner]

namespace ShiftCalendar

/-- What an operation makes of the calendar with an id: only a further non-working day changes it. -/
def editedBy (id : Text) (c : ShiftCalendar) : Operation → ShiftCalendar
  | .addNonWorkingDay name day => if name = some id then c.addNonWorkingDay day else c
  | _ => c

variable {id : Text} {c : ShiftCalendar}

theorem editedBy_of_ne {op : Operation} (h : ∀ day, op ≠ .addNonWorkingDay (some id) day) : c.editedBy id op = c := by
  unfold editedBy
  split
  · next name day =>
    refine if_neg fun hname => h day ?_
    rw [hname]
  · rfl

/-- Editing is all about non-working days. -/
theorem editedBy_eq (op : Operation) :
    c.editedBy id op = { c with nonWorkingDays := (c.editedBy id op).nonWorkingDays } := by
  unfold editedBy
  split
  · split <;> rfl
  · rfl

theorem mem_nonWorkingDays_editedBy {op : Operation} {day : Date} :
    day ∈ (c.editedBy id op).nonWorkingDays ↔ day ∈ c.nonWorkingDays ∨ op = .addNonWorkingDay (some id) day := by
  by_cases h : ∃ added, op = .addNonWorkingDay (some id) added
  · obtain ⟨added, rfl⟩ := h
    rw [editedBy, if_pos rfl, addNonWorkingDay, Date.mem_insertInto, or_comm, Operation.addNonWorkingDay.injEq]
    simp [eq_comm]
  · rw [editedBy_of_ne fun added hadded => h ⟨added, hadded⟩, or_iff_left fun hadded => h ⟨day, hadded⟩]

theorem foldl_editedBy_eq (id : Text) (c : ShiftCalendar) (ops : List Operation) :
    ops.foldl (editedBy id) c = { c with nonWorkingDays := (ops.foldl (editedBy id) c).nonWorkingDays } := by
  induction ops generalizing c with
  | nil => rfl
  | cons op rest ih => rw [List.foldl_cons, ih, editedBy_eq]

theorem mem_nonWorkingDays_foldl_editedBy (c : ShiftCalendar) (ops : List Operation) {day : Date} :
    day ∈ (ops.foldl (editedBy id) c).nonWorkingDays ↔
      day ∈ c.nonWorkingDays ∨ .addNonWorkingDay (some id) day ∈ ops := by
  induction ops generalizing c with
  | nil => simp
  | cons op rest ih => rw [List.foldl_cons, ih, mem_nonWorkingDays_editedBy, List.mem_cons, or_assoc, eq_comm]

end ShiftCalendar

/-- The operation binds a calendar to the reference. -/
def Operation.Binds (op : Operation) (ref : Text) : Prop := ∃ calendar, op = .bindCalendar (some ref) calendar

namespace Planner

variable {p q : Planner} {id : Text}

/-- The calendars are those of the options: nothing is bound that is not always bound. -/
structure IsSetUp (p : Planner) : Prop where
  bound : p.bound = standardBindings
  lookback : p.lookback = p.options.lookback

/-- The same as far as one reference is concerned; other ones may be bound. -/
structure IsSetUpFor (p : Planner) (id : Text) : Prop where
  records : p.HasSoundMasterData
  bound? : p.registry.bound? id = if id = continuousId then some continuousTime else none
  lookback : p.lookback = p.options.lookback

theorem bound?_of_standardBindings (h : p.bound = standardBindings) :
    p.registry.bound? id = if id = continuousId then some continuousTime else none := by
  have hbound : p.registry.bound = standardBindings := h
  rw [CalendarRegistry.bound?, hbound]
  by_cases hcontinuous : id = continuousId
  · rw [if_pos hcontinuous, hcontinuous]
    rfl
  · simp [standardBindings, Ne.symm hcontinuous, hcontinuous]

theorem IsSetUp.isSetUpFor (h : p.IsSetUp) (hrecords : p.HasSoundMasterData) (id : Text) : p.IsSetUpFor id where
  records := hrecords
  bound? := bound?_of_standardBindings h.bound
  lookback := h.lookback

/-- A new binding is found under its own reference only. -/
theorem bound?_bindCalendar {s : Session} {ref : Option Text} (calendar : WorkingCalendar) (hne : ref ≠ some id) :
    ((bindCalendar ref calendar).perform s).2.planner.registry.bound? id = s.planner.registry.bound? id := by
  cases ref with
  | none => rfl
  | some ref =>
    have hne : ref ≠ id := fun heq => hne (congrArg some heq)
    change (List.find? _ ((ref, calendar) :: s.planner.bound)).map _ = _
    rw [List.find?_cons_of_neg (by simpa using hne)]
    rfl

/-- Only a binding of the reference itself makes it lead elsewhere. -/
theorem IsSetUpFor.after {s : Session} (h : s.planner.IsSetUpFor id) {op : Operation} (hop : ¬ op.Binds id) :
    (s.after op).planner.IsSetUpFor id := by
  have hrecords := Session.keeps_after HasSoundMasterData.of_change h.records op
  by_cases hpart : op.part = some .setup
  · cases op with
    | updateOptions r =>
      have hafter : (s.after (.updateOptions r)).planner = ((updateOptions r).perform s).2.planner :=
        congrArg Session.planner (perform_bind_pure _ _ s)
      rcases updateOptions_cases r s with ⟨e, -, hsame⟩ | ⟨options, -, -, -, hnew⟩
      · rwa [hafter, hsame]
      · refine IsSetUp.isSetUpFor ?_ hrecords id
        rw [hafter, hnew]
        exact ⟨rfl, rfl⟩
    | registerEstimator name estimator =>
      cases name with
      | none => exact h
      | some name => exact ⟨hrecords, h.bound?, h.lookback⟩
    | bindCalendar ref calendar =>
      have hne : ref ≠ some id := fun heq => hop ⟨calendar, by rw [heq]⟩
      exact ⟨hrecords, (bound?_bindCalendar calendar hne).trans h.bound?, h.lookback⟩
    | _ => cases hpart
  · obtain ⟨hoptions, hbound, hlookback, -⟩ := (s.after_agreesOutside op).setup hpart
    refine ⟨hrecords, ?_, ?_⟩
    · have hsame : (s.after op).planner.registry.bound? id = s.planner.registry.bound? id := by
        rw [CalendarRegistry.bound?, registry, hbound]
        rfl
      rw [hsame, h.bound?]
    · rw [hlookback, hoptions, h.lookback]

end Planner

namespace Session

variable {s : Session} {id : Text} {calendar : ShiftCalendar}

theorem after_createShiftCalendar (s : Session) (name : Option Text) (shifts : List Shift) (given : Option Text)
    (days : List Date) : s.after (.createShiftCalendar name shifts given days) =
      ((createShiftCalendar name shifts given days).perform s).2 :=
  perform_bind_pure _ _ s

/-- A calendar that is stored stays stored, and it is edited by further non-working days only. -/
theorem get_calendar_after (hkeyed : s.planner.calendars.IsKeyed (·.id))
    (hget : s.planner.calendars.get (.text id) = .ok calendar) (op : Operation) :
    (s.after op).planner.calendars.get (.text id) = .ok (calendar.editedBy id op) := by
  by_cases hpart : op.part = some .calendars
  · cases op with
    | createShiftCalendar name shifts given days =>
      rw [after_createShiftCalendar]
      rcases createShiftCalendar_cases name shifts given days s with ⟨e, -, hsame⟩ | ⟨_, _, -, -, hadd, hnew⟩
      · rw [hsame]
        exact hget
      · rw [hnew]
        exact Store.get_of_add hadd hget
    | addNonWorkingDay name day =>
      have hafter : (s.after (.addNonWorkingDay name day)).planner =
          ((addNonWorkingDay name day).perform s).2.planner :=
        congrArg Session.planner (perform_bind_pure _ _ s)
      rw [hafter, perform_addNonWorkingDay s day fun held hheld => hkeyed.of_get hheld]
      simp only [perform_bind, perform_ask, perform_planner, perform_setPlanner, perform_pure]
      by_cases hname : name = some id
      · subst hname
        have hheld : s.planner.calendars.get (.named (some id)) = .ok calendar := hget
        obtain ⟨_, hsome, hid⟩ := hkeyed.of_get hheld
        rw [← hsome] at hid
        obtain ⟨calendars, hupsert⟩ :=
          Store.exists_upsert_of_answers (Store.answers_of_get hget) (calendar.addNonWorkingDay day)
        have hnamed : RecordId.named (some id) = .text id := rfl
        simp only [hnamed, hget, hid, hupsert, ShiftCalendar.editedBy, if_true]
        exact Store.get_upserted hupsert
      · rw [ShiftCalendar.editedBy, if_neg hname]
        cases hother : s.planner.calendars.get (.named name) with
        | error e => exact hget
        | ok held =>
          obtain ⟨other, rfl, hid⟩ := hkeyed.of_get hother
          have hne : id ≠ other := fun heq => hname (congrArg some heq.symm)
          have hnamed : RecordId.named held.id = .text other := congrArg RecordId.named hid
          simp only [hnamed]
          cases hupsert : s.planner.calendars.upsert (.text other) (held.addNonWorkingDay day) with
          | error e => exact hget
          | ok calendars => exact (Store.get_upsert_of_ne hupsert hne).trans hget
    | _ => cases hpart
  · rw [(s.after_agreesOutside op).calendars hpart, ShiftCalendar.editedBy_of_ne]
    · exact hget
    · rintro day rfl
      exact hpart rfl

theorem get_calendar_foldl (hrecords : s.planner.HasSoundMasterData)
    (hget : s.planner.calendars.get (.text id) = .ok calendar) (ops : List Operation) :
    (ops.foldl after s).planner.calendars.get (.text id) = .ok (ops.foldl (ShiftCalendar.editedBy id) calendar) := by
  induction ops generalizing s calendar with
  | nil => exact hget
  | cons op rest ih =>
    exact ih (keeps_after Planner.HasSoundMasterData.of_change hrecords op)
      (get_calendar_after hrecords.calendars_keyed hget op)

theorem isSetUpFor_foldl (h : s.planner.IsSetUpFor id) {ops : List Operation} (hops : ∀ op ∈ ops, ¬ op.Binds id) :
    (ops.foldl after s).planner.IsSetUpFor id := by
  induction ops generalizing s with
  | nil => exact h
  | cons op rest ih =>
    exact ih (h.after (hops op List.mem_cons_self)) fun op hop => hops op (List.mem_cons_of_mem _ hop)

end Session

/-- Work that refers to `id` is placed by the calendar, which is searched as far back as the options say. -/
def Planner.PlacesBy (p : Planner) (id : Text) (calendar : ShiftCalendar) : Prop :=
  ∀ finish d, p.registry.subtract (some id) finish d =
    WorkingCalendar.ofShifts calendar p.options.lookback >>= (·.subtract finish d)

namespace Planner

variable {p : Planner} {id : Text} {calendar : ShiftCalendar}

theorem IsSetUpFor.placesBy (h : p.IsSetUpFor id) (hne : id ≠ continuousId)
    (hget : p.calendars.get (.text id) = .ok calendar) : p.PlacesBy id calendar := by
  have hbound : p.registry.bound? id = none := h.bound?.trans (if_neg hne)
  have hstored : p.registry.stored.get (.text id) = .ok calendar := hget
  intro finish d
  have hlookback : p.registry.lookback = p.options.lookback := h.lookback
  simp only [CalendarRegistry.subtract, CalendarRegistry.resolve, hbound, hstored, hlookback]

/-- The name of the time without breaks never leads to a stored calendar. -/
theorem IsSetUpFor.subtract_continuousId (h : p.IsSetUpFor continuousId) (finish : Instant) (d : Duration) :
    p.registry.subtract (some continuousId) finish d = continuousTime.subtract finish d :=
  CalendarRegistry.subtract_of_resolve (CalendarRegistry.resolve_of_bound (h.bound?.trans (if_pos rfl))) finish d

/-- Where the options have a whole number of dates, the clock is one that is searched at least one date back. -/
theorem PlacesBy.exists_clock (h : p.PlacesBy id calendar) (hshifts : calendar.shifts ≠ []) {n : Int}
    (hlookback : p.options.lookback = .proper (.int n)) :
    ∃ clock : ShiftClock, clock.calendar = calendar ∧ clock.lookback = max n 1 ∧
      ∀ finish d, p.registry.subtract (some id) finish d = (WorkingCalendar.shifts clock).subtract finish d := by
  refine ⟨⟨calendar, max n 1, .proper (.int (max n 1)), hshifts, le_max_right n 1⟩, rfl, rfl, fun finish d => ?_⟩
  rw [h finish d, hlookback, WorkingCalendar.ofShifts_int hshifts]
  rfl

end Planner

namespace Session

variable {s : Session} {name given : Option Text} {shifts : List Shift} {days : List Date} {created : ShiftCalendar}

/-- What a creation returns is what it was given, and it is stored under the id that it has got. -/
theorem created_cases (h : s.answer (.createShiftCalendar name shifts given days) = .ok (.calendar created)) :
    ∃ id, shifts ≠ [] ∧ created = { id := some id, name, shifts, nonWorkingDays := Date.sorted days } ∧
      (s.after (.createShiftCalendar name shifts given days)).planner.calendars.get (.text id) = .ok created := by
  obtain ⟨calendar, hresult, hcalendar⟩ := map_eq_ok_iff.mp ((result_bind_pure _ _ s).symm.trans h)
  obtain rfl := Answer.calendar.inj hcalendar
  rcases createShiftCalendar_cases name shifts given days s with
    ⟨e, herror, -⟩ | ⟨id, calendars, hshifts, hok, hadd, hnew⟩
  · rw [herror] at hresult
    cases hresult
  · obtain rfl := Except.ok.inj (hok.symm.trans hresult)
    refine ⟨id, hshifts, rfl, ?_⟩
    rw [after_createShiftCalendar, hnew]
    exact Store.get_added hadd

/-- A created calendar is the one that work is placed by wherever its id is referred to, whatever operations came before
it and come after it: with all non-working days it was created with and got since, and with the look-back of the options
of the time. Only the time without breaks is not replaced by a calendar of its name. -/
theorem createdCalendar_isUsed {ids : IdStream} {p : Planner} (hsetup : p.IsSetUp) (hrecords : p.HasSoundMasterData)
    {earlier later : List Operation} {t : Session} {id : Text} (hs : s = earlier.foldl after (fresh ids p))
    (hcreated : s.answer (.createShiftCalendar name shifts given days) = .ok (.calendar created))
    (hid : created.id = some id) (ht : t = later.foldl after (s.after (.createShiftCalendar name shifts given days)))
    (hunbound : ∀ op ∈ earlier ++ later, ¬ op.Binds id) :
    ∃ current : ShiftCalendar, t.planner.calendars.get (.text id) = .ok current ∧
      current = { id := some id, name, shifts, nonWorkingDays := current.nonWorkingDays } ∧
      (∀ day, day ∈ current.nonWorkingDays ↔ day ∈ days ∨ .addNonWorkingDay (some id) day ∈ later) ∧
      (id ≠ continuousId → t.planner.PlacesBy id current ∧
        ∀ n, t.planner.options.lookback = .proper (.int n) →
          ∃ clock : ShiftClock, clock.calendar = current ∧ clock.lookback = max n 1 ∧
            ∀ finish d, t.planner.registry.subtract (some id) finish d =
              (WorkingCalendar.shifts clock).subtract finish d) ∧
      (id = continuousId → ∀ finish d,
        t.planner.registry.subtract (some id) finish d = continuousTime.subtract finish d) := by
  have hbefore : s.planner.IsSetUpFor id := by
    rw [hs]
    exact isSetUpFor_foldl (hsetup.isSetUpFor hrecords id) fun op hop => hunbound op (List.mem_append_left _ hop)
  have hcreation : (s.after (.createShiftCalendar name shifts given days)).planner.IsSetUpFor id :=
    hbefore.after fun ⟨_, hbinds⟩ => nomatch hbinds
  have hafter : t.planner.IsSetUpFor id := by
    rw [ht]
    exact isSetUpFor_foldl hcreation fun op hop => hunbound op (List.mem_append_right _ hop)
  obtain ⟨id', hshifts, rfl, hget⟩ := created_cases hcreated
  obtain rfl := Option.some.inj hid
  have hcurrent := ht ▸ get_calendar_foldl hcreation.records hget later
  have hdays := ShiftCalendar.foldl_editedBy_eq id' ⟨some id', name, shifts, Date.sorted days⟩ later
  refine ⟨_, hcurrent, hdays, fun day => ?_, fun hne => ⟨hafter.placesBy hne hcurrent, fun n hlookback => ?_⟩, ?_⟩
  · rw [ShiftCalendar.mem_nonWorkingDays_foldl_editedBy, Date.mem_sorted]
  · refine (hafter.placesBy hne hcurrent).exists_clock ?_ hlookback
    rwa [hdays]
  · rintro rfl
    exact hafter.subtract_continuousId

/-- Early shifts, with a holiday on the Tuesday, in a planner whose options are replaced afterwards. -/
theorem createdCalendar_isUsed_holiday :
    ∃ s t created current,
      s = [Operation.createShiftCalendar none [.night] (some "NIGHT") []].foldl after
        (fresh .numbered (.inMemory .standard)) ∧
      s.answer (.createShiftCalendar none [.early] (some "SITE") []) = .ok (.calendar created) ∧
      t = [Operation.addNonWorkingDay (some "SITE") ⟨738599, by decide⟩,
        .updateOptions (.fallingBackOn "SITE")].foldl after
          (s.after (.createShiftCalendar none [.early] (some "SITE") [])) ∧
      t.planner.options.fallbackCalendar = some "SITE" ∧ ⟨738599, by decide⟩ ∈ current.nonWorkingDays ∧
      t.planner.PlacesBy "SITE" current := by
  obtain ⟨s, hs⟩ : ∃ s, s = [Operation.createShiftCalendar none [.night] (some "NIGHT") []].foldl after
    (fresh .numbered (.inMemory .standard)) := exists_eq
  obtain ⟨t, ht⟩ : ∃ t, t = [Operation.addNonWorkingDay (some "SITE") ⟨738599, by decide⟩,
    .updateOptions (.fallingBackOn "SITE")].foldl after
      (s.after (.createShiftCalendar none [.early] (some "SITE") [])) := exists_eq
  have hrecords : (Planner.inMemory .standard).HasNoRecords := ⟨rfl, rfl, rfl, rfl, rfl, rfl⟩
  have hcreated : s.answer (.createShiftCalendar none [.early] (some "SITE") []) =
      .ok (.calendar ⟨some "SITE", none, [.early], []⟩) := by
    rw [hs]
    rfl
  have hfallback : t.planner.options.fallbackCalendar = some "SITE" := by
    rw [ht, hs]
    decide +kernel
  obtain ⟨current, -, -, hdays, hplaces, -⟩ := createdCalendar_isUsed ⟨rfl, rfl⟩
    hrecords.hasIntegrity.toHasSoundMasterData hs hcreated rfl ht (by simp [Operation.Binds])
  exact ⟨s, t, _, current, hs, hcreated, ht, hfallback, (hdays _).mpr (.inr List.mem_cons_self),
    (hplaces (by decide)).1⟩

/-- A calendar with the name of the time without breaks is stored, but it is not the one that is used. -/
theorem not_createdCalendar_isUsed : ¬ ∀ (ids : IdStream) (p : Planner) (earlier later : List Operation)
    (s t : Session) (name given : Option Text) (shifts : List Shift) (days : List Date)
    (created current : ShiftCalendar) (id : Text),
      p.IsSetUp → p.HasSoundMasterData → s = earlier.foldl after (fresh ids p) →
      s.answer (.createShiftCalendar name shifts given days) = .ok (.calendar created) → created.id = some id →
      t = later.foldl after (s.after (.createShiftCalendar name shifts given days)) →
      (∀ op ∈ earlier ++ later, ¬ op.Binds id) → t.planner.calendars.get (.text id) = .ok current →
      t.planner.PlacesBy id current := by
  intro hall
  obtain ⟨s, hs⟩ : ∃ s, s = fresh .numbered (.inMemory .standard) := exists_eq
  obtain ⟨t, ht⟩ : ∃ t, t = s.after (.createShiftCalendar none [.early] (some continuousId) []) := exists_eq
  have hrecords : (Planner.inMemory .standard).HasNoRecords := ⟨rfl, rfl, rfl, rfl, rfl, rfl⟩
  have hcreated : s.answer (.createShiftCalendar none [.early] (some continuousId) []) =
      .ok (.calendar ⟨some continuousId, none, [.early], []⟩) := by
    rw [hs]
    rfl
  have hcurrent : t.planner.calendars.get (.text continuousId) = .ok ⟨some continuousId, none, [.early], []⟩ := by
    rw [ht, hs]
    rfl
  have hplaces := hall _ _ [] [] s t none (some continuousId) [.early] [] _ _ continuousId ⟨rfl, rfl⟩
    hrecords.hasIntegrity.toHasSoundMasterData hs hcreated rfl ht (by simp) hcurrent
  -- An hour before 20:00 is 19:00 without breaks, and 12:00 for the early shift.
  have hdiffers :
      (t.planner.registry.subtract (some continuousId) (.onTuesday 20) (.minutes 60 (by decide))).toOption ≠
      (WorkingCalendar.ofShifts ⟨some continuousId, none, [.early], []⟩ t.planner.options.lookback >>=
        (·.subtract (.onTuesday 20) (.minutes 60 (by decide)))).toOption := by
    rw [ht, hs]
    decide +kernel
  exact hdiffers (congrArg Except.toOption (hplaces _ _))

end Session

end SupplyPlan
