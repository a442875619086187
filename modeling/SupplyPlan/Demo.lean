import SupplyPlan.Planning.Proposal

namespace SupplyPlan.Demo

open Planning

/-- A shift from Monday to Friday. -/
def workdayShift (name : Text) (start finish : TimeOfDay) : Planning Shift :=
  ask fun _ => Shift.make (some name) start finish [0, 1, 2, 3, 4]

def twoShifts : Planning (List Shift) := do
  return [
    ← workdayShift "Frühschicht" (.hour 6 (by decide)) (.hour 14 (by decide)),
    ← workdayShift "Spätschicht" (.hour 14 (by decide)) (.hour 22 (by decide))]

def dayShift : Planning (List Shift) := do
  return [← workdayShift "Tagdienst" (.hour 8 (by decide)) (.hour 16 (by decide))]

def product (id name : Text) (productType : ProductType) : Planning Product :=
  registerProduct
    { id := some id, name := some name, productType, isVirtual := some false, virtualProduct := none }

def settings (product : Product) (days reorder : Int) : Planning ProductFacility :=
  setProductFacility
    { product := product.id
      facility := some standardFacility
      daysToShip := .proper (.int days)
      reorderQuantity := some (.proper (.int reorder))
      minimumStock := none }

def operation (name : Text) (calendar : ShiftCalendar) (setup run : Duration) :
    Planning RoutingTask :=
  buildRoutingTask
    { id := none
      name := some name
      setupTime := .proper setup
      runTimePerUnit := .proper run
      calendar := calendar.id
      validity := .always
      estimateMethod := none
      description := some "" }

def tenths (n : Nat) : Quantity := .float (.ofDecimal false ⟨n, -1⟩)

/-- A proposal that leaves everything but its name to the settings. -/
def proposal (product : Product) (due : Instant) (quantity : Quantity) (planName : Option Text) :
    Planning ProposalOutcome :=
  proposeOrder
    { product := product.id
      requiredBy := some (.proper due)
      quantity := .proper quantity
      facility := none
      manufacturingFacility := none
      isBuilt := none
      daysToShip := none
      planName }

/-- Two in the afternoon a number of days after a date. -/
def dueIn (today : Date) (days : Int) : Except PlanError Instant :=
  match Date.ofDay? (today.day + days) with
  | some d => .ok (Instant.combine d (.hour 14 (by decide)))
  | none => .error .outOfRange

def daysBefore (t : Instant) (days : Int) : Except PlanError Instant := do
  t.minus (← Duration.ofDays (.int days))

/-- Fills a planner that has no products yet. -/
def populate (today : Date) : Planning Unit := do
  if (← ask (·.products.length)) = 0 then
    let twoShift ←
      createShiftCalendar (some "Standard Zweischicht") (← twoShifts) (some "ZWEISCHICHT") []
    let supplier ← createShiftCalendar (some "Lieferant") (← dayShift) (some "SUPPLIER") []
    let p ← planner
    setPlanner { p with options := { p.options with supplierCalendar := supplier.id } }
    let frame ← product "MT-100" "Maschinenträger" .finishedGood
    let sheet ← product "FB-355" "Feinblech S355" .rawMaterial
    let _ ← addBomComponent frame.id sheet.id (.proper (tenths 125)) .always
    let _ ← settings frame 1 5
    let _ ← settings sheet 5 200
    let tasks := [
      ← operation "Laserzuschnitt" twoShift (.minutes 15 (by decide)) (.minutes 40 (by decide)),
      ← operation "Kanten" twoShift (.minutes 15 (by decide)) (.minutes 20 (by decide)),
      ← operation "Schweißen" twoShift (.minutes 30 (by decide)) (.minutes 90 (by decide))]
    let _ ← createRouting frame.id (some "Maschinenträger fertigen") tasks .always
    let due ← ask fun _ => dueIn today 14
    let _ ← proposal frame due (.int 3) (some "DEMO")
    let _ ← proposal sheet (← ask fun _ => daysBefore due 7) (.int 40) (some "DEMO")
    log .demoCreated

/-- Day, month and year; the year is not padded. -/
def dateText (t : Instant) : String :=
  let (year, month, day) := t.date.civil
  Text.padded 2 day ++ "." ++ Text.padded 2 month ++ "." ++ toString year

/-- Day and month. -/
def shortDateText (t : Instant) : String :=
  let (_, month, day) := t.date.civil
  Text.padded 2 day ++ "." ++ Text.padded 2 month

def clockedDateText (t : Instant) : String := dateText t ++ " " ++ t.clockText

/-- An instant as the given function writes it. -/
def instantText (write : Instant → String) : Moment → Text
  | .proper t => write t
  | m => m.text

def amountText : Amount → Text
  | .proper q => q.generalText
  | a => a.text

/-- The tasks of a routing that were scheduled, first to last. -/
def taskLines (routing : Option Routing) (starts : List (Option Text × Instant)) :
    List Text :=
  ((routing.map (·.tasks)).getD []).filterMap fun task =>
    (starts.find? (·.1 = task.id)).map fun (_, start) =>
      "   " ++ Text.shown task.name ++ ": Start " ++ shortDateText start ++ " " ++ start.clockText

def requirementLine (r : Requirement) : Text :=
  " - " ++ Text.shown r.product ++ " " ++ r.requirementType.code ++ ": " ++ amountText r.quantity ++ " bis "
    ++ (r.requiredBy.map (instantText dateText)).getD ""

/-- Plans a shaft and its material three weeks ahead and reports the result. -/
def report (today : Date) : Planning (List Text) := do
  let twoShift ← createShiftCalendar (some "Standard Zweischicht") (← twoShifts) none []
  let supplier ← createShiftCalendar (some "Lieferant") (← dayShift) none []
  let _ ← updateOptions
    { workingHoursPerDay := .proper (.float (.ofInt 8))
      supplierCalendar := supplier.id
      fallbackCalendar := none
      lookback := .proper (.int defaultLookback)
      defaultFacility := some standardFacility }
  let shaft ← product "AW-42" "Antriebswelle" .finishedGood
  let stock ← product "RM-42" "Rundmaterial 42CrMo4" .rawMaterial
  let _ ← addBomComponent shaft.id stock.id (.proper (tenths 32)) .always
  let _ ← settings shaft 1 10
  let _ ← settings stock 7 150
  let tasks := [
    ← operation "Zuschnitt sägen" twoShift (.minutes 15 (by decide)) (.minutes 6 (by decide)),
    ← operation "Drehen" twoShift (.minutes 30 (by decide)) (.minutes 25 (by decide)),
    ← operation "Schleifen" twoShift (.minutes 15 (by decide)) (.minutes 10 (by decide))]
  let _ ← createRouting shaft.id (some "Welle fertigen") tasks .always
  let due ← ask fun _ => dueIn today 21
  let built ← proposal shaft due (.int 4) (some "WOCHE")
  let routing ← ask (·.findRouting shaft.id (some (.proper due)))
  let bought ← proposal stock (← ask fun _ => daysBefore due 5) (tenths 128) none
  let requirements ← ask (·.listRequirements none)
  let builtLines : List Text := [
    "Fertigungsvorschlag",
    " - Menge: " ++ amountText built.order.quantity ++ " (Mindestlosgröße angewendet)",
    " - Benötigt bis: " ++ clockedDateText due,
    " - Start laut Arbeitsplan: " ++ instantText clockedDateText built.calculation.start]
  let boughtLines : List Text := [
    "",
    "Bestellvorschlag",
    " - Menge: " ++ amountText bought.order.quantity,
    " - Bestellen bis: " ++ instantText clockedDateText bought.calculation.start,
    "",
    "Bedarfe"]
  return builtLines ++ taskLines routing built.calculation.taskStarts ++ boughtLines
    ++ requirements.map requirementLine

/-- The report of an empty planner in memory, and the session after it. -/
def reportOf (today : Date) : Except PlanError (List Text) × Session :=
  (report today).perform { planner := .inMemory .standard, drawn := 0, log := [] }

end SupplyPlan.Demo
