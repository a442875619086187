import SupplyPlan.Json.Arithmetic

namespace SupplyPlan

/-- The argument, if it is of the wanted kind. -/
def Given.toExcept {α : Type} : Given α → Except PlanError α
  | .proper a => .ok a
  | .other _ => .error .typeMismatch

namespace Duration

def ofMicros (n : Int) : Except PlanError Duration :=
  match ofMicros? n with
  | some d => .ok d
  | none => .error .outOfRange

theorem ofMicros_eq_ok_iff {n : Int} {d : Duration} : ofMicros n = .ok d ↔ d.micros = n := by
  rw [← ofMicros?_eq_some_iff]
  unfold ofMicros
  split <;> simp_all

def add (d e : Duration) : Except PlanError Duration := ofMicros (d.micros + e.micros)

/-- The duration taken a number of times, to the nearest microsecond and ties to even. The number is taken exactly. -/
def scale (d : Duration) : Quantity → Except PlanError Duration
  | .int n => ofMicros (d.micros * n)
  | .float .nan => .error .unreadableValue
  | .float (.infinite _) => .error .outOfRange
  | .float (.finite negative m q _) => ofMicros (Binary64.scaleRound d.micros negative m q)

/-- A number of units of the given length in microseconds. Of a double the whole units are exact and the fraction is
multiplied as a double before the sum goes to the nearest microsecond. -/
def ofUnits (unit : Nat) : Quantity → Except PlanError Duration
  | .int n => ofMicros (n * unit)
  | .float .nan => .error .unreadableValue
  | .float (.infinite _) => .error .outOfRange
  | .float (.finite negative m q _) =>
    let (whole, rest, den) := Binary64.parts negative m q
    match Binary64.ofRatio (rest < 0) (rest.natAbs * unit) den with
    | .finite below m' q' _ =>
      let (num', den') := scaleByTwo m' q'
      let fraction : Int := if below then -num' else num'
      ofMicros (roundHalfEven (whole * unit * den' + fraction) den')
    | _ => .error .outOfRange

def ofHours (n : Quantity) : Except PlanError Duration := ofUnits 3600000000 n

def ofDays (n : Quantity) : Except PlanError Duration := ofUnits 86400000000 n

end Duration

namespace Instant

def ofMicros (n : Int) (offset : Option Int) : Except PlanError Instant :=
  match ofMicros? n offset with
  | some t => .ok t
  | none => .error .outOfRange

theorem ofMicros_eq_ok_iff {n : Int} {offset : Option Int} {t : Instant} :
    ofMicros n offset = .ok t ↔ t.micros = n ∧ t.offset = offset := by
  rw [← ofMicros?_eq_some_iff]
  unfold ofMicros
  split <;> simp_all

/-- Elapsed time back; the offset is kept. -/
def minus (t : Instant) (d : Duration) : Except PlanError Instant :=
  ofMicros (t.micros - d.micros) t.offset

/-- A naive and an aware instant cannot be compared. -/
def lt (t u : Instant) : Except PlanError Bool :=
  if t.isAware = u.isAware then .ok (t.onCommonClock < u.onCommonClock)
  else .error .typeMismatch

/-- Elapsed time from one instant to another. -/
def since (t u : Instant) : Except PlanError Duration :=
  if t.isAware = u.isAware then Duration.ofMicros (t.onCommonClock - u.onCommonClock)
  else .error .typeMismatch

end Instant

/-- Whole days back. -/
def Date.minusDays (d : Date) (n : Int) : Except PlanError Date :=
  match Date.ofDay? (d.day - n) with
  | some e => .ok e
  | none => .error .outOfRange

namespace Moment

/-- Elapsed time back; a date goes back by the whole days of it, and nothing else can. -/
def minus (m : Moment) (d : Duration) : Except PlanError Moment :=
  match m with
  | .proper t => .proper <$> t.minus d
  | .other (.date e) => (fun e => .other (.date e)) <$> e.minusDays d.days
  | .other (.json _) => .error .typeMismatch

/-- Moments of one kind can be compared. -/
def lt : Moment → Moment → Except PlanError Bool
  | .proper t, .proper u => t.lt u
  | .other (.date d), .other (.date e) => .ok (d.day < e.day)
  | .other (.json v), .other (.json w) =>
    match v.isLess? w with
    | some less => .ok less
    | none => .error .typeMismatch
  | _, _ => .error .typeMismatch

/-- As `lt`, but for equal moments too. -/
def le : Moment → Moment → Except PlanError Bool
  | .proper t, .proper u => not <$> u.lt t
  | .other (.date d), .other (.date e) => .ok (d.day ≤ e.day)
  | .other (.json v), .other (.json w) =>
    match v.isAtMost? w with
    | some atMost => .ok atMost
    | none => .error .typeMismatch
  | _, _ => .error .typeMismatch

@[simp] theorem minus_proper (t : Instant) (d : Duration) :
    minus (.proper t) d = .proper <$> t.minus d := rfl

@[simp] theorem lt_proper (t u : Instant) : lt (.proper t) (.proper u) = t.lt u := rfl

@[simp] theorem le_proper (t u : Instant) : le (.proper t) (.proper u) = not <$> u.lt t := rfl

end Moment

/-- The double of a number, unless it is an integer beyond the largest one. -/
def Quantity.toBinary64 (q : Quantity) : Except PlanError Binary64 :=
  match q.toBinary64? with
  | some x => .ok x
  | none => .error .outOfRange

namespace Amount

/-- The number an amount stands for. -/
def toQuantity (a : Amount) : Except PlanError Quantity :=
  match a.toQuantity? with
  | some q => .ok q
  | none => .error .typeMismatch

/-- An amount converted to a double; texts are read. -/
def toBinary64 : Amount → Except PlanError Binary64
  | .other (.json (.string s)) =>
    match s.chars?.bind fun cs => Binary64.read? (asciiDigits (Text.trim cs)) with
    | some x => .ok x
    | none => .error .unreadableValue
  | a => a.toQuantity >>= Quantity.toBinary64

/-- Two numbers, two texts or two arrays can be compared. -/
def lt (a b : Amount) : Except PlanError Bool :=
  match a.toJson?, b.toJson? with
  | some v, some w =>
    match v.isLess? w with
    | some less => .ok less
    | none => .error .typeMismatch
  | _, _ => .error .typeMismatch

/-- The product of two amounts. -/
def times (a b : Amount) : Except PlanError Json :=
  match a.toJson?, b.toJson? with
  | some v, some w => v.times w
  | _, _ => .error .typeMismatch

/-- The first amount unless the second is greater. -/
def larger (a b : Amount) : Except PlanError Amount := do
  if ← a.lt b then return b else return a

/-- The first amount unless the second is less. -/
def smaller (a b : Amount) : Except PlanError Amount := do
  if ← b.lt a then return b else return a

@[simp] theorem lt_proper (p q : Quantity) : lt (.proper p) (.proper q) = .ok (p.lt q) := rfl

@[simp] theorem larger_proper (p q : Quantity) :
    larger (.proper p) (.proper q) = .ok (.proper (p.larger q)) := by
  simp only [larger, lt_proper, Quantity.larger]
  cases p.lt q <;> rfl

@[simp] theorem smaller_proper (p q : Quantity) :
    smaller (.proper p) (.proper q) = .ok (.proper (p.smaller q)) := by
  simp only [smaller, lt_proper, Quantity.smaller]
  cases q.lt p <;> rfl

end Amount

/-- A duration as a caller gives it. -/
abbrev Span := Given Duration

namespace Span

/-- A duration some number of times; any other value is multiplied as what it is. -/
def times (d : Span) (a : Amount) : Except PlanError Span :=
  match d with
  | .proper d => do return .proper (← d.scale (← a.toQuantity))
  | .other (.json v) => do
    match a.toJson? with
    | some w => return .other (.json (← v.times w))
    | none => .error .typeMismatch
  | .other (.date _) => .error .typeMismatch

/-- The sum of two durations, or of two numbers. -/
def plus : Span → Span → Except PlanError Span
  | .proper d, .proper e => .proper <$> d.add e
  | .other (.json v), .other (.json w) => (fun sum => .other (.json sum)) <$> v.plus w
  | _, _ => .error .typeMismatch

end Span

/-- A moment less a duration, or a number less a number. -/
def Moment.minusSpan : Moment → Span → Except PlanError Moment
  | m, .proper d => m.minus d
  | .other (.json v), .other (.json w) => (fun left => .other (.json left)) <$> v.minus w
  | _, .other _ => .error .typeMismatch

end SupplyPlan
