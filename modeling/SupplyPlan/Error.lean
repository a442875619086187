import SupplyPlan.Given

namespace SupplyPlan

/-- Why a request is refused. -/
inductive RequestFault where
  | noCompletion
  | completionNotInstant (given : Foreign)
  | quantityNotNumber (given : Foreign)
  | negativeQuantity (quantity : Quantity)
  | offsetNotDuration
  | negativeOffset
  | notAStep (given : Foreign)
  | repeatedStep (step : Option Text)
  | negativeEstimate (step : Option Text) (duration : Duration)
  | negativeWorkingTime (duration : Duration)
  | noRequiredDate
  | noFallbackCalendar (ref : Text)
  deriving Repr

/-- Why a calendar cannot be used. -/
inductive CalendarFault where
  | unassigned
  | unresolved
  | noShifts
  | noWindow (lookback : Amount) (cursor : Instant)
  | other (text : Text)
  deriving Repr

/-- Why planning data cannot be found. -/
inductive LookupFault where
  | noRouting
  | unknownMethod (method : Text)
  | other (text : Text)
  deriving Repr

/-- A record that does not exist. -/
inductive MissingRecord where
  | keyed (id : RecordId)
  | product (id : Option Text)
  | virtualProduct (id : Text)
  deriving Repr

/-- Master data that no record may hold. -/
inductive ValueFault where
  | noWeekday
  | weekdayOutOfWeek
  | emptyShift
  | calendarWithoutShifts
  | ownComponent
  deriving DecidableEq, Repr

/-- A failed operation. -/
inductive PlanError where
  | planning (text : Text)
  | bomCycle (path : List Text)
  | invalidRequest (fault : RequestFault)
  | calendarUnavailable (ref : Option Text) (fault : CalendarFault)
  | lookupFailed (subject : Option Text) (fault : LookupFault)
  | recordNotFound (record : MissingRecord)
  | duplicateRecord (id : RecordId)
  | invalidValue (fault : ValueFault)
  /-- A date, duration or number leaves its range. -/
  | outOfRange
  /-- Values that cannot be compared or calculated with. -/
  | typeMismatch
  /-- A value lacks a part that is asked of it. -/
  | missingPart
  /-- A text or NaN where a number is needed, or a text that names no date. -/
  | unreadableValue
  /-- A text has no bytes because it holds half a character. -/
  | unencodable
  /-- A value is too long to be held. -/
  | tooLong
  /-- A value nests too deeply to be written. -/
  | tooDeep
  /-- A store refuses the id. -/
  | constraintViolated
  | storeClosed
  /-- A calculation refers to itself without end. -/
  | endless
  /-- A stored record that does not fit the shape of the answer. -/
  | invalidResponse
  /-- An answer that cannot be written. -/
  | unwritableResponse
  deriving Repr

/-- An id or a reference as it is shown inside a message. -/
def idLiteral (id : Option Text) : Text := (id.map Text.quote).getD "None"

namespace RequestFault

def text : RequestFault → Text
  | noCompletion => "A completion instant is required"
  | completionNotInstant given => "Completion instant must be a datetime, got " ++ given.literal
  | quantityNotNumber given => "Quantity must be a number, got " ++ given.literal
  | negativeQuantity quantity => "Quantity must not be negative, got " ++ quantity.text
  | offsetNotDuration => "Trailing offset must be a timedelta"
  | negativeOffset => "Trailing offset must not be negative"
  | notAStep given => "Not a process step: " ++ given.literal
  | repeatedStep step => "Step " ++ idLiteral step ++ " appears more than once"
  | negativeEstimate step duration =>
    "Step " ++ idLiteral step ++ " estimated a negative duration (" ++ duration.text ++ ")"
  | negativeWorkingTime duration => "Working time must not be negative, got " ++ duration.text
  | noRequiredDate => "A required-by date is required"
  | noFallbackCalendar ref => "Fallback calendar " ++ Text.quote ref ++ " does not exist"

end RequestFault

namespace CalendarFault

def text (ref : Option Text) : CalendarFault → Text
  | unassigned => "No calendar assigned"
  | unresolved => "Calendar " ++ idLiteral ref ++ " is not available"
  | noShifts => "Calendar " ++ idLiteral ref ++ " has no shifts"
  | noWindow lookback cursor =>
    "Calendar " ++ idLiteral ref ++ " has no working time within " ++ lookback.text
      ++ " days before " ++ cursor.minuteText
  | other text => text

end CalendarFault

namespace LookupFault

def text (subject : Option Text) : LookupFault → Text
  | noRouting => "No routing found for product " ++ idLiteral subject
  | unknownMethod method =>
    "Unknown estimate method " ++ Text.quote method ++ " on task " ++ idLiteral subject
  | other text => text

end LookupFault

def MissingRecord.text : MissingRecord → Text
  | keyed id => "Record with id " ++ id.literal ++ " not found"
  | product id => "Product " ++ idLiteral id ++ " does not exist"
  | virtualProduct id => "Virtual product " ++ Text.quote id ++ " does not exist"

def ValueFault.text : ValueFault → String
  | noWeekday => "A shift must define at least one weekday"
  | weekdayOutOfWeek => "Weekday indices must be in range 0..6"
  | emptyShift => "Shift end time must differ from start time"
  | calendarWithoutShifts => "A shift calendar must contain at least one shift"
  | ownComponent => "A product cannot be its own component"

/-- The wording of an error; the failures of plain arithmetic and storage have none. -/
def PlanError.message? : PlanError → Option Text
  | .planning text => some text
  | .bomCycle path => some ("Bill of materials contains a cycle: " ++ Text.joined " -> " path)
  | .invalidRequest fault => some fault.text
  | .calendarUnavailable ref fault => some (fault.text ref)
  | .lookupFailed subject fault => some (fault.text subject)
  | .recordNotFound record => some record.text
  | .duplicateRecord id => some ("Record with id " ++ id.literal ++ " already exists")
  | .invalidValue fault => some fault.text
  | _ => none

/-- The wording, empty where there is none. -/
def PlanError.message (e : PlanError) : Text := e.message?.getD ""

end SupplyPlan
