import ContractHost.Log.Level
import ContractHost.Log.Sanitised
import ContractHost.Template.Fill
import ContractHost.Text.Split
import ContractHost.Time.Pattern

/-!
# Records of the log

A record has the name of its logger, a level, a message with values, and a moment. A layout turns it into
a line: a template with the fields of the record, and a pattern for its moment. What the line holds is
made safe for terminals.

* `Layout.line`: the line of a record.
-/

namespace ContractHost.Log

variable [Room]

/-- A record. -/
structure Record where
  name : String
  level : Nat
  /-- The message, a template if there are values. -/
  message : String
  /-- The values of the message. -/
  values : List Value := []
  /-- The seconds since the first day of 1970. -/
  created : Binary64 := .zero false

/-- How records are laid out. -/
structure Layout where
  /-- The template of a line. -/
  template : String
  /-- The pattern of a moment, if it is not the usual one. -/
  pattern : Option String := none

/-- The template of a layout that says nothing. -/
def plainTemplate : String := "%(message)s"

/-- The usual pattern of a moment. -/
def usualPattern : String := "%Y-%m-%d %H:%M:%S"

/-- The template of a moment in the usual pattern and its thousandths of a second. -/
def usualMoment : String := "%s,%03d"

namespace Record

/-- The values of a message: a single table that is not empty gives values by name. -/
def supply (record : Record) : Template.Supply :=
  match record.values with
  | [.table (field :: fields)] => .named (field :: fields)
  | values => .sequence values

/-- The message with its values in it. -/
def text (record : Record) : Except Fault Text :=
  if record.values.isEmpty then .ok record.message
  else Template.fill record.supply record.message

/-- The day and time of a record, if its seconds fit in 64 bits. -/
def clock (record : Record) : Except Fault Clock :=
  match record.created, Clock.wholeSeconds? record.created with
  | .nan, _ => .error .badValue
  | _, some seconds =>
    if -twoTo 63 ≤ seconds ∧ seconds < twoTo 63 then .ok (.ofSeconds seconds) else .error .outOfRange
  | _, none => .error .outOfRange

/-- The thousandths of a second of a record: a thousand times the part behind the point, rounded to
double precision, without what is then behind the point. -/
def thousandths (record : Record) : Int :=
  match record.created with
  | .finite negative mantissa exponent =>
    let (num, den) := Binary64.timesPower mantissa exponent 0
    if num % den = 0 then 0
    else ((Binary64.ofQuotient negative (num % den * 1000) den).truncate?).getD 0
  | _ => 0

/-- The moment of a record as text, in the usual pattern if none says anything. -/
def moment (record : Record) (pattern : Option String) : Except Fault Text := do
  let clock ← record.clock
  match pattern.filter (· ≠ "") with
  | some pattern => return Pattern.write pattern clock
  | none =>
    let parts := [Value.text (Pattern.write usualPattern clock), .int record.thousandths]
    Template.fill (.sequence parts) usualMoment

/-- Values in parentheses. -/
def tupleText (values : List Value) : String :=
  match values with
  | [value] => s!"({value.display},)"
  | values => "(" ++ String.intercalate ", " (Value.displayItems values) ++ ")"

/-- The values of a message as a field. -/
def shownValues (record : Record) : Value :=
  match record.values with
  | [.table (field :: fields)] => .table (field :: fields)
  | values => .text (tupleText values)

/-- The fields that every record has. -/
def fields (record : Record) : List (Text × Value) :=
  [("name", .text record.name), ("msg", .text record.message),
   ("args", record.shownValues), ("levelname", .text (levelName record.level)),
   ("levelno", .int record.level), ("pathname", .text ""), ("filename", .text ""),
   ("module", .text ""), ("exc_info", .null), ("exc_text", .null), ("stack_info", .null),
   ("lineno", .int 0), ("funcName", .null), ("created", .float record.created),
   ("msecs", .float (.ofDecimal (record.thousandths < 0) record.thousandths.natAbs 0)),
   ("relativeCreated", .float (.zero false)), ("thread", .int (twoTo 47)),
   ("threadName", .text "MainThread"), ("processName", .text "MainProcess"), ("process", .int 1)]

end Record

namespace Layout

/-- Whether a layout shows the moment of a record. -/
def showsMoment (layout : Layout) : Bool :=
  Text.occurs "%(asctime)".toList layout.template.toList

/-- The fault of a template, where a field that is missing is a wrong template. -/
def templateFault : Fault → Fault
  | .missingKey => .badValue
  | fault => fault

/-- The line of a record before it is made safe. -/
def rawLine (layout : Layout) (record : Record) : Except Fault Text := do
  let message ← record.text
  let moment ←
    if layout.showsMoment then do pure [(.plain "asctime", .text (← record.moment layout.pattern))]
    else pure []
  let fields := record.fields ++ [(.plain "message", .text message)] ++ moment
  (Template.fill (.named fields) layout.template).mapError templateFault

/-- The line of a record. -/
def line (layout : Layout) (record : Record) : Except Fault Text := do
  return .ofLetters (sanitise (← layout.rawLine record).letters)

end Layout

end ContractHost.Log
