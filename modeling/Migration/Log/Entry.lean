import Migration.Json.Printer
import Migration.Log.Level
import Migration.Log.Message
import Migration.Summary
import Migration.Time.Epoch
import Migration.Time.Printer

/-!
# Log entries

An entry in the structured form is one line of JSON: the time in universal time, the level, the
logger, the message, the change log that the entry is about if there is one, and the trace of the
failure that it reports if there is one.

* `Log.Entry.line` — the line, or why there is none
-/

namespace Migration.Log

/-- A point in time as a count of seconds. -/
inductive Moment where
  | whole (seconds : Int)
  | fractional (seconds : Binary64)
  deriving DecidableEq, Repr

/-- The timestamp of a moment. -/
def Moment.timestamp : Moment → Except Epoch.Fault Timestamp
  | whole n => Timestamp.ofSeconds n 0
  | fractional x => Timestamp.ofFloat x

/-- Something that is logged. -/
structure Entry where
  logger : String
  level : Int
  template : String
  values : List Value
  created : Moment
  changeLog : Option Json
  /-- The lines that tell where a failure comes from. -/
  trace : Option String := none

/-- Why an entry cannot be written. -/
inductive Entry.Fault where
  | time (fault : Epoch.Fault)
  | message (fault : Log.Fault)
  deriving DecidableEq, Repr

namespace Entry

/-- What is wrong with an entry. -/
def Fault.text : Fault → String
  | time fault => fault.message
  | message fault => fault.message

/-- An entry as a JSON object; the time is found out first. -/
def toJson (e : Entry) : Except Fault Json := do
  let timestamp ← e.created.timestamp.mapError .time
  let message ← (Log.message e.template e.values).mapError .message
  let changeLog := match e.changeLog with
    | some j => [("change_log", j)]
    | none => []
  let trace := match e.trace with
    | some s => [("exc_info", .string s)]
    | none => []
  return .object ([("timestamp", .string timestamp.printStrict),
    ("level", .string (levelName e.level)), ("logger", .string e.logger),
    ("message", .string message)] ++ changeLog ++ trace)

/-- The line of an entry. -/
def line (e : Entry) : Except Fault String := return (← e.toJson).print .unicode

end Entry
end Migration.Log
