import Outflow.Log.Level
import Outflow.Destination
import Outflow.Value

/-!
# Log records

* `Fields`: names with values in the order in which they were first set;
* `Record`: what one log line carries;
* `Record.ofEvent`, `Record.foreign`: an event with its severity and time, and a bare message;
* `Record.ofNotice`: the record of a notice.
-/

namespace Outflow.Log

/-- Names with values. -/
abbrev Fields := List (String × Value)

/-- Sets a field: in its place if it is there, and at the end if not. -/
def Fields.set : Fields → String → Value → Fields
  | [], name, value => [(name, value)]
  | (n, v) :: rest, name, value =>
    if n = name then (name, value) :: rest else (n, v) :: Fields.set rest name value

/-- What one log line carries. -/
structure Record where
  severity : Severity
  fields : Fields
  /-- The line of a plain message, written where there is no other place for it. -/
  plain : String

/-- The mark that stands for the time of a record. -/
def timeMark : String := "TS"

/-- The fields of an event: those given, then the event, its severity and its time. -/
def eventFields (severity : Severity) (event : String) (given : Fields) : Fields :=
  ((given.set "event" (.ofString event)).set "level" (.ofString severity.name)).set "timestamp"
    (.ofString timeMark)

/-- The record of an event. -/
def Record.ofEvent (severity : Severity) (event : String) (given : Fields) : Record :=
  let fields := eventFields severity event given
  { severity
    fields
    plain := ((Value.map (fields.map fun f => (.ofString f.1, f.2))).show?).getD "" }

/-- The record of a message from elsewhere: the message alone. -/
def Record.foreign (severity : Severity) (message : String) : Record :=
  { severity, fields := [("event", .ofString message)], plain := message }

/-- The severity of a notice. -/
def noticeSeverity : Notice → Severity
  | .shutDown _ => .info
  | .failed .. => .error

/-- The event of a notice. -/
def noticeEvent : Notice → String
  | .shutDown _ => "writer.shutdown"
  | .failed .. => "writer.failed"

/-- The fields of a notice. -/
def noticeFields : Notice → Fields
  | .shutDown destination => [("kind", .text destination)]
  | .failed destination verb error label =>
    [("kind", .text destination), ("op", .text verb), ("error", .text error), ("error_type", .text label)]

/-- The record of a notice. -/
def Record.ofNotice (n : Notice) : Record :=
  .ofEvent (noticeSeverity n) (noticeEvent n) (noticeFields n)

end Outflow.Log
