import Outflow.Log.Record

/-!
# Log lines for a console

A record is written with colours: the time, the severity, the event, the logger if one is named, and
the other fields in the order of their names.

* `consoleValue`: a field, quoted only where it needs to be;
* `consoleLine`: a record.
-/

namespace Outflow.Log

open Text (Codes codesOf quoted)

/-- A terminal sequence that sets a style. -/
def style (code : String) : String := String.ofList [Char.ofNat 27, '['] ++ code ++ "m"

/-- The style of plain text. -/
def plainStyle : String := style "0"

/-- The style of bright text. -/
def brightStyle : String := style "1"

/-- The colour of a severity by its name. -/
def severityColour (name : String) : String :=
  if name = "critical" || name = "error" then style "31"
  else if name = "warning" then style "33"
  else style "32"

/-- A text with blanks after it up to a width. -/
def paddedRight (width : Nat) (s : String) : String :=
  s ++ String.ofList (List.replicate (width - s.length) ' ')

/-- A value as a string, for the fields that are never quoted. -/
def spelled (v : Value) : String := Codes.toText (v.spell?.getD [])

/-- The code points that make a text be quoted: blanks, line ends, quotes and the equals sign. -/
def needsQuotes (c : Nat) : Bool := [32, 9, 61, 13, 10, 34, 39].contains c

/-- A field as it is shown: a text without quotes where none of its code points needs them. -/
def consoleValue : Value → String
  | .text cs => if cs.any needsQuotes then quoted cs else Codes.toText cs
  | v => v.show?.getD ""

/-- The time of a record. -/
def timePart (v : Value) : String := style "2" ++ spelled v ++ plainStyle

/-- The severity of a record. -/
def severityPart (v : Value) : String :=
  "[" ++ severityColour (spelled v) ++ brightStyle ++ paddedRight 9 (spelled v) ++ plainStyle ++ "]"

/-- The event of a record. -/
def eventPart (v : Value) : String := brightStyle ++ paddedRight 30 (spelled v) ++ plainStyle

/-- The logger of a record. -/
def loggerPart (v : Value) : String :=
  "[" ++ plainStyle ++ brightStyle ++ style "34" ++ spelled v ++ plainStyle ++ "]" ++ plainStyle

/-- Any other field. -/
def fieldPart (name : String) (v : Value) : String :=
  style "36" ++ name ++ plainStyle ++ "=" ++ style "35" ++ consoleValue v ++ plainStyle

/-- The fields that have a place of their own, in the order of their places. -/
def placedParts : List (String × (Value → String)) := [
  ("timestamp", timePart), ("level", severityPart), ("event", eventPart), ("logger", loggerPart),
  ("logger_name", loggerPart)]

/-- A record for a console. -/
def consoleLine (fields : Fields) : String :=
  let placed := placedParts.filterMap fun (name, part) => (fields.lookup name).map part
  let others := fields.filter fun f => !(placedParts.any fun p => p.1 == f.1)
  let sorted := others.mergeSort fun a b => a.1 ≤ b.1
  let line := String.intercalate " " (placed ++ sorted.map fun f => fieldPart f.1 f.2)
  String.ofList (line.toList.reverse.dropWhile (· == ' ')).reverse

end Outflow.Log
