import Outflow.Basic
import Outflow.Calendar.Moment
import Outflow.Number.Numeral
import Outflow.Number.Shortest

/-!
# Values

The values that a document can hold and a log record can carry.

* `Value`: scalars, lists, mappings and sets; inside itself a collection stands as `again`;
* `Value.show?`: a value as it is shown inside messages;
* `Value.spell?`: a value as a text, in which a text stands for itself;
* `Value.sameKey`: when two values are the same key of a mapping;
* `Value.distinct`: the entries of a mapping without repeated keys.

An integer of too many digits cannot be shown, nor can any value that holds one.  The members of a set are
shown as they follow each other in the document; the program shows them in an order of its own.
-/

namespace Outflow

open Text (Codes codesOf quoted quotedBytes)

/-- The outer form of a collection. -/
inductive Shape
  | list
  | map
  deriving DecidableEq

/-- A value. -/
inductive Value
  | null
  | bool (b : Bool)
  | int (n : Int)
  | double (x : Double)
  | text (cs : Codes)
  | bytes (bs : Bytes)
  | date (d : Calendar.Date)
  | moment (m : Calendar.Moment)
  | list (items : List Value)
  /-- An ordered list of pairs. -/
  | pairs (items : List (Value × Value))
  | map (entries : List (Value × Value))
  | set (members : List Value)
  /-- A collection at a place inside itself. -/
  | again (shape : Shape)

instance : Inhabited Value := ⟨.null⟩

namespace Value

/-- The text of a string. -/
def ofString (s : String) : Value := .text (codesOf s)

/-- Joins texts with a comma and a blank. -/
def commaJoined (parts : List String) : String := String.intercalate ", " parts

/-- An offset from universal time as it is shown. -/
def showSpan (seconds : Int) : String :=
  let days := seconds / 86400
  let rest := seconds % 86400
  let parts := (if days = 0 then [] else ["days=" ++ toString days])
    ++ (if rest = 0 then [] else ["seconds=" ++ toString rest])
  "datetime.timedelta(" ++ (if parts.isEmpty then "0" else commaJoined parts) ++ ")"

/-- A date as it is shown. -/
def showDate (d : Calendar.Date) : String :=
  "datetime.date(" ++ commaJoined [toString d.year, toString d.month, toString d.day] ++ ")"

/-- A moment as it is shown: seconds and microseconds only where there are any. -/
def showMoment (m : Calendar.Moment) : String :=
  let fine := if m.microsecond = 0
    then (if m.second = 0 then [] else [toString m.second])
    else [toString m.second, toString m.microsecond]
  let zone := match m.offset with
    | none => []
    | some 0 => ["tzinfo=datetime.timezone.utc"]
    | some o => ["tzinfo=datetime.timezone(" ++ showSpan o ++ ")"]
  "datetime.datetime(" ++ commaJoined ([toString m.date.year, toString m.date.month,
    toString m.date.day, toString m.hour, toString m.minute] ++ fine ++ zone) ++ ")"

mutual

/-- A value as it is shown inside messages. -/
def show? : Value → Option String
  | .null => some "None"
  | .bool b => some (if b then "True" else "False")
  | .int n => Number.writeInteger? n
  | .double x => some x.text
  | .text cs => some (quoted cs)
  | .bytes bs => some (quotedBytes bs)
  | .date d => some (showDate d)
  | .moment m => some (showMoment m)
  | .list items => (showItems? items).map fun parts => "[" ++ commaJoined parts ++ "]"
  | .pairs items => (showPairs? items).map fun parts => "[" ++ commaJoined parts ++ "]"
  | .map entries => (showEntries? entries).map fun parts => "\x7b" ++ commaJoined parts ++ "\x7d"
  | .set [] => some "set()"
  | .set (m :: ms) =>
    match show? m, showItems? ms with
    | some first, some rest => some ("\x7b" ++ commaJoined (first :: rest) ++ "\x7d")
    | _, _ => none
  | .again .list => some "[...]"
  | .again .map => some "\x7b...\x7d"

/-- Each value as it is shown. -/
def showItems? : List Value → Option (List String)
  | [] => some []
  | v :: rest =>
    match show? v, showItems? rest with
    | some first, some others => some (first :: others)
    | _, _ => none

/-- Each pair as it is shown. -/
def showPairs? : List (Value × Value) → Option (List String)
  | [] => some []
  | (k, v) :: rest =>
    match show? k, show? v, showPairs? rest with
    | some key, some value, some others => some (("(" ++ key ++ ", " ++ value ++ ")") :: others)
    | _, _, _ => none

/-- Each entry of a mapping as it is shown. -/
def showEntries? : List (Value × Value) → Option (List String)
  | [] => some []
  | (k, v) :: rest =>
    match show? k, show? v, showEntries? rest with
    | some key, some value, some others => some ((key ++ ": " ++ value) :: others)
    | _, _, _ => none

end

/-- A value as a text: texts, dates and moments plainly, everything else as it is shown. -/
def spell? : Value → Option Codes
  | .text cs => some cs
  | .date d => some (codesOf d.text)
  | .moment m => some (codesOf m.text)
  | v => (show? v).map codesOf

/-- Whether two values are the same key of a mapping.  Numbers are compared as numbers, a truth value
being zero or one.  All that are no numbers count as one, as those that a document names `.nan` do; the
program tells one that is read from a numeral from every other one. -/
def sameKey : Value → Value → Bool
  | .null, .null => true
  | .bool a, .bool b => a == b
  | .int a, .int b => a == b
  | .bool a, .int n | .int n, .bool a => n == (if a then 1 else 0)
  | .double x, .int n | .int n, .double x => x.sameInteger n
  | .double x, .bool a | .bool a, .double x => x.sameInteger (if a then 1 else 0)
  | .double x, .double y => x.sameNumber y || (x == .nan && y == .nan)
  | .text a, .text b => a == b
  | .bytes a, .bytes b => a == b
  | .date a, .date b => a == b
  | .moment a, .moment b => a.same b
  | _, _ => false

/-- Adds an entry to a mapping: the first of two keys that are the same stays, with the later value. -/
def put (k v : Value) : List (Value × Value) → List (Value × Value)
  | [] => [(k, v)]
  | e :: rest => if sameKey e.1 k then (e.1, v) :: rest else e :: put k v rest

/-- The entries of a mapping that is built up from some entries. -/
def distinct (es : List (Value × Value)) : List (Value × Value) :=
  es.foldl (fun done e => put e.1 e.2 done) []

/-- Whether a value can be a key of a mapping. -/
def isKey : Value → Bool
  | .list _ | .pairs _ | .map _ | .set _ | .again _ => false
  | _ => true

end Value

end Outflow
