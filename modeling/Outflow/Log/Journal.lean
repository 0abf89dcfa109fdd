import Outflow.Log.Console
import Outflow.Log.Files
import Outflow.Log.Json
import Outflow.Log.Settings

/-!
# The journal

Where log records go.  Handlers are attached to the journal, one of them being recorded as its own;
records of a sufficient severity are written by every attached handler.  Notices are turned into
records by subscribers while the journal is on.

* `Handler`, `Journal`;
* `Journal.setup`, `Journal.teardown`: a new handler in place of the recorded one, and none;
* `Journal.write`: a record;
* `Journal.configure`, `Journal.reset`: turning the journal on, once, and off.
-/

namespace Outflow.Log

open Text (Codes codesOf)

/-- Where a handler writes: the error stream at a place, or a file. -/
inductive Target
  | stream (place : Nat)
  | file (location : Location)
  deriving DecidableEq

/-- The form of log lines. -/
inductive Format
  | json
  | console
  deriving DecidableEq

/-- The form with a name; a name that is no form stands for JSON. -/
def Format.ofName (name : Codes) : Format := if name = codesOf "console" then .console else .json

/-- The line of a record. -/
def Format.line : Format → Fields → String
  | .json, fields => jsonLine fields
  | .console, fields => consoleLine fields

/-- What writes the lines of records to a target; no two handlers have the same number. -/
structure Handler where
  number : Nat
  target : Target
  format : Format
  deriving DecidableEq

/-- The kind of a handler in reports. -/
def Handler.kind (h : Handler) : String :=
  match h.target with
  | .stream _ => "StreamHandler"
  | .file _ => "FileHandler"

/-- Where log records go. -/
structure Journal where
  /-- The attached handlers. -/
  handlers : List Handler
  /-- The handler recorded as the journal's own. -/
  own : Option Handler
  /-- The number of handlers made so far. -/
  made : Nat
  /-- The numbers of the handlers that were closed. -/
  closed : List Nat
  /-- The number from which records are written. -/
  level : Nat
  /-- Whether events have been given their form, which the first setup does. -/
  prepared : Bool
  /-- Whether notices are passed on. -/
  emitting : Bool
  /-- Whether the journal was turned on to the end. -/
  configured : Bool
  /-- The number of subscribers that every kind of notice has. -/
  subscribers : Nat
  files : Files

/-- The journal at the start: off, with nothing attached, for warnings and worse. -/
def Journal.start : Journal :=
  { handlers := [], own := none, made := 0, closed := [], level := 30, prepared := false, emitting := false,
    configured := false, subscribers := 0, files := .empty }

/-- Why a setup or a turning on failed. -/
inductive SetupError
  | unknownDestination (given : Codes)
  | file (error : FileError)
  | level (error : LevelError)
  /-- The first record could not be written. -/
  | write (fault : Fault)
  deriving DecidableEq

/-- The wording of a failed setup. -/
def SetupError.message : SetupError → String
  | .unknownDestination given => unknownDestinationMessage given
  | .file e => e.message
  | .level e => e.message
  | .write f => f.message

/-- Whether a handler is open. -/
def Journal.isOpen (j : Journal) (h : Handler) : Bool := !j.closed.contains h.number

/-- Detaches a handler, if there is one, and closes it. -/
def Journal.detach (j : Journal) (h : Option Handler) : Journal :=
  { j with
    handlers := j.handlers.filter fun x => some x != h
    closed := j.closed ++ (h.map Handler.number).toList }

/-- The target of a setting, with the files that it makes. -/
def Journal.target (j : Journal) (io : Stdio) (s : Settings) : Except SetupError (Files × Target) :=
  if s.destination = codesOf "stderr" then .ok (j.files, .stream (io.current .stderr))
  else match j.files.open? s.filePath with
    | .error e => .error (.file e)
    | .ok (files, l) => .ok (files, .file l)

/-- Attaches a new handler in place of the recorded one, which is closed, then sets the level, then records
the handler: a refused level leaves the new handler attached and the old one recorded. -/
def Journal.setup (j : Journal) (io : Stdio) (s : Settings) : Journal × Except SetupError Unit :=
  if s.destination ≠ codesOf "stderr" ∧ s.destination ≠ codesOf "jsonl" then
    (j, .error (.unknownDestination s.destination))
  else
    let j := { j with prepared := true }
    match j.target io s with
    | .error e => (j, .error e)
    | .ok (files, target) =>
      let h : Handler := ⟨j.made, target, .ofName s.format⟩
      let old := j.detach j.own
      let j := { old with handlers := old.handlers ++ [h], made := j.made + 1, files }
      match Level.ofName s.level with
      | .error e => (j, .error (.level e))
      | .ok level => ({ j with level, own := some h }, .ok ())

/-- Detaches the recorded handler and closes it. -/
def Journal.teardown (j : Journal) : Journal := { j.detach j.own with own := none }

/-- Writes a line of text to the error stream at a place and flushes it. -/
def streamLine (io : Stdio) (place : Nat) (text : String) : Stdio × Except Fault Unit :=
  io.update .stderr place (.ok ()) fun s =>
    match s.writeText (text ++ "\n") with
    | (s, .error f) => (s, .error f)
    | (s, .ok ()) => s.flushText

/-- The first line of the report that is made when a handler cannot write. -/
def handlerTrouble : String := "--- Logging error ---\n"

/-- Reports trouble on the error stream in use; a system fault of the report itself is passed over. -/
def reportTrouble (io : Stdio) : Stdio × Except Fault Unit :=
  let (io, result) := io.update .stderr (io.current .stderr) (.ok ()) fun s => s.writeText handlerTrouble
  match result with
  | .error f => (io, if f.isSystem then .ok () else .error f)
  | .ok () => (io, .ok ())

/-- Writes a line of text to the error stream at a place, and reports the trouble if it fails. -/
def guardedLine (io : Stdio) (place : Nat) (text : String) : Stdio × Except Fault Unit :=
  match streamLine io place text with
  | (io, .ok ()) => (io, .ok ())
  | (io, .error _) => reportTrouble io

/-- A handler writes a record. -/
def Handler.write (h : Handler) (j : Journal) (io : Stdio) (r : Record) :
    Journal × Stdio × Except Fault Unit :=
  let line := h.format.line r.fields
  match h.target with
  | .file l => ({ j with files := j.files.append l (line ++ "\n") }, io, .ok ())
  | .stream place => let (io, result) := guardedLine io place line; (j, io, result)

/-- Every handler of a list writes a record, until one fails. -/
def writeAll (r : Record) : List Handler → Journal → Stdio → Journal × Stdio × Except Fault Unit
  | [], j, io => (j, io, .ok ())
  | h :: rest, j, io =>
    match h.write j io r with
    | (j, io, .ok ()) => writeAll r rest j io
    | (j, io, .error f) => (j, io, .error f)

/-- Writes a record if it is grave enough.  With no handler attached, a warning or worse goes to the
error stream in use as a plain line. -/
def Journal.write (j : Journal) (io : Stdio) (r : Record) : Journal × Stdio × Except Fault Unit :=
  if r.severity.number < j.level then (j, io, .ok ())
  else match j.handlers with
    | [] =>
      if r.severity.number < Severity.warning.number then (j, io, .ok ())
      else
        let (io, result) := guardedLine io (io.current .stderr) r.plain
        (j, io, result)
    | handlers => writeAll r handlers j io

/-- Writes an event, once events have been given their form. -/
def Journal.writeEvent (j : Journal) (io : Stdio) (severity : Severity) (event : String)
    (given : Fields) : Journal × Stdio × Except Fault Unit :=
  if j.prepared then j.write io (.ofEvent severity event given) else (j, io, .ok ())

/-- Writes the record of a notice once for each of `copies` subscribers. -/
def Journal.deliver (j : Journal) (io : Stdio) (n : Notice) : Nat → Journal × Stdio
  | 0 => (j, io)
  | copies + 1 =>
    let (j, io, _) := j.write io (.ofNotice n)
    j.deliver io n copies

/-- Turns the journal on: a setup, a subscriber for every kind of notice, and a first record.  A journal
that is on stays as it is; the result says whether it was. -/
def Journal.configure (j : Journal) (io : Stdio) (s : Settings) :
    Journal × Stdio × Except SetupError Bool :=
  if j.configured && j.emitting then (j, io, .ok true)
  else match j.setup io s with
    | (j, .error e) => (j, io, .error e)
    | (j, .ok ()) =>
      let j := { j with emitting := true, subscribers := j.subscribers + 1 }
      match j.writeEvent io .debug "observability.configured"
          [("destination", .text s.destination)] with
      | (j, io, .error f) => (j, io, .error (.write f))
      | (j, io, .ok ()) => ({ j with configured := true }, io, .ok false)

/-- Turns the journal off. -/
def Journal.reset (j : Journal) : Journal :=
  { j.teardown with emitting := false, configured := false, subscribers := 0 }

end Outflow.Log
