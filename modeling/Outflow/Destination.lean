import Outflow.Stdio
import Outflow.Text.Lowercase

/-!
# Destinations and notices

Output goes to a standard stream, into a pipe, or nowhere, and an outlet for it reports what becomes of the
operations on it.

* `Destination`: the four destinations, and any other name that an outlet may have been given;
* `Destination.name`, `Destination.ofName?`: the spelling, and the destination of a spelling;
* `Destination.named`: the destination that a user names, in any letter case; a pipe cannot be named,
  since it needs a read end;
* `Notice`: an output was ended, or an operation failed in the system;
* `Notice.about?`: the notice, if any, of one operation and its outcome.
-/

namespace Outflow

open Text (Codes codesOf lower quoted)

/-- Where output goes. -/
inductive Destination
  | stdout
  | stderr
  | pipe
  | null
  /-- A name that is none of the four. -/
  | other (name : String)
  deriving DecidableEq

namespace Destination

/-- The spelling of a destination. -/
def name : Destination → String
  | .stdout => "stdout"
  | .stderr => "stderr"
  | .pipe => "pipe"
  | .null => "null"
  | .other name => name

/-- The four destinations. -/
def all : List Destination := [.stdout, .stderr, .pipe, .null]

/-- The destination with a spelling. -/
def ofName? (cs : Codes) : Option Destination := all.find? fun d => codesOf d.name == cs

/-- The destination of a standard stream. -/
def ofStream : StreamName → Destination
  | .stdout => .stdout
  | .stderr => .stderr

/-- Why a name was refused. -/
inductive NameError
  | unknown (given : Codes)
  | pipe
  deriving DecidableEq

/-- The wording of a refused name. -/
def NameError.message : NameError → String
  | .unknown given => "Unknown writer destination: " ++ quoted given
      ++ ". Available: ['stdout', 'stderr', 'null']."
  | .pipe => "A pipe writer can't be built from a name; use GhciWriter.pipe()"

/-- The destination that a user names, in any letter case. -/
def named (given : Codes) : Except NameError Destination :=
  match ofName? (lower given) with
  | none => .error (.unknown given)
  | some .pipe => .error .pipe
  | some d => .ok d

end Destination

/-- A report about an outlet.  Its texts may hold any code point. -/
inductive Notice
  | shutDown (destination : Codes)
  | failed (destination verb error label : Codes)
  deriving DecidableEq

/-- The report that an output was ended. -/
def Notice.ofEnd (d : Destination) : Notice := .shutDown (codesOf d.name)

/-- The report that an operation at an outlet failed. -/
def Notice.ofFault (d : Destination) (r : Sink.Request) (f : Fault) : Notice :=
  .failed (codesOf d.name) (codesOf r.verb) (codesOf f.message) (codesOf f.label)

/-- The notice of an operation that began at an outlet for `entry` and ends with `outcome`, while the
outlet is for `now`.  A system fault is always reported, the end of an output when it succeeds and the
output went somewhere, and nothing else. -/
def Notice.about? (entry now : Destination) (r : Sink.Request) : Outcome → Option Notice
  | .error f => if f.isSystem then some (.ofFault now r f) else none
  | .ok _ =>
    match r, entry with
    | .shutdown, .null => none
    | .shutdown, d => some (.ofEnd d)
    | _, _ => none

end Outflow
