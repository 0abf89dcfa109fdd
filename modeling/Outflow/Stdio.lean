import Outflow.Stream

/-!
# The standard streams

The process has an output and an error stream.  Each can be redirected to a new stream; an outlet
looks its stream up whenever it is used, so it follows the redirections.

* `StreamName`, `Stdio`: the two names, and the streams installed under them so far;
* `Stdio.install`, `Stdio.update`, `Stdio.perform`.
-/

namespace Outflow

/-- The name of a standard stream. -/
inductive StreamName
  | stdout
  | stderr
  deriving DecidableEq

namespace StreamName

/-- The spelling of a name. -/
def name : StreamName → String
  | .stdout => "stdout"
  | .stderr => "stderr"

/-- The stream of a name, which must be spelled exactly. -/
def ofName? (s : String) : Option StreamName :=
  if s = "stdout" then some .stdout else if s = "stderr" then some .stderr else none

/-- A standard stream in words. -/
def describe (n : StreamName) : String := "StdStream('" ++ n.name ++ "')"

/-- The wording of a refused name. -/
def unknownMessage (s : String) : String := "Unknown standard stream: " ++ Text.quotedText s

end StreamName

/-- The streams installed under the two names, in order; the last of each is in use. -/
structure Stdio where
  out : List Stream
  err : List Stream

namespace Stdio

/-- The streams installed under a name. -/
def installed (io : Stdio) : StreamName → List Stream
  | .stdout => io.out
  | .stderr => io.err

/-- Replaces the streams of a name. -/
def setInstalled (io : Stdio) (streams : List Stream) : StreamName → Stdio
  | .stdout => { io with out := streams }
  | .stderr => { io with err := streams }

/-- Redirects a name to a new stream. -/
def install (io : Stdio) (n : StreamName) (s : Stream) : Stdio :=
  io.setInstalled (io.installed n ++ [s]) n

/-- The place of the stream in use. -/
def current (io : Stdio) (n : StreamName) : Nat := (io.installed n).length - 1

/-- Does something on the stream at a place; `otherwise` is the result if there is none. -/
def update {α : Type} (io : Stdio) (n : StreamName) (place : Nat) (otherwise : α)
    (f : Stream → Stream × α) : Stdio × α :=
  match (io.installed n)[place]? with
  | none => (io, otherwise)
  | some s =>
    let (s', a) := f s
    (io.setInstalled ((io.installed n).set place s') n, a)

/-- A request to the stream in use under a name. -/
def perform (io : Stdio) (n : StreamName) (r : Sink.Request) : Stdio × Outcome :=
  io.update n (io.current n) (.ok .nothing) fun s => s.perform r

theorem installed_setInstalled (io : Stdio) (streams : List Stream) (n : StreamName) :
    (io.setInstalled streams n).installed n = streams := by cases n <;> rfl

theorem installed_setInstalled_of_ne {m n : StreamName} (h : m ≠ n) (io : Stdio)
    (streams : List Stream) : (io.setInstalled streams n).installed m = io.installed m := by
  cases m <;> cases n <;> first | rfl | exact absurd rfl h

end Stdio

end Outflow
