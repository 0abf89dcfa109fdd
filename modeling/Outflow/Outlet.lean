import Outflow.Destination
import Outflow.Pipe
import Outflow.Waiter

/-!
# Outlets, gates and channels

An outlet is a handle through which output is written.  Behind it stands a standard stream, or the
write end of a pipe, or a gate that admits one task at a time to the write end of a pipe, or nothing.

* `Channel`: a pipe with the tasks that wait for it;
* `Gate`: exclusive access to the write end of a pipe;
* `Backing`, `Outlet`: what stands behind an outlet, and the outlet;
* `Outlet.create?`, `Outlet.ofDestination`, `Outlet.ofName`, `Outlet.clone`.

All outlets that are made from one outlet for a pipe share its gate.
-/

namespace Outflow

open Text (Codes codesOf)

/-- A pipe with the tasks that wait for it. -/
structure Channel where
  pipe : Pipe
  waiting : List Waiter

/-- Exclusive access to the write end of a pipe: the task that has it, and those that queue for it. -/
structure Gate where
  pipe : Nat
  holder : Option Nat
  queue : List Waiter

namespace Gate

/-- A free gate. -/
def ofPipe (pipe : Nat) : Gate := ⟨pipe, none, []⟩

/-- Whether a task has the gate. -/
def isHeld (g : Gate) : Bool := g.holder.isSome

/-- Whether a newcomer is admitted at once: the gate is free, and all who queue were cancelled. -/
def isOpen (g : Gate) : Bool := !g.isHeld && g.queue.all fun w => w.mark == .cancelled

end Gate

/-- What stands behind an outlet. -/
inductive Backing
  | stream (name : StreamName)
  | gate (id : Nat)
  | pipe (id : Nat)
  deriving DecidableEq

/-- A handle through which output is written. -/
structure Outlet where
  destination : Destination
  backing : Option Backing
  deriving DecidableEq

namespace Outlet

/-- The outlet for a standard stream. -/
def ofStream (n : StreamName) : Outlet := ⟨.ofStream n, some (.stream n)⟩

/-- The outlet for a pipe behind a gate. -/
def ofGate (gate : Nat) : Outlet := ⟨.pipe, some (.gate gate)⟩

/-- The outlet for nothing. -/
def null : Outlet := ⟨.null, none⟩

/-- An outlet with a given backing; an outlet for nothing has none, and any other has one. -/
def create? (d : Destination) (b : Option Backing) : Option Outlet :=
  if b.isNone = (d = .null) then some ⟨d, b⟩ else none

/-- The outlet for a destination that needs no pipe. -/
def ofDestination : Destination → Option Outlet
  | .stdout => some (.ofStream .stdout)
  | .stderr => some (.ofStream .stderr)
  | .null => some .null
  | _ => none

/-- The outlet for the destination that a user names. -/
def ofName (given : Codes) : Except Destination.NameError Outlet :=
  match Destination.named given with
  | .error e => .error e
  | .ok d => match ofDestination d with
    | some o => .ok o
    | none => .error .pipe

/-- Another outlet for the same destination: it shares a pipe's backing, and has a standard stream or
nothing to itself. -/
def clone (o : Outlet) : Except Fault Outlet :=
  match o.destination with
  | .stdout => .ok (.ofStream .stdout)
  | .stderr => .ok (.ofStream .stderr)
  | .pipe => .ok ⟨.pipe, o.backing⟩
  | .null => .ok .null
  | .other name => .error (.unhandled (codesOf name))

/-- Whether a clone stands before the very backing of the outlet. -/
def sharesBacking (o : Outlet) : Bool := o.destination == .pipe || o.destination == .null

/-- What an outlet for nothing answers to a request. -/
def nullAnswer : Sink.Request → Answer
  | .write data => .count data.length
  | _ => .nothing

end Outlet

end Outflow
