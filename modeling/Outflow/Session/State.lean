import Outflow.Log.Journal
import Outflow.Task

/-!
# Sessions

Everything that outlets, pipes and tasks share: the channels and gates, the outlets, the tasks with the
queue of those that are ready to run, the standard streams, and the journal.

* `Job`, `Session`, `Session.start`;
* `Session.addPipe`, `addGate`, `addOutlet`, `spawn`: new members, at the end of their lists;
* `Session.describePipe`, `describeBacking`, `describeOutlet`: members in words.

Members are known by their places, and none is ever removed.
-/

namespace Outflow

/-- What is put in the ready queue: a task, or a notice for `copies` subscribers. -/
inductive Job
  | task (id : Nat)
  | deliver (notice : Notice) (copies : Nat)
  deriving DecidableEq

/-- The state of a session. -/
structure Session where
  channels : List Channel
  gates : List Gate
  outlets : List Outlet
  tasks : List Task
  /-- What is to run, in order. -/
  ready : List Job
  /-- The notices of outlets so far. -/
  notices : List Notice
  /-- The tasks that ended so far, in the order in which they ended. -/
  endings : List Nat
  stdio : Stdio
  journal : Log.Journal

namespace Session

/-- A session in which nothing was made yet, with its two standard streams. -/
def start (stdout stderr : Stream.Traits) : Session :=
  { channels := [], gates := [], outlets := [], tasks := [], ready := [], notices := [], endings := [],
    stdio := ⟨[.fresh stdout], [.fresh stderr]⟩, journal := .start }

/-- A new pipe, and its place. -/
def addPipe (s : Session) (p : Pipe) : Session × Nat :=
  ({ s with channels := s.channels ++ [⟨p, []⟩] }, s.channels.length)

/-- A new gate before the write end of a pipe, and its place. -/
def addGate (s : Session) (pipe : Nat) : Session × Nat :=
  ({ s with gates := s.gates ++ [.ofPipe pipe] }, s.gates.length)

/-- A new outlet, and its place. -/
def addOutlet (s : Session) (o : Outlet) : Session × Nat :=
  ({ s with outlets := s.outlets ++ [o] }, s.outlets.length)

/-- A new task, ready to run after all others, and its place. -/
def spawn (s : Session) (c : Call) : Session × Nat :=
  ({ s with tasks := s.tasks ++ [.ofCall c], ready := s.ready ++ [.task s.tasks.length] },
    s.tasks.length)

@[simp] theorem tasks_spawn (s : Session) (c : Call) :
    (s.spawn c).1.tasks = s.tasks ++ [.ofCall c] := rfl

@[simp] theorem ready_spawn (s : Session) (c : Call) :
    (s.spawn c).1.ready = s.ready ++ [.task s.tasks.length] := rfl

/-- Replaces the stage of a task. -/
def setStage (s : Session) (t : Nat) (stage : Stage) : Session :=
  { s with tasks := s.tasks.modify t fun task => { task with stage } }

/-- What an outlet is for; an outlet that is not there is for nothing. -/
def destinationOf (s : Session) (o : Option Nat) : Destination :=
  ((o.bind fun o => s.outlets[o]?).map Outlet.destination).getD .null

/-- Whether a gate is held. -/
def gateHeld (s : Session) (g : Nat) : Bool := ((s.gates[g]?).map Gate.isHeld).getD false

/-- Whether the gate behind an outlet, if there is one, is held. -/
def outletLocked (s : Session) (o : Nat) : Bool :=
  match (s.outlets[o]?).bind Outlet.backing with
  | some (.gate g) => s.gateHeld g
  | _ => false

/-- The state of a pipe in words. -/
def describePipe (s : Session) (p : Nat) : String :=
  ((s.channels[p]?).map fun c => c.pipe.describe).getD ""

/-- The write end of a pipe in words. -/
def describeWriteEnd (s : Session) (p : Nat) : String := "PipeWriter(" ++ s.describePipe p ++ ")"

/-- The read end of a pipe in words. -/
def describeReadEnd (s : Session) (p : Nat) : String := "PipeReader(" ++ s.describePipe p ++ ")"

/-- A backing in words. -/
def describeBacking (s : Session) : Backing → String
  | .stream n => n.describe
  | .pipe p => s.describeWriteEnd p
  | .gate g =>
    let pipe := ((s.gates[g]?).map Gate.pipe).getD 0
    "SharedPipe(" ++ s.describeWriteEnd pipe ++ ", locked=" ++ Pipe.flagWord (s.gateHeld g) ++ ")"

/-- A backing, or that there is none, in words. -/
def describeBacking? (s : Session) : Option Backing → String
  | some b => s.describeBacking b
  | none => "None"

/-- An outlet in words. -/
def describeOutlet (s : Session) (o : Outlet) : String :=
  "GhciWriter(kind='" ++ o.destination.name ++ "', backend=" ++ s.describeBacking? o.backing ++ ")"

end Session

end Outflow
