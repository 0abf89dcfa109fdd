import Outflow.Routing.Basic
import Outflow.Session.Settle

/-!
# Steps of a script

A script makes pipes and outlets, calls them by the names it gives them, and looks at what has become of
them.

* `Member`: what a name stands for;
* `Method`, `Method.call?`: what can be called, and on which members;
* `View`: what can be looked at;
* `Step`: one step of a script.
-/

namespace Outflow.Script

/-- What a name stands for. -/
inductive Member
  | readEnd (pipe : Nat)
  | writeEnd (pipe : Nat)
  | outlet (place : Nat)
  | gate (place : Nat)
  | stream (name : StreamName)
  deriving DecidableEq

/-- The kind of a member, as messages name it. -/
def Member.kind : Member → String
  | .readEnd _ => "PipeReader"
  | .writeEnd _ => "PipeWriter"
  | .outlet _ => "GhciWriter"
  | .gate _ => "SharedPipe"
  | .stream _ => "StdStream"

/-- The backing that a member can be. -/
def Member.backing? : Member → Option Backing
  | .writeEnd p => some (.pipe p)
  | .gate g => some (.gate g)
  | .stream n => some (.stream n)
  | _ => none

/-- Whether a member can be written to, flushed and shut down. -/
def Member.isSink : Member → Bool
  | .readEnd _ => false
  | _ => true

/-- What can be called on a member. -/
inductive Method
  | sink (r : Sink.Request)
  | writeAll (data : Bytes)
  | read (limit : Int)
  | readLine
  | close
  /-- The next line of an iteration. -/
  | next
  /-- All lines of an iteration. -/
  | lines
  /-- Read from a pipe and write to an outlet, to the end. -/
  | forward (limit : Int) (target : Member)
  /-- Enter a block that uses the member. -/
  | enter
  /-- Leave such a block, after a failure or not. -/
  | leave (failing : Bool)

/-- The name of a method, as messages name it. -/
def Method.name : Method → String
  | .sink r => r.verb
  | .writeAll _ => "write_all"
  | .read _ | .forward .. => "read"
  | .readLine => "readline"
  | .close => "close"
  | .next => "__anext__"
  | .lines => "__aiter__"
  | .enter => "__aenter__"
  | .leave _ => "__aexit__"

/-- The call of a method on a member that has it.  Leaving a block closes a read end, shuts a write end
down, and flushes an outlet unless the block failed. -/
def Method.call? : Method → Member → Option Call
  | .sink r, .outlet o => some (.outlet o r)
  | .sink r, m => m.backing?.map fun b => .backing b r
  | .writeAll data, .outlet o => some (.writeAll o data)
  | .read limit, .readEnd p => some (.read p limit)
  | .readLine, .readEnd p => some (.readLine p)
  | .close, .readEnd p => some (.close p)
  | .next, .readEnd p => some (.nextLine p)
  | .lines, .readEnd p => some (.lines p [])
  | .forward limit (.outlet o), .readEnd p => some (.forward p limit o 0 .read)
  | .enter, .readEnd _ | .enter, .writeEnd _ | .enter, .outlet _ => some (.idle (.flag true))
  | .leave _, .readEnd p => some (.close p)
  | .leave _, .writeEnd p => some (.backing (.pipe p) .shutdown)
  | .leave failing, .outlet o => some (if failing then .idle .nothing else .outlet o .flush)
  | _, _ => none

/-- What can be looked at. -/
inductive View
  /-- The member in words. -/
  | words
  /-- Whether the member can be written to, flushed and shut down. -/
  | isSink
  /-- What an outlet is for. -/
  | destination
  /-- Whether a write end can no longer be written to. -/
  | isClosing
  /-- Whether a read end has come to the end. -/
  | atEof
  /-- Whether a gate is held. -/
  | locked

/-- One step of a script; the first argument of a step that makes a member is its name. -/
inductive Step
  | pipe (name : String) (capacity : Int)
  | outlet (name : String) (o : Outlet)
  | pipeOutlet (name pipe : String)
  /-- An outlet before the backing that a name stands for, or before none. -/
  | outletBefore (name : String) (d : Destination) (backing : Option String)
  /-- An outlet for the destination that a user names. -/
  | namedOutlet (name given : String)
  /-- A gate before the write end of a pipe. -/
  | gate (name pipe : String)
  | stream (name given : String)
  /-- A pipe that captures output, with an outlet. -/
  | capture (name : String) (asked : Routing.Asked)
  | clone (name source : String)
  /-- Gives an outlet another destination. -/
  | retarget (name destination : String)
  | view (name : String) (v : View)
  | call (task name : String) (m : Method)
  /-- Forward from a read end to an outlet. -/
  | forward (task name : String) (limit : Int) (target : String)
  | cancel (task : String)
  | settle
  | redirect (n : StreamName) (traits : Stream.Traits)
  | print (n : StreamName) (text : String)
  | streams
  | configure (given : Log.Overrides)
  | reset
  | setUpLog (given : Log.Overrides)
  | tearDownLog
  | isConfigured
  | emit (n : Notice)
  | log (severity : Log.Severity) (event : String) (given : Log.Fields)
  | foreignLog (severity : Log.Severity) (message : String)
  | handlers
  | files

end Outflow.Script
