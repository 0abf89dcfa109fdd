import Outflow.Outlet

/-!
# Tasks

A task carries out one call.  A call is a series of operations; each is answered at once or is a request
to a pipe, a stream or an outlet, and its outcome decides how the call goes on.

* `Call`, `Call.operation`, `Call.resume`: the calls, the operation that comes next, and what follows
  its outcome;
* `Stage`, `Task`: how far a task has come.
-/

namespace Outflow

/-- The part of a forwarding call that comes next. -/
inductive Leg
  | read
  /-- Write the rest of a chunk that had `size` bytes. -/
  | write (rest : Bytes) (size : Nat)
  | flush

/-- A call. -/
inductive Call
  /-- Answered without doing anything. -/
  | idle (answer : Answer)
  /-- A request to a stream, a gate or a write end that no outlet stands before. -/
  | backing (b : Backing) (r : Sink.Request)
  /-- A request to an outlet. -/
  | outlet (o : Nat) (r : Sink.Request)
  /-- Write all bytes that are left through an outlet. -/
  | writeAll (o : Nat) (rest : Bytes)
  /-- Read at most `limit` bytes from a pipe, or to the end if `limit` is negative. -/
  | read (p : Nat) (limit : Int)
  | readLine (p : Nat)
  | close (p : Nat)
  /-- The next line, which there must be. -/
  | nextLine (p : Nat)
  /-- All lines to the end, after those got so far. -/
  | lines (p : Nat) (got : List Bytes)
  /-- Read from a pipe and write to an outlet, to the end. -/
  | forward (p : Nat) (limit : Int) (o : Nat) (total : Nat) (leg : Leg)

/-- One step of a call. -/
inductive Operation
  | answered (outcome : Outcome)
  | onPipe (p : Nat) (r : Pipe.Request)
  | onBacking (b : Backing) (r : Sink.Request)
  | onOutlet (o : Nat) (r : Sink.Request)

/-- Reading at most `limit` bytes, nothing at all, or to the end. -/
def Operation.read (p : Nat) (limit : Int) : Operation :=
  if limit = 0 then .answered (.ok (.bytes []))
  else if 0 < limit then .onPipe p (.read limit.toNat)
  else .onPipe p (.drain [])

namespace Call

/-- The operation that comes next. -/
def operation : Call → Operation
  | .idle answer => .answered (.ok answer)
  | .backing b r => .onBacking b r
  | .outlet o r => .onOutlet o r
  | .writeAll _ [] => .answered (.ok .nothing)
  | .writeAll o rest => .onOutlet o (.write rest)
  | .read p limit => .read p limit
  | .readLine p => .onPipe p .readLine
  | .close p => .onPipe p .close
  | .nextLine p => .onPipe p .readLine
  | .lines p _ => .onPipe p .readLine
  | .forward p limit _ _ .read => .read p limit
  | .forward _ _ o _ (.write rest _) => .onOutlet o (.write rest)
  | .forward _ _ o _ .flush => .onOutlet o .flush

/-- How a call goes on after an operation. -/
inductive Next
  | done (outcome : Outcome)
  | more (call : Call)

/-- What is left of `rest` after a write of it; that nothing at all was taken is a fault. -/
def leftAfter (destination : Destination) (rest : Bytes) : Outcome → Except Fault Bytes
  | .error f => .error f
  | .ok (.count 0) => .error (.stalled destination.name rest.length)
  | .ok (.count n) => .ok (rest.drop n)
  | .ok _ => .ok []

/-- What follows the outcome of an operation; the outlet of the call, if any, is for `destination`. -/
def resume (destination : Destination) : Call → Outcome → Next
  | .writeAll _ [], outcome => .done outcome
  | .writeAll o rest, outcome =>
    match leftAfter destination rest outcome with
    | .error f => .done (.error f)
    | .ok [] => .done (.ok .nothing)
    | .ok left => .more (.writeAll o left)
  | .nextLine _, .ok (.bytes []) => .done (.error .endOfLines)
  | .lines _ got, .ok (.bytes []) => .done (.ok (.lines got))
  | .lines p got, .ok (.bytes line) => .more (.lines p (got ++ [line]))
  | .forward p limit o total .read, .ok (.bytes []) => .more (.forward p limit o total .flush)
  | .forward p limit o total .read, .ok (.bytes chunk) =>
    .more (.forward p limit o total (.write chunk chunk.length))
  | .forward p limit o total (.write rest size), outcome =>
    match leftAfter destination rest outcome with
    | .error f => .done (.error f)
    | .ok [] => .more (.forward p limit o (total + size) .read)
    | .ok left => .more (.forward p limit o total (.write left size))
  | .forward _ _ _ total .flush, .ok _ => .done (.ok (.count total))
  | _, outcome => .done outcome

/-- The outlet of a call. -/
def outlet? : Call → Option Nat
  | .outlet o _ | .writeAll o _ | .forward _ _ o _ _ => some o
  | _ => none

/-- The number of bytes that a call still has to write. -/
def owed : Call → Nat
  | .backing _ (.write data) | .outlet _ (.write data) => data.length
  | .writeAll _ rest | .forward _ _ _ _ (.write rest _) => rest.length
  | _ => 0

/-- Whether a call moves bytes from a pipe to an outlet. -/
def isForward : Call → Bool
  | .forward .. => true
  | _ => false

end Call

/-- How far a task has come with the present operation of its call. -/
inductive Stage
  /-- The operation has not begun. -/
  | fresh
  /-- The task queues for a gate. -/
  | atGate (gate : Nat) (request : Pipe.Request)
  /-- The task waits for a pipe, and has the gate if there is one. -/
  | inPipe (gate : Option Nat) (pipe : Nat) (request : Pipe.Request)
  | ended (outcome : Outcome)

/-- A call that is carried out. -/
structure Task where
  call : Call
  stage : Stage
  /-- What the outlet of the call was for when the present operation began. -/
  entry : Destination
  /-- Whether the task is to end when it runs next. -/
  cancelling : Bool

namespace Task

/-- A task that has not run. -/
def ofCall (call : Call) : Task := ⟨call, .fresh, .null, false⟩

/-- How a task ended. -/
def outcome? (t : Task) : Option Outcome :=
  match t.stage with
  | .ended outcome => some outcome
  | _ => none

/-- Whether a task has not ended. -/
def isUnfinished (t : Task) : Bool := t.outcome?.isNone

end Task

end Outflow
