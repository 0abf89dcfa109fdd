import Outflow.Session.Turn

/-!
# Settling

A session settles when jobs are taken from the ready queue until it is empty.

* `Session.run`: a number of turns;
* `Session.budget`: a number of turns that is enough;
* `Session.settle`.

Every job that puts others in the queue ends a task or moves bytes on: to their pipe, or out of it.  A
byte that is still to be written counts twice and one in a pipe once, and each forwarding call may carry
it back to be written once more.  Such a job puts in no more others than there are tasks, and a few.
-/

namespace Outflow.Session

/-- A number of turns, or fewer if the queue is empty before. -/
def run (s : Session) : Nat → Session
  | 0 => s
  | n + 1 => if s.ready.isEmpty then s else s.turn.run n

@[simp] theorem run_zero (s : Session) : s.run 0 = s := rfl

theorem run_of_ready_nil {s : Session} (h : s.ready = []) (n : Nat) : s.run n = s := by
  cases n with
  | zero => rfl
  | succ n => simp [run, h]

/-- The tasks that have not ended. -/
def unfinished (s : Session) : List Task := s.tasks.filter Task.isUnfinished

/-- The bytes that are still to be written. -/
def owed (s : Session) : Nat := (s.unfinished.map fun t => t.call.owed).foldr (· + ·) 0

/-- The bytes in the pipes. -/
def buffered (s : Session) : Nat :=
  (s.channels.map fun c => c.pipe.buffer.length).foldr (· + ·) 0

/-- The unfinished forwarding calls. -/
def forwards (s : Session) : Nat := (s.unfinished.filter fun t => t.call.isForward).length

/-- The jobs that may still put others in the queue. -/
def potential (s : Session) : Nat :=
  (2 * s.owed + s.buffered) * Nat.pow 3 s.forwards + 2 * s.unfinished.length

/-- A number of turns that is enough for the queue to be empty. -/
def budget (s : Session) : Nat := s.potential * (s.unfinished.length + 3) + s.ready.length

/-- Works the ready queue off. -/
def settle (s : Session) : Session := s.run s.budget

end Outflow.Session
