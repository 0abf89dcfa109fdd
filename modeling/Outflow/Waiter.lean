/-!
# Waiting lists

Tasks wait for a pipe or for a gate in the order in which they began to wait.  A waiter stays in its
list until its task runs: it is parked, or it has been woken, or it was cancelled while it was parked.

* `Mark`, `Waiter`;
* `Waiter.wakeAll`, `Waiter.wakeFirst`: the list after a wake-up, and the tasks to put in the ready
  queue;
* `Waiter.without`, `Waiter.cancel`: leaving a list, and being cancelled in it.
-/

namespace Outflow

/-- How a waiter stands. -/
inductive Mark
  | parked
  | woken
  | cancelled
  deriving DecidableEq

/-- A task in a waiting list. -/
structure Waiter where
  task : Nat
  mark : Mark
  deriving DecidableEq

namespace Waiter

/-- Wakes a waiter that is parked. -/
def wake (w : Waiter) : Waiter := if w.mark = .parked then { w with mark := .woken } else w

/-- The tasks of the parked waiters, in order. -/
def parkedTasks (ws : List Waiter) : List Nat := (ws.filter fun w => w.mark = .parked).map task

/-- Wakes every parked waiter. -/
def wakeAll (ws : List Waiter) : List Waiter × List Nat := (ws.map wake, parkedTasks ws)

/-- Wakes the first waiter if it is parked.  Otherwise it is about to run and will see to the others. -/
def wakeFirst : List Waiter → List Waiter × List Nat
  | [] => ([], [])
  | w :: rest => (w.wake :: rest, if w.mark = .parked then [w.task] else [])

/-- A list without the waiter of a task. -/
def without (t : Nat) (ws : List Waiter) : List Waiter := ws.filter fun w => w.task != t

/-- Whether a task is parked in a list. -/
def isParked (t : Nat) (ws : List Waiter) : Bool := ws.contains ⟨t, .parked⟩

/-- Marks the parked waiter of a task as cancelled. -/
def cancel (t : Nat) (ws : List Waiter) : List Waiter :=
  ws.map fun w => if w = ⟨t, .parked⟩ then ⟨t, .cancelled⟩ else w

theorem wake_ne_parked (w : Waiter) : w.wake.mark ≠ .parked := by
  unfold wake
  split
  · simp
  · assumption

end Waiter

end Outflow
