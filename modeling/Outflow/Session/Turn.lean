import Outflow.Session.State

/-!
# Turns

The ready queue is worked off one job at a time.  A task that is given its turn carries out one
operation: it ends, or waits, or goes on with the next operation at the front of the queue, so that no
other task runs in between.

* `Session.emit`: a notice, recorded and posted to the journal;
* `Session.serve`: a request to a pipe, from a task that may have a gate;
* `Session.release`: giving a gate back;
* `Session.complete`: the outcome of an operation;
* `Session.begin`, `Session.abandon`: the start of an operation, and the end of a cancelled task;
* `Session.turn`: the first job of the queue;
* `Session.cancel`: asking a task to end.
-/

namespace Outflow.Session

/-- Puts a notice in the ready queue, if the journal passes notices on. -/
def post (s : Session) (n : Notice) : Session :=
  if s.journal.emitting && s.journal.subscribers != 0 then
    { s with ready := s.ready ++ [.deliver n s.journal.subscribers] }
  else s

/-- A notice of an outlet. -/
def emit (s : Session) (n : Notice) : Session := { s with notices := s.notices ++ [n] }.post n

/-- Puts tasks at the end of the ready queue. -/
def enqueue (s : Session) (ts : List Nat) : Session := { s with ready := s.ready ++ ts.map .task }

/-- The end of a task. -/
def finish (s : Session) (t : Nat) (outcome : Outcome) : Session :=
  { s.setStage t (.ended outcome) with endings := s.endings ++ [t] }

/-- The notice of an operation with its outcome, if it was one on an outlet. -/
def noticeOf? (s : Session) (task : Task) (outcome : Outcome) : Option Notice :=
  match task.call.operation with
  | .onOutlet o r => Notice.about? task.entry (s.destinationOf (some o)) r outcome
  | _ => none

/-- The outcome of the present operation of a task: its notice, and the end of the task or its next
operation. -/
def complete (s : Session) (t : Nat) (outcome : Outcome) : Session :=
  match s.tasks[t]? with
  | none => s
  | some task =>
    let s := match s.noticeOf? task outcome with
      | some n => s.emit n
      | none => s
    match task.call.resume (s.destinationOf task.call.outlet?) outcome with
    | .done outcome => s.finish t outcome
    | .more call =>
      { s with
        tasks := s.tasks.modify t fun task => { task with call, stage := .fresh }
        ready := .task t :: s.ready }

/-- Wakes the first who queues for a gate. -/
def wakeGate (s : Session) (g : Nat) : Session :=
  match s.gates[g]? with
  | none => s
  | some gate =>
    let (queue, ts) := Waiter.wakeFirst gate.queue
    { s with gates := s.gates.set g { gate with queue } }.enqueue ts

/-- Gives a gate back, if there is one, and wakes the first who queues for it. -/
def release (s : Session) : Option Nat → Session
  | none => s
  | some g =>
    { s with gates := s.gates.modify g fun gate => { gate with holder := none } }.wakeGate g

/-- The pipe at a place meets a request of a task, which has the gate if there is one. -/
def serve (s : Session) (t : Nat) (gate : Option Nat) (p : Nat) (r : Pipe.Request) : Session :=
  match s.channels[p]? with
  | none => s
  | some c =>
    let served := c.pipe.serve r
    let (waiting, ts) := if served.wakes then Waiter.wakeAll c.waiting else (c.waiting, [])
    match served.reply with
    | .wait again =>
      let c : Channel := ⟨served.pipe, waiting ++ [⟨t, .parked⟩]⟩
      let s := { s with channels := s.channels.set p c }.enqueue ts
      s.setStage t (.inPipe gate p again)
    | .done outcome =>
      let c : Channel := ⟨served.pipe, waiting⟩
      let s := { s with channels := s.channels.set p c }.enqueue ts
      (s.release gate).complete t outcome

/-- A task takes a gate and makes its request to the pipe behind it. -/
def enter (s : Session) (t g : Nat) (r : Pipe.Request) : Session :=
  match s.gates[g]? with
  | none => s
  | some gate =>
    let taken : Gate := { gate with holder := some t, queue := Waiter.without t gate.queue }
    { s with gates := s.gates.set g taken }.serve t (some g) gate.pipe r

/-- A request to a backing: to the pipe behind an open gate, or else into the queue of the gate.  A request to a
stream is carried out in the turn of the task that makes it and the task has its answer in the same turn.  The
program hands it to a thread and suspends the task until the thread is done; how long that takes, which requests
overlap meanwhile, and what becomes of the answer if the task is cancelled then, is left out. -/
def approach (s : Session) (t : Nat) (b : Backing) (r : Sink.Request) : Session :=
  match b with
  | .stream n =>
    let (stdio, outcome) := s.stdio.perform n r
    { s with stdio }.complete t outcome
  | .pipe p => s.serve t none p (.ofSink r)
  | .gate g =>
    match s.gates[g]? with
    | none => s
    | some gate =>
      if gate.isOpen then s.enter t g (.ofSink r)
      else
        let queued : Gate := { gate with queue := gate.queue ++ [⟨t, .parked⟩] }
        { s with gates := s.gates.set g queued }.setStage t (.atGate g (.ofSink r))

/-- The start of an operation of a task. -/
def begin (s : Session) (t : Nat) : Operation → Session
  | .answered outcome => s.complete t outcome
  | .onPipe p r => s.serve t none p r
  | .onBacking b r => s.approach t b r
  | .onOutlet o r =>
    match s.outlets[o]? with
    | none => s
    | some outlet =>
      let s := { s with tasks := s.tasks.modify t fun task =>
        { task with entry := outlet.destination } }
      match outlet.destination, outlet.backing with
      | .null, _ => s.complete t (.ok (Outlet.nullAnswer r))
      | .other name, _ => s.complete t (.error (.unhandled (Text.codesOf name)))
      | _, some b => s.approach t b r
      | d, none => s.complete t (.error (.unhandled (Text.codesOf d.name)))

/-- The end of a cancelled task.  It leaves its waiting list and gives back its gate; if it queued for
a gate that is free, it wakes the next. -/
def abandon (s : Session) (t : Nat) (stage : Stage) : Session :=
  let s := match stage with
    | .atGate g _ =>
      let s := { s with gates := s.gates.modify g fun gate =>
        { gate with queue := Waiter.without t gate.queue } }
      if s.gateHeld g then s else s.wakeGate g
    | .inPipe gate p _ =>
      { s with channels := s.channels.modify p fun c =>
        { c with waiting := Waiter.without t c.waiting } }.release gate
    | _ => s
  s.finish t (.error .cancelled)

/-- A task is given its turn. -/
def runTask (s : Session) (t : Nat) : Session :=
  match s.tasks[t]? with
  | none => s
  | some task =>
    match task.stage, task.cancelling with
    | .ended _, _ => s
    | stage, true => s.abandon t stage
    | .fresh, false => s.begin t task.call.operation
    | .atGate g r, false => s.enter t g r
    | .inPipe gate p r, false =>
      { s with channels := s.channels.modify p fun c =>
        { c with waiting := Waiter.without t c.waiting } }.serve t gate p r

/-- The subscribers record a notice. -/
def deliver (s : Session) (n : Notice) (copies : Nat) : Session :=
  let (journal, stdio) := s.journal.deliver s.stdio n copies
  { s with journal, stdio }

/-- The first job of the ready queue is done. -/
def turn (s : Session) : Session :=
  match s.ready with
  | [] => s
  | .task t :: rest => { s with ready := rest }.runTask t
  | .deliver n copies :: rest => { s with ready := rest }.deliver n copies

/-- Asks a task to end; the result says whether it had not ended yet.  A parked waiter is put in the
ready queue, and one that is in it already stays where it is. -/
def cancel (s : Session) (t : Nat) : Session × Bool :=
  match s.tasks[t]? with
  | none => (s, false)
  | some task =>
    let asked := { s with tasks := s.tasks.modify t fun task => { task with cancelling := true } }
    match task.stage with
    | .ended _ => (s, false)
    | .fresh => (asked, true)
    | .atGate g _ =>
      match s.gates[g]? with
      | none => (asked, true)
      | some gate =>
        if Waiter.isParked t gate.queue then
          let left : Gate := { gate with queue := Waiter.cancel t gate.queue }
          ({ asked with gates := s.gates.set g left }.enqueue [t], true)
        else (asked, true)
    | .inPipe _ p _ =>
      match s.channels[p]? with
      | none => (asked, true)
      | some c =>
        if Waiter.isParked t c.waiting then
          let left : Channel := { c with waiting := Waiter.cancel t c.waiting }
          ({ asked with channels := s.channels.set p left }.enqueue [t], true)
        else (asked, true)

end Outflow.Session
