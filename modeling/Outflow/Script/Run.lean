import Outflow.Script.Report

/-!
# Running a script

* `Script.State`: a session with the names that a script gave to its members and tasks;
* `Script.State.perform`: what one step does at once;
* `Script.State.report`: how everything stands;
* `Script.State.step`: a step, the settling of the session after it, and the report.
-/

namespace Outflow.Script

/-- A session with the names given in a script. -/
structure State where
  session : Session
  environment : Environment
  members : List (String × Member)
  /-- The names of the tasks, by their places. -/
  tasks : List String
  /-- The names of the pipes, by their places. -/
  pipes : List String
  /-- The number of notices that were reported. -/
  noticesSeen : Nat
  /-- The number of ended tasks that were reported. -/
  endingsSeen : Nat

/-- What a step does at once. -/
abbrev Performed := State × Except Failure Result

namespace State

/-- Nothing has been done yet. -/
def start (environment : Environment) (out err : Stream.Traits) : State :=
  ⟨.start out err, environment, [], [], [], 0, 0⟩

/-- What a name stands for. -/
def member (st : State) (name : String) : Except Failure Member :=
  match st.members.lookup name with
  | some m => .ok m
  | none => .error (.unknownMember name)

/-- The outlet of a name, with its place. -/
def outlet (st : State) (name part : String) : Except Failure (Nat × Outlet) :=
  match st.member name with
  | .error e => .error e
  | .ok m =>
    match m with
    | .outlet o =>
      match st.session.outlets[o]? with
      | some outlet => .ok (o, outlet)
      | none => .error (.unknownMember name)
    | m => .error (.lacks m.kind part)

/-- The name of a pipe's read end. -/
def readEndName (pipe : String) : String := pipe ++ ".r"

/-- The name of a pipe's write end. -/
def writeEndName (pipe : String) : String := pipe ++ ".w"

/-- The pipe of a name. -/
def pipeNamed (st : State) (name : String) : Except Failure Nat :=
  match st.member (readEndName name) with
  | .ok (.readEnd p) => .ok p
  | _ => .error (.unknownMember (writeEndName name))

/-- Gives a name to a new member. -/
def addMember (st : State) (name : String) (m : Member) : State :=
  { st with members := st.members ++ [(name, m)] }

/-- A new outlet with its name, in words. -/
def addOutlet (st : State) (name : String) (o : Outlet) : State × String :=
  let (session, place) := st.session.addOutlet o
  ({ st with session }.addMember name (.outlet place), session.describeOutlet o)

/-- A new outlet for a pipe with its name, in words. -/
def addPipeOutlet (st : State) (name : String) (pipe : Nat) : State × String :=
  let (session, gate) := st.session.addGate pipe
  { st with session }.addOutlet name (.ofGate gate)

/-- A new pipe with the names of its read end and of itself. -/
def addPipe (st : State) (name : String) (p : Pipe) : State × Nat :=
  let (session, place) := st.session.addPipe p
  ({ st with session, pipes := st.pipes ++ [name] }.addMember (readEndName name) (.readEnd place),
    place)

/-- The new pipe of a script. -/
def makePipe (st : State) (name : String) (capacity : Int) : Performed :=
  match Pipe.create? capacity with
  | none => (st, .error (.capacity capacity))
  | some pipe =>
    let (st, place) := st.addPipe name pipe
    (st.addMember (writeEndName name) (.writeEnd place),
      .ok (.words (st.session.describeWriteEnd place)))

/-- A new outlet that is already made. -/
def makeOutlet (st : State) (name : String) (o : Outlet) : Performed :=
  let (st, words) := st.addOutlet name o
  (st, .ok (.words words))

/-- A new outlet for a pipe. -/
def makePipeOutlet (st : State) (name pipe : String) : Performed :=
  match st.pipeNamed pipe with
  | .error e => (st, .error e)
  | .ok p =>
    let (st, words) := st.addPipeOutlet name p
    (st, .ok (.words words))

/-- The backing that a name stands for, if there is a name. -/
def backingNamed (st : State) : Option String → Except Failure (Option Backing)
  | none => .ok none
  | some name =>
    match st.member name with
    | .error e => .error e
    | .ok m => .ok m.backing?

/-- A new outlet before a given backing. -/
def makeOutletBefore (st : State) (name : String) (d : Destination) (backing : Option String) :
    Performed :=
  match st.backingNamed backing with
  | .error e => (st, .error e)
  | .ok b =>
    match Outlet.create? d b with
    | some o => st.makeOutlet name o
    | none => (st, .error (.backing d.name (st.session.describeBacking? b)))

/-- A new outlet for the destination that a user names. -/
def makeNamedOutlet (st : State) (name given : String) : Performed :=
  match Outlet.ofName (Text.codesOf given) with
  | .ok o => st.makeOutlet name o
  | .error e => (st, .error (.destinationName e))

/-- A new gate before the write end of a pipe. -/
def makeGate (st : State) (name pipe : String) : Performed :=
  match st.pipeNamed pipe with
  | .error e => (st, .error e)
  | .ok p =>
    let (session, gate) := st.session.addGate p
    ({ st with session }.addMember name (.gate gate),
      .ok (.words (session.describeBacking (.gate gate))))

/-- A name for a standard stream. -/
def makeStream (st : State) (name given : String) : Performed :=
  match StreamName.ofName? given with
  | some n => (st.addMember name (.stream n), .ok (.words n.describe))
  | none => (st, .error (.streamName given))

/-- A new pipe of the capacity that is asked for, with an outlet. -/
def makeCapture (st : State) (name : String) (asked : Routing.Asked) : Performed :=
  match Routing.ofAsked asked with
  | .error e => (st, .error (.routing e))
  | .ok routing =>
    match routing.capturePipe with
    | none => (st, .error (.capacity routing.capacity))
    | some pipe =>
      let (st, place) := st.addPipe name pipe
      let (st, words) := st.addPipeOutlet name place
      (st, .ok (.words words))

/-- A new outlet for the destination of another one. -/
def makeClone (st : State) (name source : String) : Performed :=
  match st.outlet source "clone" with
  | .error e => (st, .error e)
  | .ok (_, o) =>
    match o.clone with
    | .error f => (st, .error (.fault f))
    | .ok c =>
      let (st, words) := st.addOutlet name c
      (st, .ok (.cloned words o.sharesBacking))

/-- Gives an outlet a destination that is none of the known ones. -/
def retarget (st : State) (name destination : String) : Performed :=
  match st.outlet name "_kind" with
  | .error e => (st, .error e)
  | .ok (place, o) =>
    let o : Outlet := { o with destination := .other destination }
    ({ st with session := { st.session with outlets := st.session.outlets.set place o } },
      .ok .nothing)

/-- An outlet in words; one with an unknown destination has no wording. -/
def outletWords (st : State) (o : Outlet) : Except Failure Result :=
  match o.destination with
  | .other _ => .error (.lacks "str" "value")
  | _ => .ok (.words (st.session.describeOutlet o))

/-- A member in words. -/
def memberWords (st : State) : Member → Except Failure Result
  | .readEnd p => .ok (.words (st.session.describeReadEnd p))
  | .writeEnd p => .ok (.words (st.session.describeWriteEnd p))
  | .gate g => .ok (.words (st.session.describeBacking (.gate g)))
  | .stream n => .ok (.words n.describe)
  | .outlet o =>
    match st.session.outlets[o]? with
    | some outlet => st.outletWords outlet
    | none => .ok .nothing

/-- What can be seen of the pipe at a place. -/
def pipeFlag (st : State) (p : Nat) (f : Pipe → Bool) : Except Failure Result :=
  .ok (.flag (((st.session.channels[p]?).map fun c => f c.pipe).getD false))

/-- A look at a member. -/
def look (st : State) (m : Member) : View → Except Failure Result
  | .words => st.memberWords m
  | .isSink => .ok (.flag m.isSink)
  | .destination =>
    match m with
    | .outlet o => .ok (.words (st.session.destinationOf (some o)).name)
    | m => .error (.lacks m.kind "kind")
  | .isClosing =>
    match m with
    | .writeEnd p => st.pipeFlag p Pipe.isClosing
    | m => .error (.lacks m.kind "is_closing")
  | .atEof =>
    match m with
    | .readEnd p => st.pipeFlag p Pipe.atEof
    | m => .error (.lacks m.kind "at_eof")
  | .locked =>
    match m with
    | .gate g => .ok (.flag (st.session.gateHeld g))
    | m => .error (.lacks m.kind "locked")

/-- A new task for a method of a member. -/
def call (st : State) (task : String) (method : Method) (m : Member) : Performed :=
  match method.call? m with
  | none => (st, .error (.lacks m.kind method.name))
  | some c =>
    let (session, _) := st.session.spawn c
    ({ st with session, tasks := st.tasks ++ [task] }, .ok .nothing)

/-- A new task for a method of the member with a name. -/
def callNamed (st : State) (task name : String) (method : Method) : Performed :=
  match st.member name with
  | .error e => (st, .error e)
  | .ok m => st.call task method m

/-- A new task that forwards to the member with a name. -/
def forward (st : State) (task name : String) (limit : Int) (target : String) : Performed :=
  match st.member target with
  | .error e => (st, .error e)
  | .ok m => st.callNamed task name (.forward limit m)

/-- Asks the task with a name to end. -/
def cancel (st : State) (task : String) : Performed :=
  match st.tasks.idxOf? task with
  | none => (st, .error (.unknownMember task))
  | some t =>
    let (session, accepted) := st.session.cancel t
    ({ st with session }, .ok (.flag accepted))

/-- Writes text to a standard stream. -/
def print (st : State) (n : StreamName) (text : String) : Performed :=
  let io := st.session.stdio
  let (stdio, result) := io.update n (io.current n) (.ok ()) fun s => s.writeText text
  let st := { st with session := { st.session with stdio } }
  match result with
  | .ok () => (st, .ok .nothing)
  | .error f => (st, .error (.fault f))

/-- All standard streams; the calls made on them are forgotten. -/
def streams (st : State) : Performed :=
  let io := st.session.stdio
  let forget : Stream → Stream := fun s => { s with calls := [] }
  let stdio : Stdio := ⟨io.out.map forget, io.err.map forget⟩
  ({ st with session := { st.session with stdio } }, .ok (.streams io.out io.err))

/-- Replaces the journal and the standard streams. -/
def setJournal (st : State) (journal : Log.Journal) (stdio : Stdio) : State :=
  { st with session := { st.session with journal, stdio } }

/-- Turns the journal on. -/
def configure (st : State) (given : Log.Overrides) : Performed :=
  let settings := Log.Settings.resolve st.environment given
  match st.session.journal.configure st.session.stdio settings with
  | (journal, stdio, .ok already) =>
    (st.setJournal journal stdio, .ok (.configured already journal.configured))
  | (journal, stdio, .error e) => (st.setJournal journal stdio, .error (.setup e))

/-- Sets up the log alone. -/
def setUpLog (st : State) (given : Log.Overrides) : Performed :=
  let settings := Log.Settings.resolve st.environment given
  let stdio := st.session.stdio
  match st.session.journal.setup stdio settings with
  | (journal, .ok ()) => (st.setJournal journal stdio, .ok .nothing)
  | (journal, .error e) => (st.setJournal journal stdio, .error (.setup e))

/-- The outcome of writing to the log. -/
def logged (st : State) : Log.Journal × Stdio × Except Fault Unit → Performed
  | (journal, stdio, .ok ()) => (st.setJournal journal stdio, .ok .nothing)
  | (journal, stdio, .error f) => (st.setJournal journal stdio, .error (.fault f))

/-- What a step does at once. -/
def perform (st : State) : Step → Performed
  | .pipe name capacity => st.makePipe name capacity
  | .outlet name o => st.makeOutlet name o
  | .pipeOutlet name pipe => st.makePipeOutlet name pipe
  | .outletBefore name d backing => st.makeOutletBefore name d backing
  | .namedOutlet name given => st.makeNamedOutlet name given
  | .gate name pipe => st.makeGate name pipe
  | .stream name given => st.makeStream name given
  | .capture name asked => st.makeCapture name asked
  | .clone name source => st.makeClone name source
  | .retarget name destination => st.retarget name destination
  | .view name v => (st, (st.member name).bind fun m => st.look m v)
  | .call task name m => st.callNamed task name m
  | .forward task name limit target => st.forward task name limit target
  | .cancel task => st.cancel task
  | .settle => (st, .ok .nothing)
  | .redirect n traits =>
    ({ st with session := { st.session with stdio := st.session.stdio.install n (.fresh traits) } },
      .ok .nothing)
  | .print n text => st.print n text
  | .streams => st.streams
  | .configure given => st.configure given
  | .reset => (st.setJournal st.session.journal.reset st.session.stdio, .ok .nothing)
  | .setUpLog given => st.setUpLog given
  | .tearDownLog => (st.setJournal st.session.journal.teardown st.session.stdio, .ok .nothing)
  | .isConfigured => (st, .ok (.flag st.session.journal.configured))
  | .emit n => ({ st with session := st.session.post n }, .ok .nothing)
  | .log severity event given =>
    st.logged (st.session.journal.writeEvent st.session.stdio severity event given)
  | .foreignLog severity message =>
    st.logged (st.session.journal.write st.session.stdio (.foreign severity message))
  | .handlers =>
    let journal := st.session.journal
    (st, .ok (.handlers journal.handlers.length (journal.own.map Log.Handler.kind)))
  | .files => (st, .ok (.files st.session.journal.files.listing))

/-- A task by its name, with its outcome if it has ended. -/
def namedTasks (st : State) : List (String × Option Outcome) :=
  st.tasks.zip (st.session.tasks.map Task.outcome?)

/-- How a task with a place ended. -/
def ending? (st : State) (t : Nat) : Option (String × Outcome) :=
  match st.namedTasks[t]? with
  | some (name, some outcome) => some (name, outcome)
  | _ => none

/-- Whether a member is held, or the gate behind it. -/
def isLocked (st : State) : Member → Bool
  | .outlet o => st.session.outletLocked o
  | .gate g => st.session.gateHeld g
  | _ => false

/-- How everything stands, with the result of a step. -/
def report (st : State) (result : Except Failure Result) : Report where
  result := result
  ended := (st.session.endings.drop st.endingsSeen).filterMap st.ending?
  notices := st.session.notices.drop st.noticesSeen
  pending := (st.namedTasks.filter fun t => t.2.isNone).map Prod.fst
  pipes := st.pipes.zip (st.session.channels.map Channel.pipe)
  locked := (st.members.filter fun m => st.isLocked m.2).map Prod.fst

/-- Everything that has happened counts as reported. -/
def seen (st : State) : State :=
  { st with
    noticesSeen := st.session.notices.length
    endingsSeen := st.session.endings.length }

/-- A step, after which the session settles unless it is `hasty`, and the report. -/
def step (st : State) (s : Step) (hasty : Bool) : State × Report :=
  let (st, result) := st.perform s
  let st := if hasty then st else { st with session := st.session.settle }
  (st.seen, st.report result)

/-- The reports on a list of steps, each with whether it is hasty. -/
def run (st : State) : List (Step × Bool) → List Report
  | [] => []
  | (s, hasty) :: rest =>
    let (st, report) := st.step s hasty
    report :: st.run rest

@[simp] theorem run_nil (st : State) : st.run [] = [] := rfl

@[simp] theorem length_run (st : State) (steps : List (Step × Bool)) :
    (st.run steps).length = steps.length := by
  induction steps generalizing st with
  | nil => rfl
  | cons s rest ih => exact congrArg (· + 1) (ih _)

end State

end Outflow.Script
