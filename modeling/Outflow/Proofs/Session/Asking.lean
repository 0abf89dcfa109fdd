import Outflow.Proofs.Notices

/-!
# Requests to the standard streams

A turn touches the standard streams only where its task makes a request to one of them, directly or through an
outlet; what the stream answers is the outcome of the operation.

* `Session.streamOf?`, `Session.asking?`: the request that an operation, and the next turn, makes to a stream;
* `stdio_turn`, `stdio_turn_of_stream`, `stdio_cancel`: the standard streams after the turn of a task, and after
  the cancellation of one;
* `task_turn_of_asking`, `outcome_turn_of_asking`: what the task makes of the answer.
-/

namespace Outflow.Session

variable {s : Session} {t : Nat} {task : Task} {rest : List Job}

/-- The request that an operation makes to a standard stream, if it makes one. -/
def streamOf? (s : Session) : Operation → Option (StreamName × Sink.Request)
  | .onBacking (.stream n) q => some (n, q)
  | .onOutlet o q =>
    match (s.outlets[o]?).bind Outlet.forwards? with
    | some (.stream n) => some (n, q)
    | _ => none
  | _ => none

/-- A request of a task to the stream in use under a name. -/
structure Asking where
  task : Nat
  name : StreamName
  request : Sink.Request

/-- The request that a task makes to a standard stream when it has its turn. -/
def askingOf? (s : Session) (t : Nat) : Option Asking :=
  match s.tasks[t]? with
  | some ⟨call, .fresh, _, false⟩ => (s.streamOf? call.operation).map fun asked => ⟨t, asked.1, asked.2⟩
  | _ => none

/-- The request that the next turn makes to a standard stream, if it makes one. -/
def asking? (s : Session) : Option Asking :=
  match s.ready with
  | .task t :: _ => s.askingOf? t
  | _ => none

/-- A request is made by a task that has the next turn and begins an operation on the stream, or on an outlet
that stands before it. -/
theorem asking?_eq_some_iff {a : Asking} : s.asking? = some a ↔ ∃ rest task,
    s.ready = .task a.task :: rest ∧ s.tasks[a.task]? = some task ∧ task.stage = .fresh ∧
      task.cancelling = false ∧ s.streamOf? task.call.operation = some (a.name, a.request) := by
  constructor
  · intro ha
    unfold asking? at ha
    split at ha
    · rename_i t rest hready
      unfold askingOf? at ha
      split at ha
      · rename_i call entry hk
        obtain ⟨⟨n, q⟩, hop, rfl⟩ := Option.map_eq_some_iff.1 ha
        exact ⟨rest, _, hready, hk, rfl, rfl, hop⟩
      · cases ha
    · cases ha
  · rintro ⟨rest, ⟨call, stage, entry, cancelling⟩, hready, hk, rfl, rfl, hop⟩
    dsimp only at hop
    simp only [asking?, hready, askingOf?, hk, hop, Option.map_some]

/-- The standard streams after a request, if there is one. -/
def stdioAfter (s : Session) : Option (StreamName × Sink.Request) → Stdio
  | some (n, q) => (s.stdio.perform n q).1
  | none => s.stdio

/-! ### What becomes of the streams -/

theorem stdio_announce (s : Session) (task : Task) (outcome : Outcome) :
    (s.announce task outcome).stdio = s.stdio := by
  unfold announce emit post
  split
  · simp only
    split <;> rfl
  · rfl

theorem stdio_complete (s : Session) (t : Nat) (outcome : Outcome) :
    (s.complete t outcome).stdio = s.stdio := by
  cases hk : s.tasks[t]? with
  | none => simp only [complete, hk]
  | some task =>
    have ha := stdio_announce s task outcome
    rw [complete_eq hk]
    cases task.call.resume (s.destinationOf task.call.outlet?) outcome <;> exact ha

theorem stdio_release (s : Session) (gate : Option Nat) : (s.release gate).stdio = s.stdio := by
  cases gate with
  | none => rfl
  | some g =>
    unfold release wakeGate
    simp only
    split <;> rfl

theorem stdio_serve (s : Session) (t : Nat) (gate : Option Nat) (p : Nat) (r : Pipe.Request) :
    (s.serve t gate p r).stdio = s.stdio := by
  cases hb : s.pipe? p with
  | none =>
    have hc : s.channels[p]? = none := by simpa [pipe?] using hb
    simp only [serve, hc]
  | some b =>
    rw [serve_eq hb]
    cases (b.serve r).reply with
    | wait again => rfl
    | done outcome =>
      rw [stdio_complete, stdio_release]
      rfl

theorem stdio_enter (s : Session) (t g : Nat) (r : Pipe.Request) : (s.enter t g r).stdio = s.stdio := by
  unfold enter
  split
  · rfl
  · exact stdio_serve ..

theorem stdio_approach_stream (s : Session) (t : Nat) (n : StreamName) (q : Sink.Request) :
    (s.approach t (.stream n) q).stdio = (s.stdio.perform n q).1 := stdio_complete ..

theorem stdio_abandon (s : Session) (t : Nat) (stage : Stage) : (s.abandon t stage).stdio = s.stdio := by
  unfold abandon
  cases stage with
  | fresh => rfl
  | ended o => rfl
  | inPipe gate p r => exact stdio_release ..
  | atGate g r =>
    dsimp only
    split
    · rfl
    · unfold wakeGate finish
      dsimp only [setStage]
      split <;> rfl

theorem stdio_approach (s : Session) (t : Nat) (b : Backing) (q : Sink.Request) :
    (s.approach t b q).stdio = s.stdioAfter (s.streamOf? (.onBacking b q)) := by
  cases b with
  | stream n => exact stdio_approach_stream s t n q
  | pipe p => exact stdio_serve ..
  | gate g =>
    unfold approach
    dsimp only
    split
    · rfl
    · split
      · exact stdio_enter ..
      · rfl

theorem stdio_begin (s : Session) (t : Nat) (op : Operation) :
    (s.begin t op).stdio = s.stdioAfter (s.streamOf? op) := by
  cases op with
  | answered outcome => exact stdio_complete ..
  | onPipe p r => exact stdio_serve ..
  | onBacking b q => exact stdio_approach ..
  | onOutlet o q =>
    cases hx : s.outlets[o]? with
    | none => simp only [begin, streamOf?, hx, Option.bind_none, stdioAfter]
    | some x =>
      simp only [begin, streamOf?, hx, Option.bind_some]
      -- an outlet that passes the request on does so to its backing
      have hforward : ∀ b, ((s.setEntry t x.destination).approach t b q).stdio =
          s.stdioAfter (match some b with | some (.stream n) => some (n, q) | _ => none) := by
        intro b
        rw [stdio_approach]
        cases b <;> rfl
      obtain ⟨d, backing⟩ := x
      cases d <;> cases backing <;> first | exact hforward _ | exact stdio_complete ..

/-- The turn of a task changes the standard streams by the request that it makes to one of them, if any. -/
theorem stdio_turn (hr : ∀ n copies rest, s.ready ≠ .deliver n copies :: rest) :
    s.turn.stdio = s.stdioAfter (s.asking?.map fun a => (a.name, a.request)) := by
  unfold turn asking?
  split
  · rename_i hready
    rw [hready]
    rfl
  · rename_i t rest hready
    rw [hready]
    dsimp only
    rw [runTask, askingOf?]
    dsimp only
    split
    · rename_i hk
      rw [hk]
      rfl
    · rename_i task hk
      rw [hk]
      obtain ⟨call, stage, entry, cancelling⟩ := task
      cases cancelling with
      | true => cases stage <;> first | rfl | exact stdio_abandon ..
      | false =>
        cases stage with
        | ended outcome => rfl
        | atGate g r => exact stdio_enter ..
        | inPipe gate p r => exact stdio_serve ..
        | fresh =>
          have hbegin := stdio_begin { s with ready := rest } t call.operation
          dsimp only at hbegin ⊢
          rw [hbegin]
          change s.stdioAfter (s.streamOf? call.operation) = _
          cases s.streamOf? call.operation <;> rfl
  · rename_i n copies rest hready
    exact absurd hready (hr n copies rest)

/-- A task that is cancelled leaves the streams as they are. -/
theorem stdio_turn_of_cancelling (hr : s.ready = .task t :: rest) (hk : s.tasks[t]? = some task)
    (hc : task.cancelling = true) : s.turn.stdio = s.stdio := by
  simp only [turn, hr, runTask, hk, hc]
  cases task.stage with
  | ended outcome => rfl
  | fresh | atGate g r | inPipe gate p r => exact stdio_abandon ..

/-- A request of an outlet for a standard stream is made to the stream in use. -/
theorem stdio_turn_of_stream (hr : s.ready = .task t :: rest) (hk : s.tasks[t]? = some task)
    (hlive : task.cancelling = false) (hst : task.stage = .fresh) {o : Nat} {q : Sink.Request}
    (hop : task.call.operation = .onOutlet o q) {x : Outlet} (hx : s.outlets[o]? = some x) {n : StreamName}
    (hn : x.forwards? = some (.stream n)) : s.turn.stdio = (s.stdio.perform n q).1 := by
  have hstream : s.streamOf? task.call.operation = some (n, q) := by
    simp only [streamOf?, hop, hx, Option.bind_some, hn]
  have hasking : s.asking? = some ⟨t, n, q⟩ := asking?_eq_some_iff.2 ⟨rest, task, hr, hk, hst, hlive, hstream⟩
  rw [stdio_turn fun _ _ _ he => by simp [hr] at he, hasking]
  rfl

/-- Cancelling a task leaves the streams as they are. -/
theorem stdio_cancel (s : Session) (t : Nat) : (s.cancel t).1.stdio = s.stdio := by
  cases hk : s.tasks[t]? with
  | none => simp only [cancel, hk]
  | some task =>
    rw [cancel_eq hk]
    cases task.stage.place? with
    | some a =>
      dsimp only
      split
      · cases a <;> rfl
      · rfl
    | none =>
      dsimp only
      split <;> rfl

/-! ### What the task gets -/

/-- A request to a standard stream is answered at once. -/
theorem task_begin_of_stream (hk : s.tasks[t]? = some task) {op : Operation} {n : StreamName} {q : Sink.Request}
    (hop : s.streamOf? op = some (n, q)) :
    ∃ entry d, (s.begin t op).tasks[t]? = some (Task.after { task with entry } d (s.stdio.perform n q).2) := by
  have hstream : ∀ (s₁ : Session) (task₁ : Task), s₁.tasks[t]? = some task₁ →
      (s₁.approach t (.stream n) q).tasks[t]? =
        some (task₁.after (s₁.destinationOf task₁.call.outlet?) (s₁.stdio.perform n q).2) :=
    fun s₁ task₁ hk₁ => task_complete (s := { s₁ with stdio := (s₁.stdio.perform n q).1 }) hk₁ _
  cases op with
  | answered outcome => cases hop
  | onPipe p r => cases hop
  | onBacking b q' =>
    cases b <;> cases hop
    exact ⟨task.entry, _, hstream s task hk⟩
  | onOutlet o q' =>
    simp only [streamOf?] at hop
    split at hop
    · rename_i n' hx
      cases hop
      obtain ⟨x, hx, hforwards⟩ := Option.bind_eq_some_iff.1 hx
      have hk' : (s.setEntry t x.destination).tasks[t]? = some { task with entry := x.destination } := by
        rw [setEntry, List.getElem?_modify_eq, hk]
        rfl
      refine ⟨x.destination, (s.setEntry t x.destination).destinationOf task.call.outlet?, ?_⟩
      simp only [begin, hx]
      obtain ⟨d, backing⟩ := x
      cases d <;> cases hforwards <;> exact hstream _ _ hk'
    · cases hop

/-- The answer of the stream is the outcome of the operation, and the call goes on from it. -/
theorem task_turn_of_asking {a : Asking} (ha : s.asking? = some a) :
    ∃ task entry d, s.tasks[a.task]? = some task ∧ s.turn.tasks[a.task]? =
      some (Task.after { task with entry } d (s.stdio.perform a.name a.request).2) := by
  obtain ⟨rest, ⟨call, stage, entry₀, cancelling⟩, hready, hk, rfl, rfl, hop⟩ := asking?_eq_some_iff.1 ha
  obtain ⟨entry, d, htask⟩ := task_begin_of_stream (s := { s with ready := rest }) hk hop
  refine ⟨_, entry, d, hk, ?_⟩
  simp only [turn, hready, runTask, hk]
  exact htask

/-- A call of one operation ends with the answer of the stream. -/
theorem outcome_turn_of_asking {a : Asking} (ha : s.asking? = some a) (hk : s.tasks[a.task]? = some task)
    (hsingle : task.call.isSingle = true) :
    (s.turn.tasks[a.task]?).bind Task.outcome? = some (s.stdio.perform a.name a.request).2 := by
  obtain ⟨task', entry, d, hk', hafter⟩ := task_turn_of_asking ha
  rw [hk] at hk'
  cases hk'
  rw [hafter, Task.after_of_isSingle (show ({ task with entry } : Task).call.isSingle = true from hsingle)]
  rfl

end Outflow.Session
