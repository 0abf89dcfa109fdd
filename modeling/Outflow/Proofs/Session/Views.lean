import Outflow.Session.Settle
import Mathlib.Tactic

/-!
# Views of a session

What the laws of sessions speak of: where each task stands, who waits where, who has which gate, what
each pipe holds, and how often each task stands in the ready queue.

* `Place`, `Session.waiters`, `line`: the waiting lists, at gates and at pipes, and the tasks in them;
* `Session.stage?`, `isCancelling`, `place?`: a task;
* `Session.holder?`, `gatePipe?`, `pipe?`: a gate and a pipe;
* `Session.turnsOf`: the places of a task in the ready queue;
* `Session.alter`, `depart`, `leave`, `take`, `refresh`, `park`, `queue`, `free`, `announce`, `goOn`:
  the parts that turns are made of, with what each does to the views;
* `serve_eq`, `enter_eq`, `release_eq`, `complete_eq`: the operations of a turn by these parts.
-/

namespace Outflow

/-- Where tasks wait. -/
inductive Place
  | gate (g : Nat)
  | pipe (p : Nat)
  deriving DecidableEq

namespace Stage

/-- Where a task at a stage waits. -/
def place? : Stage → Option Place
  | .atGate g _ => some (.gate g)
  | .inPipe _ p _ => some (.pipe p)
  | _ => none

/-- The gate that a task at a stage has. -/
def gate? : Stage → Option Nat
  | .inPipe gate _ _ => gate
  | _ => none

theorem gate?_eq_some {st : Stage} {g : Nat} :
    st.gate? = some g ↔ ∃ p r, st = .inPipe (some g) p r := by
  cases st with
  | inPipe gate p r => simp [gate?]
  | fresh => simp [gate?]
  | atGate g' r => simp [gate?]
  | ended o => simp [gate?]

/-- Whether the present operation has not begun. -/
def isFresh : Stage → Bool
  | .fresh => true
  | _ => false

end Stage

theorem Task.isUnfinished_iff {task : Task} :
    task.isUnfinished = true ↔ ∀ o, task.stage ≠ .ended o := by
  cases hst : task.stage <;> simp [isUnfinished, outcome?, hst]

namespace Session

variable {s : Session} {t p g : Nat}

/-- How far a task has come. -/
def stage? (s : Session) (t : Nat) : Option Stage := (s.tasks[t]?).map Task.stage

/-- Whether a task is to end when it runs next. -/
def isCancelling (s : Session) (t : Nat) : Bool := ((s.tasks[t]?).map Task.cancelling).getD false

/-- Where a task waits. -/
def place? (s : Session) (t : Nat) : Option Place := (s.stage? t).bind Stage.place?

/-- The waiting list of a place. -/
def waiters (s : Session) : Place → List Waiter
  | .gate g => ((s.gates[g]?).map Gate.queue).getD []
  | .pipe p => ((s.channels[p]?).map Channel.waiting).getD []

/-- The tasks that wait at a place, in the order in which they began to wait. -/
def line (s : Session) (a : Place) : List Nat := (s.waiters a).map Waiter.task

/-- The task that has a gate. -/
def holder? (s : Session) (g : Nat) : Option Nat := (s.gates[g]?).bind Gate.holder

/-- The pipe behind a gate. -/
def gatePipe? (s : Session) (g : Nat) : Option Nat := (s.gates[g]?).map Gate.pipe

/-- The pipe at a place. -/
def pipe? (s : Session) (p : Nat) : Option Pipe := (s.channels[p]?).map Channel.pipe

/-- How often a task stands in the ready queue. -/
def turnsOf (s : Session) (t : Nat) : Nat := s.ready.count (.task t)

/-! ### The parts of a turn -/

/-- A waiting list is changed. -/
def alter (s : Session) (f : List Waiter → List Waiter) : Place → Session
  | .gate g => { s with gates := s.gates.modify g fun gate => { gate with queue := f gate.queue } }
  | .pipe p => { s with channels := s.channels.modify p fun c => { c with waiting := f c.waiting } }

/-- A task leaves a waiting list. -/
def leave (s : Session) (t : Nat) (a : Place) : Session := s.alter (Waiter.without t) a

/-- A task begins its turn: it stands in the ready queue no more, and leaves the list in which it
waits. -/
def depart (s : Session) (t : Nat) (rest : List Job) : Session :=
  match s.place? t with
  | some a => { s with ready := rest }.leave t a
  | none => { s with ready := rest }

/-- A task takes a gate, and leaves its queue. -/
def take (s : Session) (t g : Nat) : Session :=
  { s with gates := s.gates.modify g fun gate =>
    { gate with holder := some t, queue := Waiter.without t gate.queue } }

/-- A pipe after a request, with those who waited for it awake if they are woken. -/
def refresh (s : Session) (p : Nat) (served : Pipe.Served) : Session :=
  let woken := if served.wakes then Waiter.wakeAll (s.waiters (.pipe p)) else (s.waiters (.pipe p), [])
  { s with channels := s.channels.set p ⟨served.pipe, woken.1⟩ }.enqueue woken.2

/-- A task begins to wait for a pipe. -/
def park (s : Session) (t : Nat) (gate : Option Nat) (p : Nat) (again : Pipe.Request) : Session :=
  { s with channels := s.channels.modify p fun c =>
    { c with waiting := c.waiting ++ [(⟨t, .parked⟩ : Waiter)] } }.setStage t (.inPipe gate p again)

/-- A task queues for a gate. -/
def queue (s : Session) (t g : Nat) (r : Pipe.Request) : Session :=
  { s with gates := s.gates.modify g fun gate =>
    { gate with queue := gate.queue ++ [(⟨t, .parked⟩ : Waiter)] } }.setStage t (.atGate g r)

/-- A gate is given back, and the first who queues for it is woken. -/
def free (s : Session) (g : Nat) : Session :=
  { s with gates := s.gates.modify g fun gate =>
    { gate with holder := none, queue := (Waiter.wakeFirst gate.queue).1 } }.enqueue
      (Waiter.wakeFirst (s.waiters (.gate g))).2

/-- The notice of an outcome, if there is one, goes out. -/
def announce (s : Session) (task : Task) (outcome : Outcome) : Session :=
  match s.noticeOf? task outcome with
  | some n => s.emit n
  | none => s

/-- A task goes on with another operation, before all others. -/
def goOn (s : Session) (t : Nat) (call : Call) : Session :=
  { s with
    tasks := s.tasks.modify t fun task => { task with call, stage := .fresh }
    ready := .task t :: s.ready }

theorem complete_eq {task : Task} (h : s.tasks[t]? = some task) (outcome : Outcome) :
    s.complete t outcome =
      match task.call.resume (s.destinationOf task.call.outlet?) outcome with
      | .done outcome' => (s.announce task outcome).finish t outcome'
      | .more call => (s.announce task outcome).goOn t call := by
  have hd : (s.announce task outcome).destinationOf task.call.outlet? =
      s.destinationOf task.call.outlet? := by
    unfold announce emit post
    split
    · simp only
      split <;> rfl
    · rfl
  simp only [complete, h]
  rw [← hd]
  rfl

theorem set_eq_modify {α : Type} {l : List α} {i : Nat} {a : α} (h : l[i]? = some a) (f : α → α) :
    l.set i (f a) = l.modify i f := by
  have : Inhabited α := ⟨a⟩
  rw [List.modify_eq_set, h, Option.getD_some]

/-- A change of one member keeps a part of it that is not changed. -/
theorem map_getElem?_modify {α β : Type} {f : α → β} {m : α → α} (h : ∀ a, f (m a) = f a)
    (l : List α) (i j : Nat) : ((l.modify i m)[j]?).map f = (l[j]?).map f := by
  rw [List.getElem?_modify]
  cases l[j]? with
  | none => rfl
  | some a => by_cases hi : i = j <;> simp [hi, h]

/-- A change of a member, seen in a list of what is made of the members. -/
theorem map_modify {α β : Type} {f : α → β} {m : α → α} {k : β → β} {l : List α} {i : Nat}
    (h : ∀ a, l[i]? = some a → k (f a) = f (m a)) :
    (l.modify i m).map f = (l.map f).modify i k := by
  refine List.ext_getElem? fun j => ?_
  rw [List.getElem?_map, List.getElem?_modify, List.getElem?_modify, List.getElem?_map]
  by_cases hij : i = j
  · subst hij
    cases hl : l[i]? with
    | none => rfl
    | some a => simp [h a hl]
  · simp [hij]

/-- A change of a member of which the same is made. -/
theorem map_modify_eq {α β : Type} {f : α → β} {m : α → α} {l : List α} {i : Nat}
    (h : ∀ a, l[i]? = some a → f (m a) = f a) : (l.modify i m).map f = l.map f := by
  rw [map_modify (k := id) fun a ha => (h a ha).symm, List.modify_id]

theorem waiters_gate {gate : Gate} (h : s.gates[g]? = some gate) :
    s.waiters (.gate g) = gate.queue := by simp [waiters, h]

theorem waiters_pipe {c : Channel} (h : s.channels[p]? = some c) :
    s.waiters (.pipe p) = c.waiting := by simp [waiters, h]

theorem release_eq {gate : Gate} (h : s.gates[g]? = some gate) :
    s.release (some g) = s.free g := by
  have hm : (s.gates.modify g fun gate => { gate with holder := none })[g]? =
      some { gate with holder := none } := by rw [List.getElem?_modify_eq, h]; rfl
  simp only [release, wakeGate, hm, free, waiters_gate h]
  congr 2
  rw [← set_eq_modify h, ← set_eq_modify h, List.set_set]

theorem enter_eq {gate : Gate} (h : s.gates[g]? = some gate) (r : Pipe.Request) :
    s.enter t g r = (s.take t g).serve t (some g) gate.pipe r := by
  simp only [enter, h, take, ← set_eq_modify h]

/-- Meeting a request: the pipe is refreshed; then the task waits, or gives its gate back and goes
on. -/
theorem serve_eq {b : Pipe} (h : s.pipe? p = some b) (gate : Option Nat) (r : Pipe.Request) :
    s.serve t gate p r = match (b.serve r).reply with
      | .wait again => (s.refresh p (b.serve r)).park t gate p again
      | .done outcome => ((s.refresh p (b.serve r)).release gate).complete t outcome := by
  obtain ⟨c, hc, rfl⟩ := Option.map_eq_some_iff.1 h
  simp only [serve, hc, refresh, waiters_pipe hc]
  cases (c.pipe.serve r).reply with
  | done outcome => rfl
  | wait again =>
    obtain ⟨hp, -⟩ := List.getElem?_eq_some_iff.1 hc
    simp only [park, enqueue]
    congr 2
    rw [← set_eq_modify (List.getElem?_set_self hp), List.set_set]

/-! ### The parts of a turn in the views -/

theorem waiters_modify_gate (f : Gate → Gate) {gate : Gate} (h : s.gates[g]? = some gate) :
    ({ s with gates := s.gates.modify g f } : Session).waiters =
      Function.update s.waiters (.gate g) (f gate).queue := by
  funext a
  cases a with
  | gate g' =>
    by_cases hg : g = g'
    · subst hg
      simp [waiters, h]
    · have hne : Place.gate g' ≠ .gate g := fun e => hg (by cases e; rfl)
      simp [waiters, hg, hne]
  | pipe p => simp [waiters]

theorem waiters_modify_channel (f : Channel → Channel) {c : Channel} (h : s.channels[p]? = some c) :
    ({ s with channels := s.channels.modify p f } : Session).waiters =
      Function.update s.waiters (.pipe p) (f c).waiting := by
  funext a
  cases a with
  | gate g => simp [waiters]
  | pipe p' =>
    by_cases hp : p = p'
    · subst hp
      simp [waiters, h]
    · have hne : Place.pipe p' ≠ .pipe p := fun e => hp (by cases e; rfl)
      simp [waiters, hp, hne]

theorem holder?_modify_gate (f : Gate → Gate) {gate : Gate} (h : s.gates[g]? = some gate) :
    ({ s with gates := s.gates.modify g f } : Session).holder? =
      Function.update s.holder? g (f gate).holder := by
  funext g'
  by_cases hg : g = g'
  · subst hg
    simp [holder?, h]
  · simp [holder?, hg, Ne.symm hg]

theorem gatePipe?_modify_gate {f : Gate → Gate} (hf : ∀ gate, (f gate).pipe = gate.pipe) :
    ({ s with gates := s.gates.modify g f } : Session).gatePipe? = s.gatePipe? :=
  funext fun g' => map_getElem?_modify hf s.gates g g'

theorem pipe?_modify_channel {f : Channel → Channel} (hf : ∀ c, (f c).pipe = c.pipe) :
    ({ s with channels := s.channels.modify p f } : Session).pipe? = s.pipe? :=
  funext fun p' => map_getElem?_modify hf s.channels p p'

/-- A place with a waiter is there. -/
theorem waiters_eq_nil_of_gate (h : s.gates[g]? = none) : s.waiters (.gate g) = [] := by
  simp [waiters, h]

theorem waiters_eq_nil_of_pipe (h : s.channels[p]? = none) : s.waiters (.pipe p) = [] := by
  simp [waiters, h]

theorem modify_of_none {α : Type} {l : List α} {i : Nat} (h : l[i]? = none) (f : α → α) :
    l.modify i f = l := List.modify_eq_self (List.getElem?_eq_none_iff.1 h)

theorem waiters_alter (s : Session) {f : List Waiter → List Waiter} (hf : f [] = []) (a : Place) :
    (s.alter f a).waiters = Function.update s.waiters a (f (s.waiters a)) := by
  cases a with
  | gate g =>
    cases h : s.gates[g]? with
    | none =>
      rw [alter, modify_of_none h, waiters_eq_nil_of_gate h, hf]
      exact (Function.update_eq_self_iff.2 (waiters_eq_nil_of_gate h).symm).symm
    | some gate => rw [alter, waiters_modify_gate _ h, waiters_gate h]
  | pipe p =>
    cases h : s.channels[p]? with
    | none =>
      rw [alter, modify_of_none h, waiters_eq_nil_of_pipe h, hf]
      exact (Function.update_eq_self_iff.2 (waiters_eq_nil_of_pipe h).symm).symm
    | some c => rw [alter, waiters_modify_channel _ h, waiters_pipe h]

theorem waiters_leave (s : Session) (t : Nat) (a : Place) :
    (s.leave t a).waiters = Function.update s.waiters a (Waiter.without t (s.waiters a)) :=
  s.waiters_alter rfl a

theorem pipe?_alter (s : Session) (f : List Waiter → List Waiter) (a : Place) :
    (s.alter f a).pipe? = s.pipe? := by
  cases a with
  | gate g => rfl
  | pipe p => exact pipe?_modify_channel fun _ => rfl

theorem gatePipe?_alter (s : Session) (f : List Waiter → List Waiter) (a : Place) :
    (s.alter f a).gatePipe? = s.gatePipe? := by
  cases a with
  | gate g => exact gatePipe?_modify_gate fun _ => rfl
  | pipe p => rfl

theorem holder?_alter (s : Session) (f : List Waiter → List Waiter) (a : Place) :
    (s.alter f a).holder? = s.holder? := by
  cases a with
  | pipe p => rfl
  | gate g =>
    cases h : s.gates[g]? with
    | none => rw [alter, modify_of_none h]
    | some gate =>
      rw [alter, holder?_modify_gate _ h]
      exact Function.update_eq_self_iff.2 (by simp [holder?, h])

/-- What changes a waiting list changes nothing else. -/
theorem fields_alter (s : Session) (f : List Waiter → List Waiter) (a : Place) :
    (s.alter f a).tasks = s.tasks ∧ (s.alter f a).outlets = s.outlets ∧
      (s.alter f a).ready = s.ready := by cases a <;> exact ⟨rfl, rfl, rfl⟩

@[simp] theorem tasks_depart (s : Session) (t : Nat) (rest : List Job) :
    (s.depart t rest).tasks = s.tasks := by
  unfold depart
  split
  · exact (fields_alter ..).1
  · rfl

@[simp] theorem outlets_depart (s : Session) (t : Nat) (rest : List Job) :
    (s.depart t rest).outlets = s.outlets := by
  unfold depart
  split
  · exact (fields_alter ..).2.1
  · rfl

@[simp] theorem ready_depart (s : Session) (t : Nat) (rest : List Job) :
    (s.depart t rest).ready = rest := by
  unfold depart
  split
  · exact (fields_alter ..).2.2
  · rfl

/-- A task that leaves its place is not recorded. -/
theorem records_depart (s : Session) (t : Nat) (rest : List Job) :
    (s.depart t rest).notices = s.notices ∧ (s.depart t rest).endings = s.endings := by
  unfold depart
  split
  · rename_i a _
    cases a <;> exact ⟨rfl, rfl⟩
  · exact ⟨rfl, rfl⟩

theorem pipe?_depart (s : Session) (t : Nat) (rest : List Job) : (s.depart t rest).pipe? = s.pipe? := by
  unfold depart
  split
  · exact pipe?_alter ..
  · rfl

theorem gatePipe?_depart (s : Session) (t : Nat) (rest : List Job) :
    (s.depart t rest).gatePipe? = s.gatePipe? := by
  unfold depart
  split
  · exact gatePipe?_alter ..
  · rfl

theorem holder?_depart (s : Session) (t : Nat) (rest : List Job) :
    (s.depart t rest).holder? = s.holder? := by
  unfold depart
  split
  · exact holder?_alter ..
  · rfl

theorem waiters_depart (s : Session) (t : Nat) (rest : List Job) (a : Place) :
    (s.depart t rest).waiters a =
      if s.place? t = some a then Waiter.without t (s.waiters a) else s.waiters a := by
  unfold depart
  split
  · rename_i b hb
    rw [waiters_leave, hb]
    by_cases hab : b = a
    · subst hab
      rw [Function.update_self, if_pos rfl]
      rfl
    · rw [Function.update_of_ne (Ne.symm hab), if_neg fun e => hab (Option.some.inj e)]
      rfl
  · rename_i hb
    rw [hb, if_neg (by simp)]
    rfl

theorem stage?_congr {s' : Session} (h : s'.tasks = s.tasks) : s'.stage? = s.stage? := by
  funext u
  rw [stage?, h, stage?]

theorem stage?_modify {m : Task → Task} (hm : ∀ task, (m task).stage = task.stage) :
    ({ s with tasks := s.tasks.modify t m } : Session).stage? = s.stage? :=
  funext fun u => map_getElem?_modify hm s.tasks t u

theorem place?_congr {s' : Session} (h : s'.stage? = s.stage?) : s'.place? = s.place? := by
  funext u
  rw [place?, h, place?]

theorem isCancelling_congr {s' : Session} (h : s'.tasks = s.tasks) :
    s'.isCancelling = s.isCancelling := by
  funext u
  rw [isCancelling, h, isCancelling]

theorem isCancelling_modify {m : Task → Task} (hm : ∀ task, (m task).cancelling = task.cancelling) :
    ({ s with tasks := s.tasks.modify t m } : Session).isCancelling = s.isCancelling :=
  funext fun u => congrArg (Option.getD · false) (map_getElem?_modify hm s.tasks t u)

theorem turnsOf_post (s : Session) (n : Notice) : (s.post n).turnsOf = s.turnsOf := by
  funext u
  unfold post
  split
  · simp [turnsOf]
  · rfl

/-- A notice changes no member and no task. -/
theorem fields_post (s : Session) (n : Notice) :
    (s.post n).channels = s.channels ∧ (s.post n).gates = s.gates ∧
      (s.post n).outlets = s.outlets ∧ (s.post n).tasks = s.tasks := by
  unfold post
  split <;> exact ⟨rfl, rfl, rfl, rfl⟩

theorem turnsOf_announce (s : Session) (task : Task) (outcome : Outcome) :
    (s.announce task outcome).turnsOf = s.turnsOf := by
  unfold announce emit
  split
  · exact turnsOf_post ..
  · rfl

theorem fields_announce (s : Session) (task : Task) (outcome : Outcome) :
    (s.announce task outcome).channels = s.channels ∧ (s.announce task outcome).gates = s.gates ∧
      (s.announce task outcome).outlets = s.outlets ∧
        (s.announce task outcome).tasks = s.tasks := by
  unfold announce emit
  split
  · exact fields_post ..
  · exact ⟨rfl, rfl, rfl, rfl⟩

theorem waiters_refresh {b : Pipe} (h : s.pipe? p = some b) (served : Pipe.Served) :
    (s.refresh p served).waiters = Function.update s.waiters (.pipe p)
      (if served.wakes then (Waiter.wakeAll (s.waiters (.pipe p))).1 else s.waiters (.pipe p)) := by
  obtain ⟨c, hc, -⟩ := Option.map_eq_some_iff.1 h
  have hm := waiters_modify_channel (fun _ => ⟨served.pipe,
    if served.wakes then (Waiter.wakeAll (s.waiters (.pipe p))).1 else s.waiters (.pipe p)⟩) hc
  rw [← set_eq_modify hc] at hm
  rw [← hm]
  cases hw : served.wakes <;> simp only [refresh, hw] <;> rfl

theorem pipe?_refresh {b : Pipe} (h : s.pipe? p = some b) (served : Pipe.Served) :
    (s.refresh p served).pipe? = Function.update s.pipe? p (some served.pipe) := by
  obtain ⟨c, hc, -⟩ := Option.map_eq_some_iff.1 h
  obtain ⟨hp, -⟩ := List.getElem?_eq_some_iff.1 hc
  funext q
  by_cases hq : p = q
  · subst hq
    simp [refresh, enqueue, pipe?, hp]
  · simp [refresh, enqueue, pipe?, hq, Ne.symm hq]

theorem turnsOf_enqueue (s : Session) (ts : List Nat) (u : Nat) :
    (s.enqueue ts).turnsOf u = s.turnsOf u + ts.count u := by
  have hc : (ts.map Job.task).count (.task u) = ts.count u :=
    List.count_map_of_injective ts Job.task (fun _ _ h => by cases h; rfl) u
  rw [turnsOf, enqueue, List.count_append, hc, turnsOf]

theorem turnsOf_refresh (s : Session) (p : Nat) (served : Pipe.Served) (u : Nat) :
    (s.refresh p served).turnsOf u = s.turnsOf u +
      (if served.wakes then (Waiter.wakeAll (s.waiters (.pipe p))).2 else []).count u := by
  rw [refresh, turnsOf_enqueue]
  cases served.wakes <;> rfl

theorem waiters_take {gate : Gate} (h : s.gates[g]? = some gate) (t : Nat) :
    (s.take t g).waiters = Function.update s.waiters (.gate g) (Waiter.without t gate.queue) :=
  waiters_modify_gate _ h

theorem holder?_take {gate : Gate} (h : s.gates[g]? = some gate) (t : Nat) :
    (s.take t g).holder? = Function.update s.holder? g (some t) :=
  holder?_modify_gate _ h

theorem gatePipe?_take (s : Session) (t g : Nat) : (s.take t g).gatePipe? = s.gatePipe? :=
  gatePipe?_modify_gate fun _ => rfl

theorem waiters_free {gate : Gate} (h : s.gates[g]? = some gate) :
    (s.free g).waiters =
      Function.update s.waiters (.gate g) (Waiter.wakeFirst gate.queue).1 :=
  waiters_modify_gate _ h

theorem holder?_free {gate : Gate} (h : s.gates[g]? = some gate) :
    (s.free g).holder? = Function.update s.holder? g none :=
  holder?_modify_gate _ h

theorem gatePipe?_free (s : Session) (g : Nat) : (s.free g).gatePipe? = s.gatePipe? :=
  gatePipe?_modify_gate (s := s) fun _ => rfl

theorem waiters_queue {gate : Gate} (h : s.gates[g]? = some gate) (t : Nat) (r : Pipe.Request) :
    (s.queue t g r).waiters =
      Function.update s.waiters (.gate g) (gate.queue ++ [⟨t, .parked⟩]) :=
  waiters_modify_gate _ h

theorem holder?_queue {gate : Gate} (h : s.gates[g]? = some gate) (t : Nat) (r : Pipe.Request) :
    (s.queue t g r).holder? = s.holder? :=
  (holder?_modify_gate _ h).trans (Function.update_eq_self_iff.2 (by simp [holder?, h]))

theorem waiters_park {b : Pipe} (h : s.pipe? p = some b) (t : Nat) (gate : Option Nat)
    (r : Pipe.Request) :
    (s.park t gate p r).waiters =
      Function.update s.waiters (.pipe p) (s.waiters (.pipe p) ++ [⟨t, .parked⟩]) := by
  obtain ⟨c, hc, -⟩ := Option.map_eq_some_iff.1 h
  rw [waiters_pipe hc]
  exact waiters_modify_channel _ hc

/-- Joining a waiting list, place by place. -/
theorem update_append (ws : List Waiter) (a b : Place) :
    Function.update s.waiters a (s.waiters a ++ ws) b =
      if some a = some b then s.waiters b ++ ws else s.waiters b := by
  by_cases hb : b = a
  · subst hb
    rw [Function.update_self, if_pos rfl]
  · rw [Function.update_of_ne hb, if_neg fun e => hb (Option.some.inj e).symm]

theorem pipe?_park (s : Session) (t : Nat) (gate : Option Nat) (p : Nat) (r : Pipe.Request) :
    (s.park t gate p r).pipe? = s.pipe? :=
  pipe?_modify_channel fun _ => rfl

end Session

end Outflow
