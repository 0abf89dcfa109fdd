import Outflow.Proofs.Stdio
import Outflow.Proofs.Session.Order

/-!
# A pipe without its gates

What remains of a session when every request that comes to a pipe through a gate is made to its write end
itself, and nothing is noted down.

* `Layout`, `Call.Gated`, `Call.bare`: the calls that ask a gate before a pipe for something, and the calls
  that ask the write end instead;
* `Session.bare`: the session that remains;
* `Session.Clear`: nobody queues for a gate before the pipe;
* `bareBy_complete`, `bareBy_serve`, `bareBy_begin`, `bareBy_abandon`: the parts of a turn;
* `bare_turn`: a turn of a task, as long as a gate is open when it is asked;
* `bare_addGate`, `bare_retarget`, `bare_spawn`, `bare_cancel`: what is done from outside.
-/

namespace Outflow

/-- The outlets of a session, and the pipes behind its gates. -/
structure Layout where
  outlets : List Outlet
  gatePipe? : Nat → Option Nat

/-- The gate of an outlet for a pipe. -/
def Outlet.gate? : Outlet → Option Nat
  | ⟨.pipe, some (.gate g)⟩ => some g
  | _ => none

theorem Outlet.gate?_eq_some {x : Outlet} {g : Nat} : x.gate? = some g ↔ x = .ofGate g := by
  constructor
  · intro h
    unfold gate? at h
    split at h
    · cases h
      rfl
    · cases h
  · rintro rfl
    rfl

namespace Call

variable {L : Layout} {p g : Nat} {r : Sink.Request} {c : Call}

/-- Whether a call asks a gate before a pipe for something, by an outlet or without one. -/
inductive Gated (L : Layout) (p : Nat) (r : Sink.Request) (g : Nat) : Call → Prop
  | backing (hg : L.gatePipe? g = some p) : Gated L p r g (.backing (.gate g) r)
  | outlet {o : Nat} (ho : L.outlets[o]? = some (.ofGate g)) (hg : L.gatePipe? g = some p) :
    Gated L p r g (.outlet o r)

/-- A call that asks the write end of a pipe itself if it asked a gate before it. -/
def bare (L : Layout) (p : Nat) (c : Call) : Call :=
  match c with
  | .backing (.gate g) r => if L.gatePipe? g = some p then .backing (.pipe p) r else c
  | .outlet o r =>
    if ((L.outlets[o]?).bind Outlet.gate?).bind L.gatePipe? = some p then .backing (.pipe p) r else c
  | _ => c

theorem Gated.bare (h : c.Gated L p r g) : c.bare L p = .backing (.pipe p) r := by
  cases h with
  | backing hg => exact if_pos hg
  | outlet ho hg =>
    refine if_pos ?_
    rw [ho]
    exact hg

theorem bare_cases (L : Layout) (p : Nat) (c : Call) :
    c.bare L p = c ∨ ∃ r g, c.Gated L p r g := by
  unfold Call.bare
  split
  · rename_i g r
    split
    · rename_i hg
      exact .inr ⟨r, g, .backing hg⟩
    · exact .inl rfl
  · rename_i o r
    split
    · rename_i hg
      obtain ⟨g, ho, hg⟩ := Option.bind_eq_some_iff.1 hg
      obtain ⟨x, hx, hx'⟩ := Option.bind_eq_some_iff.1 ho
      rw [Outlet.gate?_eq_some.1 hx'] at hx
      exact .inr ⟨r, g, .outlet hx hg⟩
    · exact .inl rfl
  · exact .inl rfl

@[simp] theorem bare_bare (L : Layout) (p : Nat) (c : Call) : (c.bare L p).bare L p = c.bare L p := by
  rcases bare_cases L p c with h | ⟨r, g, h⟩
  · rw [h, h]
  · rw [h.bare]
    rfl

/-- A request to a gate is answered once. -/
theorem Gated.resume (h : c.Gated L p r g) (d : Destination) (outcome : Outcome) :
    c.resume d outcome = .done outcome := by
  cases h <;> rfl

end Call

/-- A stage in which no gate is before a pipe. -/
def Stage.bare (p : Nat) : Stage → Stage
  | .inPipe gate q r => .inPipe (if q = p then none else gate) q r
  | st => st

theorem Stage.bare_bare (p : Nat) (st : Stage) : (st.bare p).bare p = st.bare p := by
  cases st with
  | inPipe gate q r => by_cases h : q = p <;> simp [Stage.bare, h]
  | _ => rfl

/-- A task that asks the write end of a pipe itself. -/
def Task.bare (L : Layout) (p : Nat) (task : Task) : Task :=
  ⟨task.call.bare L p, task.stage.bare p, .null, task.cancelling⟩

/-- A gate, or a free one if it is before a pipe. -/
def Gate.bare (p : Nat) (gate : Gate) : Gate := if gate.pipe = p then .ofPipe p else gate

theorem Gate.bare_bare (p : Nat) (gate : Gate) : (gate.bare p).bare p = gate.bare p := by
  by_cases h : gate.pipe = p <;> simp [Gate.bare, h, Gate.ofPipe]

/-- Whether a job is that of a task. -/
def Job.isTask : Job → Bool
  | .task _ => true
  | .deliver _ _ => false

/-! ### Sessions -/

namespace Session

variable {s s' : Session} {L : Layout} {p q t g : Nat} {task : Task}

/-- The outlets of a session, and the pipes behind its gates. -/
def layout (s : Session) : Layout := ⟨s.outlets, s.gatePipe?⟩

/-- A session in which a pipe has no gates and nothing is noted down. -/
def bareBy (L : Layout) (p : Nat) (s : Session) : Session where
  channels := s.channels
  gates := s.gates.map (.bare p)
  outlets := s.outlets
  tasks := s.tasks.map (.bare L p)
  ready := s.ready.filter Job.isTask
  notices := []
  endings := s.endings
  stdio := s.stdio.bare
  journal := .start

/-- A session in which the requests that would come to a pipe through gates are made to its write end. -/
def bare (p : Nat) (s : Session) : Session := s.bareBy s.layout p

@[simp] theorem pipe_bare (p : Nat) (gate : Gate) : (gate.bare p).pipe = gate.pipe := by
  by_cases h : gate.pipe = p <;> simp [Gate.bare, h, Gate.ofPipe]

@[simp] theorem bareBy_bareBy (L : Layout) (p : Nat) (s : Session) :
    (s.bareBy L p).bareBy L p = s.bareBy L p := by
  have htask : Task.bare L p ∘ Task.bare L p = Task.bare L p := by
    funext task
    simp [Task.bare, Stage.bare_bare]
  have hgate : Gate.bare p ∘ Gate.bare p = Gate.bare p := funext (Gate.bare_bare p)
  have hstream : Stream.bare ∘ Stream.bare = Stream.bare := rfl
  simp [bareBy, Stdio.bare, htask, hgate, hstream]

theorem gatePipe?_bareBy (L : Layout) (p : Nat) (s : Session) :
    (s.bareBy L p).gatePipe? = s.gatePipe? := by
  funext g
  simp only [gatePipe?, bareBy, List.getElem?_map, Option.map_map]
  congr 1
  funext gate
  exact pipe_bare p gate

theorem layout_bareBy (L : Layout) (p : Nat) (s : Session) : (s.bareBy L p).layout = s.layout := by
  rw [layout, gatePipe?_bareBy]
  rfl

theorem task_bareBy (L : Layout) (p : Nat) (s : Session) (t : Nat) :
    (s.bareBy L p).tasks[t]? = (s.tasks[t]?).map (.bare L p) := List.getElem?_map ..

/-! ### The parts of a turn -/

theorem bareBy_setStage (L : Layout) (p : Nat) (s : Session) (t : Nat) (st : Stage) :
    (s.setStage t st).bareBy L p = (s.bareBy L p).setStage t (st.bare p) := by
  simp only [setStage, bareBy, map_modify (f := Task.bare L p) (m := fun task => { task with stage := st })
    (k := fun task => { task with stage := st.bare p }) fun _ _ => rfl]

theorem bareBy_finish (L : Layout) (p : Nat) (s : Session) (t : Nat) (outcome : Outcome) :
    (s.finish t outcome).bareBy L p = (s.bareBy L p).finish t outcome := by
  have hst := bareBy_setStage L p s t (.ended outcome)
  exact congrArg (fun s' : Session => { s' with endings := s.endings ++ [t] }) hst

theorem bareBy_setEntry (L : Layout) (p : Nat) (s : Session) (t : Nat) (d : Destination) :
    (s.setEntry t d).bareBy L p = s.bareBy L p := by
  simp only [setEntry, bareBy, map_modify_eq (f := Task.bare L p)
    (m := fun task => { task with entry := d }) fun _ _ => rfl]

theorem bareBy_goOn (L : Layout) (p : Nat) (s : Session) (t : Nat) (c : Call) :
    (s.goOn t c).bareBy L p = (s.bareBy L p).goOn t (c.bare L p) := by
  simp only [goOn, bareBy, List.filter_cons, Job.isTask, if_true,
    map_modify (f := Task.bare L p) (m := fun task => { task with call := c, stage := .fresh })
      (k := fun task => { task with call := c.bare L p, stage := .fresh }) fun _ _ => rfl]

theorem bareBy_enqueue (L : Layout) (p : Nat) (s : Session) (ts : List Nat) :
    (s.enqueue ts).bareBy L p = (s.bareBy L p).enqueue ts := by
  have ht : (ts.map Job.task).filter Job.isTask = ts.map Job.task :=
    List.filter_eq_self.2 fun j hj => by
      obtain ⟨t, -, rfl⟩ := List.mem_map.1 hj
      rfl
  simp only [enqueue, bareBy, List.filter_append, ht]

/-- A notice leaves no trace. -/
theorem bareBy_post (L : Layout) (p : Nat) (s : Session) (n : Notice) :
    (s.post n).bareBy L p = s.bareBy L p := by
  unfold post
  split
  · simp [bareBy, List.filter_append, Job.isTask]
  · rfl

theorem bareBy_announce (L : Layout) (p : Nat) (s : Session) (task : Task) (outcome : Outcome) :
    (s.announce task outcome).bareBy L p = s.bareBy L p := by
  unfold announce
  split
  · exact bareBy_post L p { s with notices := s.notices ++ [_] } _
  · rfl

theorem bareBy_refresh (L : Layout) (p : Nat) (s : Session) (q : Nat) (served : Pipe.Served) :
    (s.refresh q served).bareBy L p = (s.bareBy L p).refresh q served :=
  bareBy_enqueue L p { s with channels := s.channels.set q _ } _

theorem bareBy_park (L : Layout) (p : Nat) (s : Session) (t : Nat) (gate : Option Nat) (q : Nat)
    (r : Pipe.Request) : (s.park t gate q r).bareBy L p =
      (s.bareBy L p).park t (if q = p then none else gate) q r :=
  bareBy_setStage L p { s with channels := s.channels.modify q fun c =>
    { c with waiting := c.waiting ++ [(⟨t, .parked⟩ : Waiter)] } } t _

theorem bareBy_alter (L : Layout) (p : Nat) (s : Session) {f : List Waiter → List Waiter}
    (hf : f [] = []) (a : Place) : (s.alter f a).bareBy L p = (s.bareBy L p).alter f a := by
  cases a with
  | pipe q => rfl
  | gate g =>
    simp only [alter, bareBy, map_modify (f := Gate.bare p)
      (m := fun gate => { gate with queue := f gate.queue })
      (k := fun gate => { gate with queue := f gate.queue }) (l := s.gates) (i := g) fun gate _ => by
        by_cases h : gate.pipe = p <;> simp [Gate.bare, h, Gate.ofPipe, hf]]

/-- Whether nobody queues for a gate before a pipe. -/
def Clear (s : Session) (p : Nat) : Prop := ∀ g, s.gatePipe? g = some p → s.waiters (.gate g) = []

theorem gatePipe?_of_gate {gate : Gate} (hg : s.gates[g]? = some gate) :
    s.gatePipe? g = some gate.pipe := by rw [gatePipe?, hg]; rfl

theorem gate_bareBy (L : Layout) (p : Nat) {gate : Gate} (hg : s.gates[g]? = some gate) :
    (s.bareBy L p).gates[g]? = some (gate.bare p) := by
  simp only [bareBy, List.getElem?_map, hg, Option.map_some]

theorem bare_of_pipe_ne {gate : Gate} (h : gate.pipe ≠ p) : gate.bare p = gate := if_neg h

theorem bare_of_pipe_eq {gate : Gate} (h : gate.pipe = p) : gate.bare p = .ofPipe p := if_pos h

theorem waiters_bareBy (L : Layout) (p : Nat) {gate : Gate} (hg : s.gates[g]? = some gate)
    (hne : gate.pipe ≠ p) : (s.bareBy L p).waiters (.gate g) = s.waiters (.gate g) := by
  rw [waiters_gate hg, waiters_gate (gate_bareBy L p hg), bare_of_pipe_ne hne]

/-- A gate before another pipe is changed. -/
theorem bareBy_gates_of_ne (L : Layout) {gate : Gate} (hg : s.gates[g]? = some gate)
    (hne : gate.pipe ≠ p) {f : Gate → Gate} (hf : ∀ gate, (f gate).pipe = gate.pipe) :
    ({ s with gates := s.gates.modify g f } : Session).bareBy L p =
      { s.bareBy L p with gates := (s.bareBy L p).gates.modify g f } := by
  have hm : (s.gates.modify g f).map (Gate.bare p) = (s.gates.map (Gate.bare p)).modify g f :=
    map_modify fun gate' hg' => by
      cases hg.symm.trans hg'
      simp [Gate.bare, hf, hne]
  simp only [bareBy, hm]

/-- Nothing remains of a change of a gate before the pipe. -/
theorem bareBy_gates_of_eq (L : Layout) {gate : Gate} (hg : s.gates[g]? = some gate)
    (hp : gate.pipe = p) {f : Gate → Gate} (hf : ∀ gate, (f gate).pipe = gate.pipe) :
    ({ s with gates := s.gates.modify g f } : Session).bareBy L p = s.bareBy L p := by
  have hm : (s.gates.modify g f).map (Gate.bare p) = s.gates.map (Gate.bare p) :=
    map_modify_eq fun gate' hg' => by
      cases hg.symm.trans hg'
      simp [Gate.bare, hf, hp]
  simp only [bareBy, hm]

theorem bareBy_free_of_ne (L : Layout) {gate : Gate} (hg : s.gates[g]? = some gate)
    (hne : gate.pipe ≠ p) : (s.free g).bareBy L p = (s.bareBy L p).free g := by
  rw [free, bareBy_enqueue, free, waiters_bareBy L p hg hne]
  exact congrArg (enqueue · _) (bareBy_gates_of_ne L hg hne fun _ => rfl)

theorem bareBy_queue_of_ne (L : Layout) {gate : Gate} (hg : s.gates[g]? = some gate)
    (hne : gate.pipe ≠ p) (t : Nat) (r : Pipe.Request) :
    (s.queue t g r).bareBy L p = (s.bareBy L p).queue t g r := by
  rw [queue, bareBy_setStage]
  exact congrArg (setStage · t _) (bareBy_gates_of_ne L hg hne fun _ => rfl)

/-- Nothing remains of the giving back of a gate before the pipe if nobody queues for it. -/
theorem bareBy_free_of_eq (L : Layout) (hclear : s.Clear p) {gate : Gate}
    (hg : s.gates[g]? = some gate) (hp : gate.pipe = p) : (s.free g).bareBy L p = s.bareBy L p := by
  have hw : s.waiters (.gate g) = [] := hclear g (by rw [gatePipe?_of_gate hg, hp])
  rw [free, hw, bareBy_enqueue]
  refine Eq.trans (congrArg (enqueue · _) (bareBy_gates_of_eq L hg hp fun _ => rfl)) ?_
  simp [enqueue, Waiter.wakeFirst]

/-- The gates that are left when a gate is given back, with those who wait for it. -/
theorem bareBy_release (L : Layout) (hclear : s.Clear p) {gate : Option Nat}
    (hgate : ∀ g, gate = some g → s.gatePipe? g = some q) :
    (s.release gate).bareBy L p = (s.bareBy L p).release (if q = p then none else gate) := by
  cases gate with
  | none => rw [ite_self]; rfl
  | some g =>
    obtain ⟨gate, hg, rfl⟩ := Option.map_eq_some_iff.1 (hgate g rfl)
    rw [release_eq hg]
    split
    · rename_i hp
      exact bareBy_free_of_eq L hclear hg hp
    · rename_i hp
      rw [bareBy_free_of_ne L hg hp, release_eq (gate_bareBy L p hg)]

/-! ### Completing, and meeting a request -/

/-- What remains when an operation has its outcome. -/
theorem bareBy_complete_eq (L : Layout) (p : Nat) (hk : s.tasks[t]? = some task) (outcome : Outcome) :
    (s.complete t outcome).bareBy L p =
      match task.call.resume (s.destinationOf task.call.outlet?) outcome with
      | .done outcome' => (s.bareBy L p).finish t outcome'
      | .more c => (s.bareBy L p).goOn t (c.bare L p) := by
  rw [complete_eq hk]
  cases task.call.resume (s.destinationOf task.call.outlet?) outcome with
  | done outcome' =>
    simp only
    rw [bareBy_finish, bareBy_announce]
  | more c =>
    simp only
    rw [bareBy_goOn, bareBy_announce]

/-- It does not matter how a request came to the pipe. -/
theorem bareBy_complete (L : Layout) (p : Nat) (s : Session) (t : Nat) (outcome : Outcome) :
    (s.complete t outcome).bareBy L p = ((s.bareBy L p).complete t outcome).bareBy L p := by
  cases hk : s.tasks[t]? with
  | none =>
    have hk' : (s.bareBy L p).tasks[t]? = none := by rw [task_bareBy, hk]; rfl
    simp only [complete, hk, hk', bareBy_bareBy]
  | some task =>
    have hk' : (s.bareBy L p).tasks[t]? = some (task.bare L p) := by rw [task_bareBy, hk]; rfl
    rw [bareBy_complete_eq L p hk, bareBy_complete_eq L p hk', bareBy_bareBy]
    rcases Call.bare_cases L p task.call with hc | ⟨r, g, hc⟩
    · rw [show (task.bare L p).call = task.call from hc]
      rfl
    · rw [show (task.bare L p).call = .backing (.pipe p) r from hc.bare, hc.resume]
      rfl

theorem Clear.congr (h : s.Clear p) (hg : s'.gates = s.gates) : s'.Clear p := by
  intro g hgp
  have hw : s'.waiters (.gate g) = s.waiters (.gate g) := by simp only [waiters, hg]
  rw [hw]
  exact h g (by rw [← gatePipe?_congr hg]; exact hgp)

/-- The pipe meets a request, and those who wait for its gates are none. -/
theorem bareBy_serve (L : Layout) (hclear : s.Clear p) {gate : Option Nat}
    (hgate : ∀ g, gate = some g → s.gatePipe? g = some q) (t : Nat) (r : Pipe.Request) :
    (s.serve t gate q r).bareBy L p =
      ((s.bareBy L p).serve t (if q = p then none else gate) q r).bareBy L p := by
  cases hb : s.pipe? q with
  | none =>
    have hc : s.channels[q]? = none := by simpa [pipe?] using hb
    have hc' : (s.bareBy L p).channels[q]? = none := hc
    simp only [serve, hc, hc', bareBy_bareBy]
  | some b =>
    have hb' : (s.bareBy L p).pipe? q = some b := hb
    rw [serve_eq hb, serve_eq hb']
    cases (b.serve r).reply with
    | wait again =>
      simp only
      rw [bareBy_park, bareBy_refresh, bareBy_park, bareBy_refresh, bareBy_bareBy]
      split <;> rfl
    | done outcome =>
      have hrelease := bareBy_release (s := s.refresh q (b.serve r)) L (hclear.congr rfl) (q := q) hgate
      simp only
      rw [bareBy_complete, hrelease, bareBy_refresh]

/-! ### Taking a gate -/

theorem clear_bareBy (L : Layout) (p : Nat) (s : Session) : (s.bareBy L p).Clear p := by
  intro g hg
  rw [gatePipe?_bareBy] at hg
  obtain ⟨gate, hg, hp⟩ := Option.map_eq_some_iff.1 hg
  rw [waiters_gate (gate_bareBy L p hg), bare_of_pipe_eq hp]
  rfl

theorem Clear.take (h : s.Clear p) {gate : Gate} (hg : s.gates[g]? = some gate) (t : Nat) :
    (s.take t g).Clear p := by
  intro g' hgp
  rw [gatePipe?_take] at hgp
  have hw := h g' hgp
  rw [waiters_take hg]
  by_cases hgg : g' = g
  · subst hgg
    rw [waiters_gate hg] at hw
    rw [Function.update_self, hw]
    rfl
  · rw [Function.update_of_ne (by simpa using hgg), hw]

theorem bareBy_enter_of_eq (L : Layout) (hclear : s.Clear p) {gate : Gate}
    (hg : s.gates[g]? = some gate) (hp : gate.pipe = p) (t : Nat) (r : Pipe.Request) :
    (s.enter t g r).bareBy L p = ((s.bareBy L p).serve t none p r).bareBy L p := by
  have hgate : ∀ g', some g = some g' → (s.take t g).gatePipe? g' = some gate.pipe := by
    rintro g' ⟨⟩
    rw [gatePipe?_take, gatePipe?_of_gate hg]
  have htake : (s.take t g).bareBy L p = s.bareBy L p :=
    bareBy_gates_of_eq L hg hp fun _ => rfl
  rw [enter_eq hg, bareBy_serve L (hclear.take hg t) hgate, if_pos hp, htake, hp]

theorem bareBy_enter_of_ne (L : Layout) (hclear : s.Clear p) {gate : Gate}
    (hg : s.gates[g]? = some gate) (hne : gate.pipe ≠ p) (t : Nat) (r : Pipe.Request) :
    (s.enter t g r).bareBy L p = ((s.bareBy L p).enter t g r).bareBy L p := by
  have hgate : ∀ g', some g = some g' → (s.take t g).gatePipe? g' = some gate.pipe := by
    rintro g' ⟨⟩
    rw [gatePipe?_take, gatePipe?_of_gate hg]
  have htake : (s.take t g).bareBy L p = (s.bareBy L p).take t g :=
    bareBy_gates_of_ne L hg hne fun _ => rfl
  rw [enter_eq hg, bareBy_serve L (hclear.take hg t) hgate, if_neg hne, htake,
    enter_eq (gate_bareBy L p hg), bare_of_pipe_ne hne]

/-! ### Beginning an operation -/

theorem bareBy_stream (L : Layout) (p : Nat) (s : Session) (t : Nat) (n : StreamName)
    (r : Sink.Request) : (s.approach t (.stream n) r).bareBy L p =
      ((s.bareBy L p).approach t (.stream n) r).bareBy L p := by
  obtain ⟨hanswer, hstdio⟩ := s.stdio.perform_bare n r
  have hcomplete : ∀ (s : Session) io outcome,
      (({ s with stdio := io } : Session).complete t outcome).bareBy L p =
        (({ s.bareBy L p with stdio := io.bare } : Session).complete t outcome).bareBy L p :=
    fun s io outcome => bareBy_complete L p { s with stdio := io } t outcome
  have hleft := hcomplete s (s.stdio.perform n r).1 (s.stdio.perform n r).2
  have hright := hcomplete (s.bareBy L p) (s.stdio.bare.perform n r).1 (s.stdio.bare.perform n r).2
  rw [bareBy_bareBy, hstdio] at hright
  refine hleft.trans (Eq.trans ?_ hright.symm)
  rw [hanswer]

/-- A request to what stands before other pipes, or to an open gate. -/
theorem bareBy_approach (L : Layout) (hclear : s.Clear p) {b : Backing}
    (hopen : ∀ g gate, b = .gate g → s.gates[g]? = some gate → gate.pipe = p → gate.isOpen = true)
    (t : Nat) (r : Sink.Request) :
    (s.approach t b r).bareBy L p = ((s.bareBy L p).approach t b r).bareBy L p := by
  cases b with
  | stream n => exact bareBy_stream ..
  | pipe q =>
    have hserve := bareBy_serve (q := q) L hclear (fun g (h : none = some g) => by cases h) t (.ofSink r)
    rw [ite_self] at hserve
    exact hserve
  | gate g =>
    cases hg : s.gates[g]? with
    | none =>
      have hg' : (s.bareBy L p).gates[g]? = none := by simp only [bareBy, List.getElem?_map, hg]; rfl
      simp only [approach, hg, hg', bareBy_bareBy]
    | some gate =>
      have hg' := gate_bareBy L p hg
      simp only [approach, hg, hg']
      by_cases hp : gate.pipe = p
      · rw [if_pos (hopen g gate rfl hg hp), if_pos (by rw [bare_of_pipe_eq hp]; rfl),
          bareBy_enter_of_eq L hclear hg hp,
          bareBy_enter_of_eq L (clear_bareBy L p s) hg' (by rw [pipe_bare, hp]), bareBy_bareBy]
      · rw [bare_of_pipe_ne hp]
        split
        · exact bareBy_enter_of_ne L hclear hg hp t _
        · have hqueue : ∀ {s : Session}, s.gates[g]? = some gate →
              ({ s with gates := s.gates.set g { gate with queue := gate.queue ++ [⟨t, .parked⟩] } } :
                Session).setStage t (.atGate g (.ofSink r)) = s.queue t g (.ofSink r) := fun h => by
            simp only [queue, ← set_eq_modify h]
          rw [bare_of_pipe_ne hp] at hg'
          rw [hqueue hg, hqueue hg', bareBy_queue_of_ne L hg hp, bareBy_queue_of_ne L hg' hp,
            bareBy_bareBy]

/-- A request to an open gate before the pipe comes to the write end. -/
theorem bareBy_approach_gate (L : Layout) (hclear : s.Clear p) {gate : Gate}
    (hg : s.gates[g]? = some gate) (hp : gate.pipe = p) (hopen : gate.isOpen = true) (t : Nat)
    (r : Sink.Request) : (s.approach t (.gate g) r).bareBy L p =
      ((s.bareBy L p).approach t (.pipe p) r).bareBy L p := by
  simp only [approach, hg]
  rw [if_pos hopen, bareBy_enter_of_eq L hclear hg hp]

/-- Whether the gates before a pipe that a call asks are open. -/
def Admits (s : Session) (p : Nat) (c : Call) : Prop :=
  ∀ g q gate, s.Aims c (.gate g) q → s.gates[g]? = some gate → gate.pipe = p → gate.isOpen = true

theorem isOpen_bareBy (L : Layout) (p : Nat) {gate : Gate}
    (hg : (s.bareBy L p).gates[g]? = some gate) (hp : gate.pipe = p) : gate.isOpen = true := by
  simp only [bareBy, List.getElem?_map] at hg
  obtain ⟨gate', -, rfl⟩ := Option.map_eq_some_iff.1 hg
  rw [pipe_bare] at hp
  rw [bare_of_pipe_eq hp]
  rfl

/-- An operation begins that does not ask a gate before the pipe, or asks an open one. -/
theorem bareBy_begin (L : Layout) (hclear : s.Clear p) {c : Call} (hopen : s.Admits p c) (t : Nat) :
    (s.begin t c.operation).bareBy L p = ((s.bareBy L p).begin t c.operation).bareBy L p := by
  have hcomplete : ∀ d outcome, ((s.setEntry t d).complete t outcome).bareBy L p =
      (((s.bareBy L p).setEntry t d).complete t outcome).bareBy L p := fun d outcome => by
    rw [bareBy_complete, bareBy_setEntry, bareBy_complete (s := (s.bareBy L p).setEntry t d),
      bareBy_setEntry, bareBy_bareBy]
  have happroach : ∀ d b q, s.Aims c b q → ((s.setEntry t d).approach t b q).bareBy L p =
      (((s.bareBy L p).setEntry t d).approach t b q).bareBy L p := fun d b q haim => by
    rw [bareBy_approach (s := s.setEntry t d) L (hclear.congr rfl) fun g gate hb hg hp =>
        hopen g q gate (hb ▸ haim) hg hp, bareBy_setEntry,
      bareBy_approach (s := (s.bareBy L p).setEntry t d) L ((clear_bareBy L p s).congr rfl)
        fun g gate hb hg hp => isOpen_bareBy L p hg hp, bareBy_setEntry, bareBy_bareBy]
  cases hop : c.operation with
  | answered outcome => exact bareBy_complete ..
  | onPipe q r =>
    have hserve := bareBy_serve (q := q) L hclear (fun g (h : none = some g) => by cases h) t r
    rw [ite_self] at hserve
    exact hserve
  | onBacking b q =>
    exact bareBy_approach L hclear (fun g gate hb => hopen g q gate (hb ▸ .inl hop)) t q
  | onOutlet o q =>
    have ho : (s.bareBy L p).outlets[o]? = s.outlets[o]? := rfl
    simp only [begin, ho]
    cases hx : s.outlets[o]? with
    | none => exact (bareBy_bareBy L p s).symm
    | some x =>
      have haim : ∀ b, x.backing = some b → s.Aims c b q := fun b hb => .inr ⟨o, x, hop, hx, hb⟩
      obtain ⟨d, backing⟩ := x
      cases d <;> cases backing <;> first | exact hcomplete _ _ | exact happroach _ _ q (haim _ rfl)

/-- A call begins, with a request to the write end in place of one to an open gate. -/
theorem bare_begin (hclear : s.Clear p) {c : Call} (hopen : s.Admits p c) (t : Nat) :
    (s.begin t c.operation).bareBy s.layout p =
      ((s.bareBy s.layout p).begin t (c.bare s.layout p).operation).bareBy s.layout p := by
  rcases c.bare_cases s.layout p with hc | ⟨r, g, hc⟩
  · rw [hc]
    exact bareBy_begin _ hclear hopen t
  · rw [hc.bare]
    cases hc with
    | backing hg =>
      obtain ⟨gate, hg, hp⟩ := Option.map_eq_some_iff.1 hg
      exact bareBy_approach_gate _ hclear hg hp (hopen g r gate (.inl rfl) hg hp) t r
    | @outlet o ho hg =>
      obtain ⟨gate, hg, hp⟩ := Option.map_eq_some_iff.1 hg
      have ho : s.outlets[o]? = some (.ofGate g) := ho
      have hgate := hopen g r gate (.inr ⟨o, _, rfl, ho, rfl⟩) hg hp
      have happroach := bareBy_approach_gate (s := s.setEntry t .pipe) s.layout (hclear.congr rfl) hg hp
        hgate t r
      rw [bareBy_setEntry] at happroach
      simp only [Call.operation, begin, ho]
      exact happroach

/-! ### The turn of a task -/

theorem bareBy_wakeGate_of_ne (L : Layout) {gate : Gate} (hg : s.gates[g]? = some gate)
    (hne : gate.pipe ≠ p) : (s.wakeGate g).bareBy L p = (s.bareBy L p).wakeGate g := by
  have hwake : ∀ {s : Session}, s.gates[g]? = some gate → s.wakeGate g =
      ({ s with gates := s.gates.modify g fun gate =>
        { gate with queue := (Waiter.wakeFirst gate.queue).1 } } : Session).enqueue
          (Waiter.wakeFirst gate.queue).2 := fun h => by
    simp only [wakeGate, h, ← set_eq_modify h]
  have hg' := gate_bareBy L p hg
  rw [bare_of_pipe_ne hne] at hg'
  rw [hwake hg, hwake hg', bareBy_enqueue]
  exact congrArg (enqueue · _) (bareBy_gates_of_ne L hg hne fun _ => rfl)

/-- Whether a stage knows no gate but those that stand before the pipe in which a task waits. -/
def Knows (s : Session) (p : Nat) : Stage → Prop
  | .atGate g _ => ∃ gate, s.gates[g]? = some gate ∧ gate.pipe ≠ p
  | .inPipe (some g) q _ => s.gatePipe? g = some q
  | _ => True

/-- The end of a cancelled task. -/
theorem bareBy_abandon (L : Layout) (hclear : s.Clear p) {st : Stage} (hst : s.Knows p st) (t : Nat) :
    (s.abandon t st).bareBy L p = (s.bareBy L p).abandon t (st.bare p) := by
  cases st with
  | fresh => exact bareBy_finish ..
  | ended o => exact bareBy_finish ..
  | atGate g r =>
    obtain ⟨gate, hg, hne⟩ := hst
    have hleft : (s.leave t (.gate g)).gates[g]? =
        some { gate with queue := Waiter.without t gate.queue } := by
      simp [leave, alter, hg]
    have hheld : (s.bareBy L p |>.leave t (.gate g)).gateHeld g = (s.leave t (.gate g)).gateHeld g := by
      have hg' := gate_bareBy L p hg
      rw [bare_of_pipe_ne hne] at hg'
      simp [gateHeld, leave, alter, hg, hg', Gate.isHeld]
    have hleave : (if (s.leave t (.gate g)).gateHeld g then s.leave t (.gate g)
        else (s.leave t (.gate g)).wakeGate g).bareBy L p =
        (if (s.bareBy L p |>.leave t (.gate g)).gateHeld g then s.bareBy L p |>.leave t (.gate g)
          else (s.bareBy L p |>.leave t (.gate g)).wakeGate g) := by
      rw [apply_ite (bareBy L p), bareBy_wakeGate_of_ne L hleft hne, hheld, leave, bareBy_alter L p s rfl]
      rfl
    exact (bareBy_finish ..).trans (congrArg (finish · t _) hleave)
  | inPipe gate q r =>
    have hgate : ∀ g, gate = some g → (s.leave t (.pipe q)).gatePipe? g = some q := by
      rintro g rfl
      exact hst
    have hrelease := bareBy_release L (s := s.leave t (.pipe q)) (hclear.congr rfl) hgate
    exact (bareBy_finish ..).trans (congrArg (finish · t _) hrelease)

theorem bare_runTask (hclear : s.Clear p) (hk : s.tasks[t]? = some task) (hst : s.Knows p task.stage)
    (hopen : task.stage = .fresh → s.Admits p task.call) :
    (s.runTask t).bareBy s.layout p =
      ((s.bareBy s.layout p).runTask t).bareBy s.layout p := by
  have hk' : (s.bareBy s.layout p).tasks[t]? = some (task.bare s.layout p) := by
    rw [task_bareBy, hk]
    rfl
  have habandon : (s.abandon t task.stage).bareBy s.layout p =
      ((s.bareBy s.layout p).abandon t (task.stage.bare p)).bareBy s.layout p := by
    rw [← bareBy_abandon s.layout hclear hst, bareBy_bareBy]
  obtain ⟨c, st, d, v⟩ := task
  simp only [runTask, hk, hk', Task.bare]
  cases v with
  | true =>
    cases st with
    | ended o => exact (bareBy_bareBy ..).symm
    | fresh => exact habandon
    | atGate g r => exact habandon
    | inPipe gate q r => exact habandon
  | false =>
    cases st with
    | ended o => exact (bareBy_bareBy ..).symm
    | fresh => exact bare_begin hclear (hopen rfl) t
    | atGate g r =>
      obtain ⟨gate, hg, hne⟩ := hst
      exact bareBy_enter_of_ne _ hclear hg hne t r
    | inPipe gate q r =>
      have hgate : ∀ g, gate = some g → (s.leave t (.pipe q)).gatePipe? g = some q := by
        rintro g rfl
        exact hst
      have hserve := bareBy_serve s.layout (s := s.leave t (.pipe q)) (hclear.congr rfl) hgate t r
      exact hserve

/-- Nobody queues for a gate before the pipe, so no stage knows one as the place of a task. -/
theorem Clear.knows (hclear : s.Clear p) (h : Sound s none none) (hk : s.tasks[t]? = some task) :
    s.Knows p task.stage := by
  have hpur := h.employed.pursues t task hk (by simp)
  cases hst : task.stage with
  | fresh => trivial
  | ended o => trivial
  | inPipe gate q r =>
    cases gate with
    | none => trivial
    | some g =>
      rw [hst] at hpur
      obtain ⟨-, -, -, hg⟩ := hpur
      exact hg
  | atGate g r =>
    rw [hst] at hpur
    obtain ⟨-, -, -, q, hgp⟩ := hpur
    obtain ⟨gate, hg, rfl⟩ := Option.map_eq_some_iff.1 hgp
    refine ⟨gate, hg, fun hp => ?_⟩
    have hpl : s.place? t = some (.gate g) := by rw [place?_of_task hk, hst]; rfl
    have hmem := h.placed.mem_of_place t _ (by simp) hpl
    rw [hclear g (by rw [hgp, hp])] at hmem
    cases hmem

/-- A turn of a task is the same for what remains of the session. -/
theorem bare_turn (h : Sound s none none) (hclear : s.Clear p) {rest : List Job}
    (hr : s.ready = .task t :: rest) (hk : s.tasks[t]? = some task)
    (hopen : task.stage = .fresh → s.Admits p task.call) :
    s.turn.bare p = (s.bare p).turn.bareBy s.layout p := by
  have hlayout : s.turn.layout = s.layout := by
    rw [layout, outlets_turn h, gatePipe?_turn h, layout]
  have hready : (s.bare p).ready = .task t :: rest.filter Job.isTask := by
    show s.ready.filter Job.isTask = _
    rw [hr]
    rfl
  have hrun := bare_runTask (s := { s with ready := rest }) (hclear.congr rfl) hk
    (hclear.knows h hk) hopen
  rw [bare, hlayout]
  simp only [turn, hr, hready]
  exact hrun

/-- Nothing remains of a notice that is recorded. -/
theorem bare_turn_deliver {n : Notice} {copies : Nat} {rest : List Job}
    (hr : s.ready = .deliver n copies :: rest) : s.turn.bare p = s.bare p := by
  have hready : s.ready.filter Job.isTask = rest.filter Job.isTask := by
    rw [hr]
    rfl
  have hstdio := (s.journal.noted_deliver s.stdio n copies).bare
  simp only [turn, hr]
  simp only [bare, bareBy, hready, deliver, hstdio]
  rfl

/-! ### What is done from outside -/

/-- What a session needs is there in another, and its outlets for the pipe are those of the other. -/
structure Keeps (s s' : Session) (p : Nat) : Prop where
  sound : Sound s none none
  members : Extends s s'
  outlets : ∀ (o : Nat) x, s.outlets[o]? = some x → ∃ x', s'.outlets[o]? = some x' ∧
    (x'.gate?.bind s.gatePipe? = some p ↔ x.gate?.bind s.gatePipe? = some p)

theorem Keeps.bare (h : Keeps s s' p) {c : Call} (hc : s.Fits c) :
    c.bare s'.layout p = c.bare s.layout p := by
  have hgate : ∀ g, s.Has (.gate g) → s'.gatePipe? g = s.gatePipe? g := by
    rintro g ⟨q, hq⟩
    rw [hq, h.members.gatePipe g q hq]
  cases c with
  | backing b r =>
    cases b with
    | gate g =>
      have hg : s'.layout.gatePipe? g = s.layout.gatePipe? g := hgate g hc
      simp only [Call.bare, hg]
    | stream n => rfl
    | pipe q => rfl
  | outlet o r =>
    obtain ⟨x, hx⟩ := hc
    obtain ⟨x', hx', hiff⟩ := h.outlets o x hx
    have hpipe : x'.gate?.bind s'.gatePipe? = x'.gate?.bind s.gatePipe? := by
      cases hg : x'.gate? with
      | none => rfl
      | some g =>
        obtain ⟨x'', hx'', hb⟩ := h.members.outlet o x hx
        cases hx'.symm.trans hx''
        rw [Outlet.gate?_eq_some.1 hg] at hb
        exact hgate g (h.sound.housed.backing x (List.mem_of_getElem? hx) _ hb.symm).1
    rw [← hpipe] at hiff
    have ho : ((s'.layout.outlets[o]?).bind Outlet.gate?).bind s'.layout.gatePipe? = some p ↔
        ((s.layout.outlets[o]?).bind Outlet.gate?).bind s.layout.gatePipe? = some p := by
      simp only [layout, hx, hx', Option.bind_some]
      exact hiff
    simp only [Call.bare, ho]
  | _ => rfl

theorem Keeps.tasks (h : Keeps s s' p) :
    s.tasks.map (Task.bare s'.layout p) = s.tasks.map (Task.bare s.layout p) := by
  refine List.map_congr_left fun task hk => ?_
  obtain ⟨t, hk⟩ := List.getElem?_of_mem hk
  simp only [Task.bare, h.bare (h.sound.employed.fits t task hk)]

theorem bare_addPipe (s : Session) (p : Nat) (b : Pipe) :
    (s.addPipe b).1.bare p = ((s.bare p).addPipe b).1 := rfl

theorem bare_addGate (h : Sound s none none) (p q : Nat) :
    (s.addGate q).1.bare p = ((s.bare p).addGate q).1 := by
  have hk : Keeps s (s.addGate q).1 p :=
    ⟨h, extends_addGate s q, fun o x hx => ⟨x, hx, Iff.rfl⟩⟩
  have hgate : (Gate.ofPipe q).bare p = .ofPipe q := by
    by_cases hq : q = p <;> simp [Gate.bare, Gate.ofPipe, hq]
  have htasks := hk.tasks
  simp only [bare, bareBy, addGate, List.map_append, List.map_cons, List.map_nil, hgate]
  congr 1

theorem bare_addOutlet (h : Sound s none none) (p : Nat) (x : Outlet) :
    (s.addOutlet x).1.bare p = ((s.bare p).addOutlet x).1 := by
  have hk : Keeps s (s.addOutlet x).1 p := by
    refine ⟨h, extends_addOutlet s x, fun o y hy => ⟨y, ?_, Iff.rfl⟩⟩
    obtain ⟨hlt, rfl⟩ := List.getElem?_eq_some_iff.1 hy
    exact List.getElem?_append_left hlt ▸ hy
  have htasks := hk.tasks
  simp only [bare, bareBy, addOutlet]
  congr 1

theorem bare_retarget (h : Sound s none none) {place : Nat} {x : Outlet} (name : String)
    (hx : s.outlets[place]? = some x) (hgate : ∀ g, x = .ofGate g → s.gatePipe? g ≠ some p) :
    ({ s with outlets := s.outlets.set place { x with destination := .other name } } : Session).bare p =
      { s.bare p with outlets := s.outlets.set place { x with destination := .other name } } := by
  have hk : Keeps s { s with outlets := s.outlets.set place { x with destination := .other name } } p := by
    refine ⟨h, extends_retarget name hx, fun o y hy => ?_⟩
    by_cases ho : place = o
    · subst ho
      cases hx.symm.trans hy
      obtain ⟨hlt, -⟩ := List.getElem?_eq_some_iff.1 hx
      refine ⟨_, List.getElem?_set_self hlt, fun hnew => ?_, fun hold => ?_⟩
      · cases hnew
      · obtain ⟨g, hg, hp⟩ := Option.bind_eq_some_iff.1 hold
        exact absurd hp (hgate g (Outlet.gate?_eq_some.1 hg))
    · exact ⟨y, by rw [List.getElem?_set_ne ho, hy], Iff.rfl⟩
  have htasks := hk.tasks
  simp only [bare, bareBy]
  congr 1

theorem bare_spawn (s : Session) (p : Nat) (c : Call) :
    (s.spawn c).1.bare p = ((s.bare p).spawn (c.bare s.layout p)).1 := by
  have hready : (s.ready ++ [Job.task s.tasks.length]).filter Job.isTask =
      s.ready.filter Job.isTask ++ [Job.task s.tasks.length] := by
    rw [List.filter_append]
    rfl
  simp only [bare, bareBy, spawn, List.map_append, hready, List.length_map]
  rfl

theorem bare_post (s : Session) (p : Nat) (n : Notice) : (s.post n).bare p = s.bare p := by
  have hlayout : (s.post n).layout = s.layout := by
    rw [layout, (fields_post s n).2.2.1, gatePipe?_congr (fields_post s n).2.1, layout]
  rw [bare, hlayout, bareBy_post, bare]

theorem bare_ask (s : Session) (p t : Nat) : (s.ask t).bare p = (s.bare p).ask t := by
  have hm : (s.tasks.modify t fun task => { task with cancelling := true }).map (Task.bare s.layout p) =
      (s.tasks.map (Task.bare s.layout p)).modify t fun task => { task with cancelling := true } :=
    map_modify fun _ _ => rfl
  exact congrArg (fun tasks => ({ s.bare p with tasks } : Session)) hm

theorem bare_evict (s : Session) (p t : Nat) (a : Place) :
    (s.evict t a).bare p = (s.bare p).evict t a := by
  have hlayout : (s.evict t a).layout = s.layout := by
    rw [layout, layout]
    congr 1
    · exact (fields_alter s _ a).2.1
    · exact gatePipe?_alter s _ a
  rw [bare, hlayout, evict, bareBy_enqueue, bareBy_alter s.layout p s rfl]
  rfl

theorem place?_bare (p : Nat) (st : Stage) : (st.bare p).place? = st.place? := by cases st <;> rfl

theorem isUnfinished_bare (L : Layout) (p : Nat) (task : Task) :
    (task.bare L p).isUnfinished = task.isUnfinished := by
  obtain ⟨c, st, d, v⟩ := task
  cases st <;> rfl

theorem Clear.waiters_bare (h : s.Clear p) (a : Place) : (s.bare p).waiters a = s.waiters a := by
  cases a with
  | pipe q => rfl
  | gate g =>
    cases hg : s.gates[g]? with
    | none =>
      have hg' : (s.bare p).gates[g]? = none := by simp only [bare, bareBy, List.getElem?_map, hg]; rfl
      rw [waiters_eq_nil_of_gate hg, waiters_eq_nil_of_gate hg']
    | some gate =>
      by_cases hp : gate.pipe = p
      · have hgp : s.gatePipe? g = some p := by rw [gatePipe?_of_gate hg, hp]
        rw [h g hgp]
        exact clear_bareBy s.layout p s g (by rw [gatePipe?_bareBy, hgp])
      · exact waiters_bareBy s.layout p hg hp

theorem bare_cancel (hclear : s.Clear p) (t : Nat) :
    (s.cancel t).1.bare p = ((s.bare p).cancel t).1 ∧
      ((s.bare p).cancel t).2 = (s.cancel t).2 := by
  cases hk : s.tasks[t]? with
  | none =>
    have hk' : (s.bare p).tasks[t]? = none := by rw [bare, task_bareBy, hk]; rfl
    simp only [cancel, hk, hk', and_self]
  | some task =>
    have hk' : (s.bare p).tasks[t]? = some (task.bare s.layout p) := by rw [bare, task_bareBy, hk]; rfl
    rw [cancel_eq hk, cancel_eq hk', isUnfinished_bare]
    simp only [show (task.bare s.layout p).stage = task.stage.bare p from rfl, place?_bare]
    cases task.stage.place? with
    | none =>
      simp only
      split
      · exact ⟨bare_ask .., rfl⟩
      · exact ⟨rfl, rfl⟩
    | some a =>
      simp only [hclear.waiters_bare, and_true]
      split
      · rw [bare_evict, bare_ask]
      · exact bare_ask ..

end Session

end Outflow
