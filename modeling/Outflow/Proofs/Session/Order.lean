import Outflow.Proofs.Session.Effects

/-!
# Who waits, who runs next, and what is recorded

What a turn does to the order of tasks, in the waiting lists and in the ready queue.

* `Course.line`: the task that has the turn leaves its waiting list, and is the last in the list in which
  it waits after its turn; all others keep their order;
* `Course.ready`: a task that goes on stands first in the ready queue, whoever stood there before keeps
  the order, and those who are woken follow, and a notice;
* `Course.ready_of_put_off`: a task that is put off without changing a pipe wakes nobody;
* `Course.notices`, `Course.recorded`: what is recorded;
* `Course.tasks`, `outlets_turn`, `gatePipe?_turn`, `cancelling_turn`: what else a turn keeps;
* `Move.line`, `Move.ready`, `Move.cancelling`: what is done from outside changes no order.
-/

namespace Outflow

namespace Pipe

/-- A request that is put off wakes nobody unless it changes the pipe. -/
theorem wakes_of_wait {p : Pipe} {r again : Request} (h : (p.serve r).reply = .wait again)
    (hp : (p.serve r).pipe = p) : (p.serve r).wakes = false := by
  obtain ⟨-, hs⟩ | ⟨ha, hs⟩ := serve_cases p r
  · rw [hs]
  · obtain ⟨hr, hcase⟩ := wait_cases h
    rcases hcase with ⟨rfl, he⟩ | ⟨got, rfl, -⟩
    · rw [he, ha] at hr
      cases hr
    · by_cases hc : p.readClosed = true
      · simp [hs, perform, drained, hc]
      · rw [Bool.not_eq_true] at hc
        rw [hs, perform_drain_of_open hc] at hp ⊢
        have hb : p.buffer = [] := by rw [← hp]
        simp [hb]

end Pipe

/-- A task that has had an answer waits nowhere. -/
theorem Task.place?_after (task : Task) (d : Destination) (outcome : Outcome) :
    (task.after d outcome).stage.place? = none := by
  unfold Task.after
  split <;> rfl

theorem Task.cancelling_after (task : Task) (d : Destination) (outcome : Outcome) :
    (task.after d outcome).cancelling = task.cancelling := by
  unfold Task.after
  split <;> rfl

namespace Session

variable {s s' s₁ : Session} {t p g : Nat} {task : Task} {rest : List Job}

theorem stage?_of_task (hk : s.tasks[t]? = some task) : s.stage? t = some task.stage := by
  rw [stage?, hk, Option.map_some]

theorem place?_of_task (hk : s.tasks[t]? = some task) : s.place? t = task.stage.place? := by
  rw [place?, stage?_of_task hk, Option.bind_some]

/-! ### The parts of a turn -/

theorem line_complete (s : Session) (t : Nat) (outcome : Outcome) :
    (s.complete t outcome).line = s.line :=
  line_congr (channels_complete ..) (gates_complete ..).1

theorem line_release (s : Session) (gate : Option Nat) (a : Place) :
    (s.release gate).line a = s.line a := by
  cases gate with
  | none => rfl
  | some g =>
    cases hg : s.gates[g]? with
    | some gate => rw [release_eq hg, line_free hg]
    | none =>
      have hm := modify_of_none hg fun gate => { gate with holder := none }
      have hs : s.release (some g) = s := by
        simp only [release, wakeGate, hm, hg]
      rw [hs]

theorem line_refresh {b : Pipe} (hb : s.pipe? p = some b) (served : Pipe.Served) (a : Place) :
    (s.refresh p served).line a = s.line a := by
  rw [line, waiters_refresh hb, line]
  by_cases ha : a = .pipe p
  · subst ha
    rw [Function.update_self]
    split
    · exact (Waiter.roused_wakeAll _).map_task
    · rfl
  · rw [Function.update_of_ne ha]

theorem line_park {b : Pipe} (hb : s.pipe? p = some b) (t : Nat) (gate : Option Nat)
    (r : Pipe.Request) (a : Place) :
    (s.park t gate p r).line a = s.line a ++ if some (.pipe p) = some a then [t] else [] := by
  rw [line, waiters_park hb, update_append, line]
  split
  · rw [List.map_append]
    rfl
  · rw [List.append_nil]

theorem line_queue {gate : Gate} (hg : s.gates[g]? = some gate) (t : Nat) (r : Pipe.Request)
    (a : Place) :
    (s.queue t g r).line a = s.line a ++ if some (.gate g) = some a then [t] else [] := by
  rw [line, waiters_queue hg, ← waiters_gate hg, update_append, line]
  split
  · rw [List.map_append]
    rfl
  · rw [List.append_nil]

/-- A notice is put at the end of the ready queue, or nothing. -/
theorem ready_announce (s : Session) (task : Task) (outcome : Outcome) :
    ∃ ns : List Job, (s.announce task outcome).ready = s.ready ++ ns ∧ ns.length ≤ 1 ∧
      ∀ j ∈ ns, ∃ n k, j = .deliver n k := by
  have hnone : ∃ ns : List Job, s.ready = s.ready ++ ns ∧ ns.length ≤ 1 ∧
      ∀ j ∈ ns, ∃ n k, j = Job.deliver n k := ⟨[], by simp, by simp, by simp⟩
  unfold announce emit post
  split
  · rename_i n _
    simp only
    split
    · exact ⟨[.deliver n s.journal.subscribers], rfl, by simp, by simp⟩
    · exact hnone
  · exact hnone

theorem ready_release (s : Session) (gate : Option Nat) :
    ∃ ts : List Nat, (s.release gate).ready = s.ready ++ ts.map .task := by
  cases gate with
  | none => exact ⟨[], by simp [release]⟩
  | some g =>
    unfold release wakeGate
    simp only
    split
    · exact ⟨[], by simp⟩
    · exact ⟨_, rfl⟩

/-- The place that a task which goes on has in the ready queue. -/
def front (s : Session) (t : Nat) : List Job :=
  if (s.stage? t).any Stage.isFresh then [.task t] else []

theorem ready_complete (hk : s.tasks[t]? = some task) (outcome : Outcome) :
    ∃ ns : List Job, (s.complete t outcome).ready = (s.complete t outcome).front t ++ s.ready ++ ns ∧
      ns.length ≤ 1 ∧ ∀ j ∈ ns, ∃ n k, j = .deliver n k := by
  obtain ⟨ns, hr, hns⟩ := ready_announce s task outcome
  have hst := stage?_of_task (task_complete hk outcome)
  refine ⟨ns, ?_, hns⟩
  rw [front, hst, complete_eq hk, Task.after]
  cases task.call.resume (s.destinationOf task.call.outlet?) outcome with
  | done outcome' => exact hr
  | more call => exact congrArg (Job.task t :: ·) hr

theorem endings_announce (s : Session) (task : Task) (outcome : Outcome) :
    (s.announce task outcome).endings = s.endings := by
  unfold announce emit post
  split
  · simp only
    split <;> rfl
  · rfl

theorem records_release (s : Session) (gate : Option Nat) :
    (s.release gate).notices = s.notices ∧ (s.release gate).endings = s.endings := by
  cases gate with
  | none => exact ⟨rfl, rfl⟩
  | some g =>
    unfold release wakeGate
    simp only
    split <;> exact ⟨rfl, rfl⟩

/-- Whether a task has ended, and stands at the end of the tasks that have. -/
def Recorded (s s' : Session) (t : Nat) : Prop :=
  ((∃ o, s'.stage? t = some (.ended o)) ∧ s'.endings = s.endings ++ [t]) ∨
    ((∀ o, s'.stage? t ≠ some (.ended o)) ∧ s'.endings = s.endings)

theorem recorded_complete (hk : s.tasks[t]? = some task) (outcome : Outcome) :
    Recorded s (s.complete t outcome) t := by
  have hst := stage?_of_task (task_complete hk outcome)
  have he := endings_announce s task outcome
  rw [Recorded, hst, complete_eq hk, Task.after]
  cases task.call.resume (s.destinationOf task.call.outlet?) outcome with
  | done outcome' => exact .inl ⟨⟨_, rfl⟩, congrArg (· ++ [t]) he⟩
  | more call => exact .inr ⟨fun o h => (by cases h), he⟩

/-! ### Whole turns -/

theorem stage?_setStage (hk : s.tasks[t]? = some task) (st : Stage) :
    (s.setStage t st).stage? t = some st := by
  rw [stage?, setStage, List.getElem?_modify_eq, hk]
  rfl

theorem place?_of_stage {st : Stage} (h : s.stage? t = some st) : s.place? t = st.place? := by
  rw [place?, h, Option.bind_some]

theorem front_of_stage {st : Stage} (h : s.stage? t = some st) :
    s.front t = if st.isFresh then [.task t] else [] := by
  rw [front, h, Option.any_some]

theorem Poised.ready {held : Option Nat} (h : Poised s t task held s₁)
    (hr : s.ready = .task t :: rest) :
    ∃ ts : List Nat, s₁.ready = rest ++ ts.map .task ∧ (task.cancelling = false → ts = []) := by
  obtain ⟨ts, he, hts, -⟩ := h.onset.ready
  rw [hr, List.cons_append, List.cons.injEq] at he
  exact ⟨ts, he.2.symm, hts⟩

/-- The last part of a turn that brings a request to a pipe. -/
theorem Poised.serve_cases {held : Option Nat} (h : Poised s t task held s₁) {b : Pipe}
    (hb : s.pipe? p = some b) (r : Pipe.Request) :
    (∃ again, (b.serve r).reply = .wait again ∧
      s₁.serve t held p r = (s₁.refresh p (b.serve r)).park t held p again ∧
      ((s₁.refresh p (b.serve r)).park t held p again).stage? t = some (.inPipe held p again)) ∨
    ∃ outcome entry, (b.serve r).reply = .done outcome ∧
      s₁.serve t held p r = ((s₁.refresh p (b.serve r)).release held).complete t outcome ∧
      ((s₁.refresh p (b.serve r)).release held).tasks[t]? = some { task with entry } := by
  obtain ⟨entry, hk⟩ := h.task
  rw [serve_eq (by rw [h.pipe, hb])]
  cases hrep : (b.serve r).reply with
  | wait again => exact .inl ⟨again, rfl, rfl, stage?_setStage hk _⟩
  | done outcome =>
    refine .inr ⟨outcome, entry, rfl, rfl, ?_⟩
    rw [tasks_release]
    exact hk

/-- The task that has the turn leaves its list, and joins that in which it waits then at the end. -/
theorem Course.line (h : Course s t task s') (a : Place) :
    s'.line a = (s.line a).filter (· != t) ++ if s'.place? t = some a then [t] else [] := by
  have hnone : ∀ {s'' : Session}, s''.line a = (s.line a).filter (· != t) → s''.place? t = none →
      s''.line a = (s.line a).filter (· != t) ++ if s''.place? t = some a then [t] else [] := by
    intro s'' hl hpl
    rw [hpl, if_neg (by simp), List.append_nil, hl]
  cases h with
  | @cancelled s₁ hp hc hv =>
    obtain ⟨entry, hk⟩ := hp.task
    exact hnone (hp.onset.line a) (place?_of_stage (stage?_setStage hk _))
  | @answered s₁ hp hc hv hst outcome =>
    obtain ⟨entry, hk⟩ := hp.task
    refine hnone (by rw [line_complete, hp.onset.line]) ?_
    rw [place?_of_task (task_complete hk outcome), Task.place?_after]
  | @queued s₁ g gate q hp hc hv hst hg =>
    obtain ⟨entry, hk⟩ := hp.task
    have hpl : (s₁.queue t g (.ofSink q)).place? t = some (.gate g) :=
      place?_of_stage (stage?_setStage hk _)
    rw [line_queue hg, hp.onset.line, hpl]
  | @served s₁ held p r b hp hc hv hb =>
    have hb₁ : s₁.pipe? p = some b := by rw [hp.pipe, hb]
    have hb' : (s₁.refresh p (b.serve r)).pipe? p = some (b.serve r).pipe := by
      rw [pipe?_refresh hb₁, Function.update_self]
    obtain ⟨again, -, he, hst⟩ | ⟨outcome, entry, -, he, hk⟩ := hp.serve_cases hb r
    · rw [he, line_park hb', line_refresh hb₁, hp.onset.line, place?_of_stage hst]
      rfl
    · rw [he]
      refine hnone (by rw [line_complete, line_release, line_refresh hb₁, hp.onset.line]) ?_
      rw [place?_of_task (task_complete hk outcome), Task.place?_after]

/-- A task that goes on stands first; those who were ready follow in their order, then those who are
woken, and then a notice. -/
theorem Course.ready (h : Course s t task s') (hr : s.ready = .task t :: rest) :
    ∃ (ts : List Nat) (ns : List Job), s'.ready = s'.front t ++ rest ++ ts.map .task ++ ns ∧
      ns.length ≤ 1 ∧ ∀ j ∈ ns, ∃ n k, j = .deliver n k := by
  -- a task that does not go on is not first
  have hput : ∀ {s'' : Session} {st : Stage} (ts : List Nat), s''.stage? t = some st →
      st.isFresh = false → s''.ready = rest ++ ts.map .task →
      ∃ (ts : List Nat) (ns : List Job), s''.ready = s''.front t ++ rest ++ ts.map .task ++ ns ∧
        ns.length ≤ 1 ∧ ∀ j ∈ ns, ∃ n k, j = .deliver n k := by
    intro s'' st ts hst hfr hready
    refine ⟨ts, [], ?_, by simp, by simp⟩
    rw [front_of_stage hst, hfr, hready, List.append_nil]
    rfl
  cases h with
  | @cancelled s₁ hp hc hv =>
    obtain ⟨entry, hk⟩ := hp.task
    obtain ⟨ts, hr₁, -⟩ := hp.ready hr
    exact hput ts (stage?_setStage hk _) rfl hr₁
  | @answered s₁ hp hc hv hst outcome =>
    obtain ⟨entry, hk⟩ := hp.task
    obtain ⟨ts, hr₁, -⟩ := hp.ready hr
    obtain ⟨ns, hr₂, hns⟩ := ready_complete hk outcome
    refine ⟨ts, ns, ?_, hns⟩
    rw [hr₂, hr₁]
    simp only [List.append_assoc]
  | @queued s₁ g gate q hp hc hv hst hg =>
    obtain ⟨entry, hk⟩ := hp.task
    obtain ⟨ts, hr₁, -⟩ := hp.ready hr
    exact hput ts (stage?_setStage hk _) rfl hr₁
  | @served s₁ held p r b hp hc hv hb =>
    obtain ⟨ts, hr₁, -⟩ := hp.ready hr
    obtain ⟨us, hus⟩ : ∃ us : List Nat, (s₁.refresh p (b.serve r)).ready = rest ++ us.map .task := by
      refine ⟨ts ++ (if (b.serve r).wakes then Waiter.wakeAll (s₁.waiters (.pipe p))
        else (s₁.waiters (.pipe p), [])).2, ?_⟩
      rw [List.map_append, ← List.append_assoc, ← hr₁]
      rfl
    obtain ⟨again, -, he, hst⟩ | ⟨outcome, entry, -, he, hk⟩ := hp.serve_cases hb r
    · rw [he]
      exact hput us hst rfl hus
    · obtain ⟨vs, hvs⟩ := ready_release (s₁.refresh p (b.serve r)) held
      obtain ⟨ns, hr₂, hns⟩ := ready_complete hk outcome
      refine ⟨us ++ vs, ns, ?_, hns⟩
      rw [he, hr₂, hvs, hus, List.map_append]
      simp only [List.append_assoc]

/-- A task that is put off and changes no pipe wakes nobody. -/
theorem Course.ready_of_put_off (h : Course s t task s') (hr : s.ready = .task t :: rest)
    (hpl : s'.place? t ≠ none) (hpipe : s'.pipe? = s.pipe?) : s'.ready = rest := by
  cases h with
  | @cancelled s₁ hp hc hv =>
    obtain ⟨entry, hk⟩ := hp.task
    exact absurd (place?_of_stage (stage?_setStage hk _)) hpl
  | @answered s₁ hp hc hv hst outcome =>
    obtain ⟨entry, hk⟩ := hp.task
    rw [place?_of_task (task_complete hk outcome), Task.place?_after] at hpl
    exact absurd rfl hpl
  | @queued s₁ g gate q hp hc hv hst hg =>
    obtain ⟨ts, hr₁, hts⟩ := hp.ready hr
    rw [hts hc, List.map_nil, List.append_nil] at hr₁
    exact hr₁
  | @served s₁ held p r b hp hc hv hb =>
    obtain ⟨ts, hr₁, hts⟩ := hp.ready hr
    rw [hts hc, List.map_nil, List.append_nil] at hr₁
    have hsame : (b.serve r).pipe = b := by
      have hq := congrFun hpipe p
      rw [pipe?_serve (by rw [hp.pipe, hb]), Function.update_self, hb] at hq
      exact Option.some.inj hq
    obtain ⟨again, hrep, he, -⟩ | ⟨outcome, entry, -, he, hk⟩ := hp.serve_cases hb r
    · have hw := Pipe.wakes_of_wait hrep hsame
      rw [he]
      simp only [park, setStage, refresh, enqueue, hw, Bool.false_eq_true, if_false, List.map_nil,
        List.append_nil]
      exact hr₁
    · rw [he, place?_of_task (task_complete hk outcome), Task.place?_after] at hpl
      exact absurd rfl hpl

/-- A task that is to end wakes others at a gate only. -/
theorem Course.ready_of_cancelling (h : Course s t task s') (hr : s.ready = .task t :: rest)
    (hc : task.cancelling = true) :
    ∃ ts : List Nat, s'.ready = rest ++ ts.map .task ∧ ∀ u ∈ ts, ∃ g, u ∈ s.line (.gate g) := by
  cases h with
  | @cancelled s₁ hp hc' hv =>
    obtain ⟨ts, he, -, hts⟩ := hp.onset.ready
    rw [hr, List.cons_append, List.cons.injEq] at he
    exact ⟨ts, he.2.symm, hts⟩
  | answered hp hlive => rw [hc] at hlive; cases hlive
  | queued hp hlive => rw [hc] at hlive; cases hlive
  | served hp hlive => rw [hc] at hlive; cases hlive

theorem Course.stage_of_cancelling (h : Course s t task s') (hc : task.cancelling = true) :
    s'.stage? t = some (.ended (.error .cancelled)) := by
  cases h with
  | cancelled hp hc' hv =>
    obtain ⟨entry, hk⟩ := hp.task
    exact stage?_setStage hk _
  | answered hp hlive => rw [hc] at hlive; cases hlive
  | queued hp hlive => rw [hc] at hlive; cases hlive
  | served hp hlive => rw [hc] at hlive; cases hlive

/-- A task that is to end changes no pipe. -/
theorem Course.pipe_of_cancelling (h : Course s t task s') (hr : s.ready = .task t :: rest)
    (hk : s.tasks[t]? = some task) (hc : task.cancelling = true) : s'.pipe? = s.pipe? := by
  rw [h.pipe]
  exact pipesAfter_of_none (by simp [service?, hr, hk, hc])

/-- Only the end of an operation is noticed. -/
theorem Course.notices (h : Course s t task s')
    (hend : s'.place? t ≠ none ∨ task.cancelling = true) : s'.notices = s.notices := by
  cases h with
  | cancelled hp hc hv => exact hp.onset.notices
  | queued hp hc hv hst hg => exact hp.onset.notices
  | @answered s₁ hp hc hv hst outcome =>
    obtain ⟨entry, hk⟩ := hp.task
    rw [place?_of_task (task_complete hk outcome), Task.place?_after, hc] at hend
    simp at hend
  | @served s₁ held p r b hp hc hv hb =>
    obtain ⟨again, -, he, -⟩ | ⟨outcome, entry, -, he, hk⟩ := hp.serve_cases hb r
    · rw [he]
      exact hp.onset.notices
    · rw [he, place?_of_task (task_complete hk outcome), Task.place?_after, hc] at hend
      simp at hend

/-- The task that has the turn is recorded as ended if it has, and no other is. -/
theorem Course.recorded (h : Course s t task s') : Recorded s s' t := by
  have hput : ∀ {s'' : Session} {st : Stage}, s''.stage? t = some st → (∀ o, st ≠ .ended o) →
      s''.endings = s.endings → Recorded s s'' t := by
    intro s'' st hst hne he
    exact .inr ⟨fun o ho => hne o (Option.some.inj (hst.symm.trans ho)), he⟩
  have hdone : ∀ {s'' : Session} {task'' : Task} (outcome : Outcome), s''.tasks[t]? = some task'' →
      s''.endings = s.endings → Recorded s (s''.complete t outcome) t := by
    intro s'' task'' outcome hk he
    have hrec := recorded_complete hk outcome
    rwa [Recorded, he] at hrec
  cases h with
  | @cancelled s₁ hp hc hv =>
    obtain ⟨entry, hk⟩ := hp.task
    exact .inl ⟨⟨.error .cancelled, stage?_setStage hk _⟩, congrArg (· ++ [t]) hp.onset.endings⟩
  | @answered s₁ hp hc hv hst outcome =>
    obtain ⟨entry, hk⟩ := hp.task
    exact hdone outcome hk hp.onset.endings
  | @queued s₁ g gate q hp hc hv hst hg =>
    obtain ⟨entry, hk⟩ := hp.task
    exact hput (stage?_setStage hk _) (by simp) hp.onset.endings
  | @served s₁ held p r b hp hc hv hb =>
    obtain ⟨again, -, he, hst⟩ | ⟨outcome, entry, -, he, hk⟩ := hp.serve_cases hb r
    · rw [he]
      exact hput hst (by simp) hp.onset.endings
    · rw [he]
      exact hdone outcome hk ((records_release ..).2.trans hp.onset.endings)

/-- Only the task that has the turn is changed. -/
theorem Course.tasks (h : Course s t task s') (hk : s.tasks[t]? = some task) :
    ∃ task', s'.tasks = s.tasks.set t task' ∧ Fate s t task task' := by
  obtain ⟨task', hk', hf⟩ := h.fate
  obtain ⟨hlt, -⟩ := List.getElem?_eq_some_iff.1 hk
  refine ⟨task', List.ext_getElem? fun u => ?_, hf⟩
  by_cases hu : u = t
  · rw [hu, hk', List.getElem?_set_self hlt]
  · rw [h.others hu, List.getElem?_set_ne (Ne.symm hu)]

theorem Course.outlets (h : Course s t task s') : s'.outlets = s.outlets := by
  cases h with
  | cancelled hp hc hv => exact hp.outlets
  | answered hp hc hv hst outcome => exact (gates_complete ..).2.trans hp.outlets
  | queued hp hc hv hst hg => exact hp.outlets
  | @served s₁ held p r b hp hc hv hb =>
    rw [serve_eq (by rw [hp.pipe, hb]), ← hp.outlets]
    cases (b.serve r).reply with
    | wait again => rfl
    | done outcome => exact (gates_complete ..).2.trans (outlets_release ..)

/-- No turn puts a gate before another pipe. -/
theorem Course.gatePipe (h : Course s t task s') : s'.gatePipe? = s.gatePipe? := by
  cases h with
  | cancelled hp hc hv => exact hp.gatePipe
  | answered hp hc hv hst outcome => exact (gatePipe?_congr (gates_complete ..).1).trans hp.gatePipe
  | queued hp hc hv hst hg =>
    rw [← hp.gatePipe]
    exact gatePipe?_modify_gate fun _ => rfl
  | @served s₁ held p r b hp hc hv hb =>
    obtain ⟨again, -, he, -⟩ | ⟨outcome, entry, -, he, -⟩ := hp.serve_cases hb r
    · rw [he]
      exact hp.gatePipe
    · rw [he, gatePipe?_congr (gates_complete ..).1, gatePipe?_release]
      exact hp.gatePipe

/-- What holds of a session in which nothing is ready, or a notice is to be delivered, or a task has the
turn. -/
theorem turn_cases (h : Sound s none none) : (s.ready = [] ∧ s.turn = s) ∨
    (∃ n k rest, s.ready = .deliver n k :: rest ∧
      s.turn = ({ s with ready := rest } : Session).deliver n k) ∨
    ∃ t rest task, s.ready = .task t :: rest ∧ s.tasks[t]? = some task ∧
      (∀ o, task.stage ≠ .ended o) ∧ Course s t task s.turn := by
  cases hr : s.ready with
  | nil => exact .inl ⟨rfl, by simp only [turn, hr]⟩
  | cons job rest =>
    cases job with
    | deliver n k => exact .inr (.inl ⟨n, k, rest, rfl, by simp only [turn, hr]⟩)
    | task t =>
      obtain ⟨task, hk, hended⟩ := exists_task h hr
      exact .inr (.inr ⟨t, rest, task, rfl, hk, hended, turn_course h hr hk⟩)

/-- Only the task that has the turn is changed. -/
theorem tasks_turn_of_ne (h : Sound s none none) (hne : ∀ rest, s.ready ≠ .task t :: rest) :
    s.turn.tasks[t]? = s.tasks[t]? := by
  obtain ⟨-, he⟩ | ⟨n, k, rest, -, he⟩ | ⟨u, rest, task, hr, hk, -, hc⟩ := turn_cases h
  · rw [he]
  · rw [he]
    rfl
  · refine hc.others ?_
    rintro rfl
    exact hne rest hr

/-- A task that has not begun is ready. -/
theorem mem_ready_of_fresh (h : Sound s none none) (hst : s.stage? t = some .fresh) :
    Job.task t ∈ s.ready := by
  have hturn := h.placed.turnsOf_of_place t (by simp) (place?_of_stage hst)
  rw [hst] at hturn
  rw [← List.count_pos_iff]
  change 0 < s.turnsOf t
  rw [hturn]
  exact Nat.one_pos

/-- A task that has ended stays as it is. -/
theorem stage?_turn_of_ended (h : Sound s none none) {o : Outcome}
    (hst : s.stage? t = some (.ended o)) : s.turn.stage? t = some (.ended o) := by
  rw [stage?, tasks_turn_of_ne h fun rest hr => ?_]
  · exact hst
  · obtain ⟨task, hk, hended⟩ := exists_task h hr
    rw [stage?_of_task hk, Option.some.injEq] at hst
    exact hended o hst

theorem length_turn (h : Sound s none none) : s.turn.tasks.length = s.tasks.length := by
  obtain ⟨-, he⟩ | ⟨n, k, rest, -, he⟩ | ⟨u, rest, task, hr, hk, -, hc⟩ := turn_cases h
  · rw [he]
  · rw [he]
    rfl
  · obtain ⟨task', ht, -⟩ := hc.tasks hk
    rw [ht, List.length_set]

theorem outlets_turn (h : Sound s none none) : s.turn.outlets = s.outlets := by
  obtain ⟨-, he⟩ | ⟨n, k, rest, -, he⟩ | ⟨t, rest, task, -, -, -, hc⟩ := turn_cases h
  · rw [he]
  · rw [he]
    rfl
  · exact hc.outlets

theorem gatePipe?_turn (h : Sound s none none) : s.turn.gatePipe? = s.gatePipe? := by
  obtain ⟨-, he⟩ | ⟨n, k, rest, -, he⟩ | ⟨t, rest, task, -, -, -, hc⟩ := turn_cases h
  · rw [he]
  · rw [he]
    rfl
  · exact hc.gatePipe

theorem Fate.cancelling {task' : Task} (h : Fate s t task task') :
    task'.cancelling = task.cancelling := by
  cases h with
  | cancelled => rfl
  | queued => rfl
  | waits => rfl
  | answered => rw [Task.cancelling_after]
  | served => rw [Task.cancelling_after]

/-- A turn asks no task to end. -/
theorem cancelling_turn (h : Sound s none none) : s.turn.isCancelling = s.isCancelling := by
  obtain ⟨-, he⟩ | ⟨n, k, rest, -, he⟩ | ⟨t, rest, task, -, hk, -, hc⟩ := turn_cases h
  · rw [he]
  · rw [he]
    rfl
  · funext u
    by_cases hu : u = t
    · obtain ⟨task', hk', hf⟩ := hc.fate
      rw [hu, isCancelling, hk', isCancelling, hk, Option.map_some, hf.cancelling, Option.map_some]
    · rw [isCancelling, hc.others hu, isCancelling]

/-! ### Moves -/

theorem Move.line (h : Move s s') (hs : Sound s none none) : s'.line = s.line := by
  cases h with
  | addPipe hc =>
    funext a
    rw [Session.line, waiters_addPipe, Session.line]
  | addGate hp =>
    funext a
    rw [Session.line, waiters_addGate, Session.line]
  | addOutlet ho => rfl
  | retarget name ho => rfl
  | spawn hc => rfl
  | post n => exact line_congr (fields_post s n).1 (fields_post s n).2.1
  | record journal stdio => rfl
  | cancel t =>
    funext b
    obtain ⟨-, hc⟩ | ⟨hc, -⟩ | ⟨a, ha, hc⟩ := cancel_cases hs t
    · rw [hc]
    · rw [hc]
      rfl
    · -- whoever is cancelled in a list keeps its place there
      have hw : ((s.ask t).evict t a).waiters =
          Function.update s.waiters a (Waiter.cancel t (s.waiters a)) :=
        (s.ask t).waiters_alter rfl a
      rw [hc, Session.line, hw, Session.line]
      by_cases hb : b = a
      · subst hb
        rw [Function.update_self, (Waiter.roused_cancel (hs.placed.nodup b) ha).map_task]
      · rw [Function.update_of_ne hb]

/-- Whatever a move makes ready comes last. -/
theorem Move.ready (h : Move s s') (hs : Sound s none none) :
    ∃ js : List Job, s'.ready = s.ready ++ js := by
  cases h with
  | addPipe hc => exact ⟨[], (List.append_nil _).symm⟩
  | addGate hp => exact ⟨[], (List.append_nil _).symm⟩
  | addOutlet ho => exact ⟨[], (List.append_nil _).symm⟩
  | retarget name ho => exact ⟨[], (List.append_nil _).symm⟩
  | spawn hc => exact ⟨_, rfl⟩
  | record journal stdio => exact ⟨[], (List.append_nil _).symm⟩
  | post n =>
    unfold Session.post
    split
    · exact ⟨_, rfl⟩
    · exact ⟨[], (List.append_nil _).symm⟩
  | cancel t =>
    obtain ⟨-, hc⟩ | ⟨hc, -⟩ | ⟨a, ha, hc⟩ := cancel_cases hs t
    · exact ⟨[], by rw [hc, List.append_nil]⟩
    · exact ⟨[], by rw [hc, List.append_nil]; rfl⟩
    · exact ⟨[.task t], by rw [hc, evict, enqueue, (fields_alter ..).2.2]; rfl⟩

/-- A task that is to end stays so. -/
theorem Move.cancelling (h : Move s s') (hs : Sound s none none) {u : Nat}
    (hu : s.isCancelling u = true) : s'.isCancelling u = true := by
  have hask : ∀ t, (s.ask t).isCancelling u = true := by
    intro t
    by_cases hut : u = t
    · subst hut
      cases hk : s.tasks[u]? with
      | none =>
        rw [isCancelling, hk] at hu
        cases hu
      | some task => rw [isCancelling, ask, List.getElem?_modify_eq, hk]; rfl
    · rw [isCancelling_ask_of_ne s hut, hu]
  cases h with
  | addPipe hc => exact hu
  | addGate hp => exact hu
  | addOutlet ho => exact hu
  | retarget name ho => exact hu
  | record journal stdio => exact hu
  | post n => rw [isCancelling_congr (fields_post s n).2.2.2, hu]
  | spawn hc =>
    have hne : u ≠ s.tasks.length := by
      rintro rfl
      rw [isCancelling, List.getElem?_eq_none (Nat.le_refl _)] at hu
      cases hu
    rw [isCancelling, task_spawn_of_ne s _ hne]
    exact hu
  | cancel t =>
    obtain ⟨-, hc⟩ | ⟨hc, -⟩ | ⟨a, ha, hc⟩ := cancel_cases hs t
    · rw [hc, hu]
    · rw [hc]
      exact hask t
    · have he : ((s.ask t).evict t a).isCancelling = (s.ask t).isCancelling :=
        isCancelling_congr (fields_alter ..).1
      rw [hc, he]
      exact hask t

/-- On a run no task is removed. -/
theorem Run.length_le {s₀ : Session} {past : List Session} (h : Run s₀ past s)
    (hs : Sound s₀ none none) : s₀.tasks.length ≤ s.tasks.length := by
  induction h with
  | refl => exact Nat.le_refl _
  | turn h ih =>
    rw [length_turn (hs.run h)]
    exact ih
  | move h hm ih => exact Nat.le_trans ih (hm.length_le (hs.run h))

/-- On a run a task that is to end stays so. -/
theorem Run.cancelling {s₀ : Session} {past : List Session} (h : Run s₀ past s)
    (hs : Sound s₀ none none) {u : Nat} (hu : s₀.isCancelling u = true) : s.isCancelling u = true := by
  induction h with
  | refl => exact hu
  | turn h ih =>
    rw [cancelling_turn (hs.run h)]
    exact ih
  | move h hm ih => exact hm.cancelling (hs.run h) ih

end Session

end Outflow
