import Outflow.Proofs.Session.Moves

/-!
# What turns and moves change

* `Service.after`, `answer?`, `accepted`, `removed`: what a service does;
* `pipe?_turn`, `pipe?_turn_cases`: a turn changes a pipe only by its service;
* `Session.Fate`, `task_turn`: what becomes of the task that has the turn; all others stay as they are;
* `Move.pipe`, `Move.task`: a move adds pipes and tasks, and may ask tasks to end.
-/

namespace Outflow

namespace Service

/-- The pipe that a service leaves. -/
def after (v : Service) : Pipe := (v.before.serve v.request).pipe

/-- The outcome of the operation, if the service ends it. -/
def answer? (v : Service) : Option Outcome :=
  match (v.before.serve v.request).reply with
  | .done outcome => some outcome
  | .wait _ => none

/-- The outcome of an operation that a service ends. -/
theorem reply_of_answer {v : Service} {outcome : Outcome} (h : v.answer? = some outcome) :
    (v.before.serve v.request).reply = .done outcome := by
  unfold answer? at h
  split at h
  · cases h
    assumption
  · cases h

/-- The bytes that a service adds to the buffer. -/
def accepted (v : Service) : Bytes := v.before.accepted v.request

/-- The bytes that a service takes from the buffer. -/
def removed (v : Service) : Bytes := v.before.removed v.request

end Service

/-- The task after an operation of its call. -/
def Task.after (task : Task) (d : Destination) (outcome : Outcome) : Task :=
  match task.call.resume d outcome with
  | .done outcome => { task with stage := .ended outcome }
  | .more call => { task with call, stage := .fresh }

namespace Session

variable {s s' s₁ : Session} {held : Option Nat} {t g p : Nat}

/-! ### Operations and their parts -/

theorem tasks_complete {task : Task} (h : s.tasks[t]? = some task) (outcome : Outcome) :
    (s.complete t outcome).tasks =
      s.tasks.set t (task.after (s.destinationOf task.call.outlet?) outcome) := by
  have ht := (fields_announce s task outcome).2.2.2
  rw [complete_eq h, Task.after]
  cases task.call.resume (s.destinationOf task.call.outlet?) outcome with
  | done outcome' =>
    simp only [finish, setStage, ht]
    rw [← set_eq_modify h]
  | more call =>
    simp only [goOn, ht]
    rw [← set_eq_modify h]

theorem task_complete {task : Task} (h : s.tasks[t]? = some task) (outcome : Outcome) :
    (s.complete t outcome).tasks[t]? =
      some (task.after (s.destinationOf task.call.outlet?) outcome) := by
  obtain ⟨hlt, -⟩ := List.getElem?_eq_some_iff.1 h
  rw [tasks_complete h, List.getElem?_set_self hlt]

theorem channels_complete (s : Session) (t : Nat) (outcome : Outcome) :
    (s.complete t outcome).channels = s.channels := by
  cases h : s.tasks[t]? with
  | none => simp only [complete, h]
  | some task =>
    have hc := (fields_announce s task outcome).1
    rw [complete_eq h]
    cases task.call.resume (s.destinationOf task.call.outlet?) outcome with
    | done outcome' => simp only [finish, setStage, hc]
    | more call => simp only [goOn, hc]

theorem channels_release (s : Session) (gate : Option Nat) :
    (s.release gate).channels = s.channels := by
  cases gate with
  | none => rfl
  | some g =>
    unfold release wakeGate
    simp only
    split <;> rfl

theorem gatePipe?_release (s : Session) (gate : Option Nat) :
    (s.release gate).gatePipe? = s.gatePipe? := by
  cases gate with
  | none => rfl
  | some g =>
    cases hg : s.gates[g]? with
    | none =>
      have hg' : (s.gates.modify g fun gate => { gate with holder := none })[g]? = none := by
        rw [modify_of_none hg, hg]
      simp only [release, wakeGate, hg']
      exact gatePipe?_modify_gate fun _ => rfl
    | some gate => rw [release_eq hg, gatePipe?_free]

theorem outlets_release (s : Session) (gate : Option Nat) :
    (s.release gate).outlets = s.outlets := by
  cases gate with
  | none => rfl
  | some g =>
    unfold release wakeGate
    simp only
    split <;> rfl

theorem gates_complete (s : Session) (t : Nat) (outcome : Outcome) :
    (s.complete t outcome).gates = s.gates ∧ (s.complete t outcome).outlets = s.outlets := by
  cases h : s.tasks[t]? with
  | none => simp only [complete, h, and_self]
  | some task =>
    obtain ⟨-, hg, ho, -⟩ := fields_announce s task outcome
    rw [complete_eq h]
    cases task.call.resume (s.destinationOf task.call.outlet?) outcome with
    | done outcome' => simp only [finish, setStage, hg, ho, and_self]
    | more call => simp only [goOn, hg, ho, and_self]

theorem pipe?_serve {b : Pipe} (hb : s.pipe? p = some b) (t : Nat) (gate : Option Nat)
    (r : Pipe.Request) :
    (s.serve t gate p r).pipe? = Function.update s.pipe? p (some (b.serve r).pipe) := by
  rw [serve_eq hb]
  cases (b.serve r).reply with
  | wait again => rw [pipe?_park, pipe?_refresh hb]
  | done outcome =>
    rw [pipe?_congr ((channels_complete ..).trans (channels_release ..)), pipe?_refresh hb]

/-! ### Turns and pipes -/

/-- The next turn brings a request to a pipe only if the task that has it does not end. -/
theorem service?_eq_some {v : Service} (h : s.service? = some v) :
    ∃ rest task, s.ready = .task v.task :: rest ∧ s.tasks[v.task]? = some task ∧
      task.cancelling = false ∧ s.pipe? v.place = some v.before := by
  unfold service? at h
  split at h
  · rename_i t rest hr
    obtain ⟨task, hk, h⟩ := Option.bind_eq_some_iff.1 h
    split at h
    · cases h
    · rename_i hc
      obtain ⟨e, -, h⟩ := Option.bind_eq_some_iff.1 h
      obtain ⟨b, hb, rfl⟩ := Option.map_eq_some_iff.1 h
      exact ⟨rest, task, hr, hk, by simpa using hc, hb⟩
  · cases h

theorem before_of_service? {v : Service} (h : s.service? = some v) :
    s.pipe? v.place = some v.before := by
  obtain ⟨rest, task, -, -, -, hb⟩ := service?_eq_some h
  exact hb

theorem task_of_service? {rest : List Job} (hr : s.ready = .task t :: rest) {v : Service}
    (h : s.service? = some v) : v.task = t := by
  obtain ⟨rest', task, hr', -⟩ := service?_eq_some h
  rw [hr] at hr'
  cases hr'
  rfl

/-- The session in which a service takes place. -/
theorem Course.poised {task : Task} (h : Course s t task s') {v : Service}
    (hv : s.service? = some v) :
    ∃ s₁, Poised s t task v.gate s₁ ∧ s.Pursues task.call (.inPipe v.gate v.place v.request) ∧
      s' = s₁.serve t v.gate v.place v.request := by
  cases h with
  | cancelled hp hc hv' => rw [hv] at hv'; cases hv'
  | answered hp hc hv' hst outcome hop hout => rw [hv] at hv'; cases hv'
  | queued hp hc hv' hst hg hopen haim => rw [hv] at hv'; cases hv'
  | @served s₁ held p r b hp hc hv' hb hpur =>
    rw [hv] at hv'
    cases hv'
    exact ⟨s₁, hp, hpur, rfl⟩

/-- The task of a service has not ended, and does what its call says. -/
theorem pursues_of_service {v : Service} (h : Sound s none none) (hv : s.service? = some v) :
    ∃ task, s.tasks[v.task]? = some task ∧ task.isUnfinished = true ∧
      s.Pursues task.call (.inPipe v.gate v.place v.request) := by
  obtain ⟨rest, task, hr, hk, -, -⟩ := service?_eq_some hv
  obtain ⟨s₁, -, hpur, -⟩ := (turn_course h hr hk).poised hv
  exact ⟨task, hk, isUnfinished_of_ready h hr hk, hpur⟩

/-- The pipes after the next turn, which changes only the pipe of its service. -/
def pipesAfter (s : Session) : Nat → Option Pipe :=
  match s.service? with
  | some v => Function.update s.pipe? v.place (some v.after)
  | none => s.pipe?

theorem pipesAfter_of_none (hv : s.service? = none) : s.pipesAfter = s.pipe? := by
  rw [pipesAfter, hv]

theorem pipesAfter_of_service {v : Service} (hv : s.service? = some v) :
    s.pipesAfter = Function.update s.pipe? v.place (some v.after) := by rw [pipesAfter, hv]

theorem pipesAfter_of_ne (h : ∀ v, s.service? = some v → v.place ≠ p) :
    s.pipesAfter p = s.pipe? p := by
  cases hv : s.service? with
  | none => rw [pipesAfter_of_none hv]
  | some v => rw [pipesAfter_of_service hv, Function.update_of_ne (Ne.symm (h v hv))]

theorem pipesAfter_of_idle (h : ∀ v, s.service? = some v → v.after = v.before) :
    s.pipesAfter = s.pipe? := by
  cases hv : s.service? with
  | none => exact pipesAfter_of_none hv
  | some v => rw [pipesAfter_of_service hv, h v hv, ← before_of_service? hv, Function.update_eq_self]

theorem Course.pipe {task : Task} (h : Course s t task s') : s'.pipe? = s.pipesAfter := by
  unfold pipesAfter
  cases h with
  | cancelled hp hc hv =>
    rw [hv]
    exact hp.pipe
  | answered hp hc hv hst outcome hop hout =>
    rw [hv, pipe?_congr (channels_complete ..), hp.pipe]
  | queued hp hc hv hst hg hopen haim =>
    rw [hv]
    exact hp.pipe
  | served hp hc hv hb hpur =>
    rw [hv, pipe?_serve (by rw [hp.pipe, hb]), hp.pipe]
    rfl

theorem pipe?_turn (h : Sound s none none) : s.turn.pipe? = s.pipesAfter := by
  cases hr : s.ready with
  | nil =>
    have hv : s.service? = none := by simp only [service?, hr]
    simp only [turn, hr, pipesAfter, hv]
  | cons job rest =>
    cases job with
    | deliver n copies =>
      have hv : s.service? = none := by simp only [service?, hr]
      simp only [turn, hr, pipesAfter, hv]
      rfl
    | task t =>
      obtain ⟨task, hk, -⟩ := exists_task h hr
      exact (turn_course h hr hk).pipe

/-- A turn leaves a pipe as it is, or the pipe meets a request. -/
theorem pipe?_turn_cases (h : Sound s none none) (p : Nat) :
    ((∀ v, s.service? = some v → v.place ≠ p) ∧ s.turn.pipe? p = s.pipe? p) ∨
      ∃ v, s.service? = some v ∧ v.place = p ∧ s.turn.pipe? p = some v.after := by
  rw [pipe?_turn h]
  by_cases hv : ∃ v, s.service? = some v ∧ v.place = p
  · obtain ⟨v, hv, rfl⟩ := hv
    exact .inr ⟨v, hv, rfl, by rw [pipesAfter_of_service hv, Function.update_self]⟩
  · have hne : ∀ v, s.service? = some v → v.place ≠ p := fun v hv' hp => hv ⟨v, hv', hp⟩
    exact .inl ⟨hne, pipesAfter_of_ne hne⟩

/-! ### Turns and members -/

theorem extends_complete (s : Session) (t : Nat) (outcome : Outcome) :
    Extends s (s.complete t outcome) :=
  .of_eq (gatePipe?_congr (gates_complete ..).1)
    (fun p b hb => ⟨b, by rw [pipe?_congr (channels_complete ..), hb]⟩) (gates_complete ..).2

theorem extends_release (s : Session) (gate : Option Nat) : Extends s (s.release gate) :=
  .of_eq (gatePipe?_release ..) (fun p b hb => ⟨b, by rw [pipe?_congr (channels_release ..), hb]⟩)
    (outlets_release ..)

theorem extends_serve {b : Pipe} (hb : s.pipe? p = some b) (t : Nat) (gate : Option Nat)
    (r : Pipe.Request) : Extends s (s.serve t gate p r) := by
  have hf := extends_refresh hb (b.serve r)
  rw [serve_eq hb]
  cases (b.serve r).reply with
  | wait again => exact hf.trans (.of_eq rfl (fun p b hb => ⟨b, by rw [pipe?_park, hb]⟩) rfl)
  | done outcome => exact (hf.trans (extends_release ..)).trans (extends_complete ..)

theorem Course.extends {task : Task} (h : Course s t task s') : Extends s s' := by
  cases h with
  | cancelled hp hc hv => exact hp.extends.trans (.of_eq rfl (fun p b hb => ⟨b, hb⟩) rfl)
  | answered hp hc hv hst outcome hop hout => exact hp.extends.trans (extends_complete ..)
  | queued hp hc hv hst hg hopen haim =>
    exact hp.extends.trans
      (.of_eq (gatePipe?_modify_gate fun _ => rfl) (fun p b hb => ⟨b, hb⟩) rfl)
  | served hp hc hv hb hpur =>
    exact hp.extends.trans (extends_serve (by rw [hp.pipe, hb]) ..)

theorem extends_turn (h : Sound s none none) : Extends s s.turn := by
  cases hr : s.ready with
  | nil =>
    have ht : s.turn = s := by simp only [turn, hr]
    rw [ht]
    exact .of_eq rfl (fun p b hb => ⟨b, hb⟩) rfl
  | cons job rest =>
    cases job with
    | deliver n copies =>
      have ht : s.turn = ({ s with ready := rest } : Session).deliver n copies := by
        simp only [turn, hr]
      rw [ht]
      exact .of_eq rfl (fun p b hb => ⟨b, hb⟩) rfl
    | task t =>
      obtain ⟨task, hk, -⟩ := exists_task h hr
      exact (turn_course h hr hk).extends

/-- On a run members stay. -/
theorem Run.extends {past : List Session} (h : Run s past s') (hs : Sound s none none) :
    Extends s s' := by
  induction h with
  | refl => exact .of_eq rfl (fun p b hb => ⟨b, hb⟩) rfl
  | turn h ih => exact ih.trans (extends_turn (hs.run h))
  | move h hm ih => exact ih.trans (hm.extends (hs.run h))

/-! ### Turns and tasks -/

/-- What becomes of the task that has the turn. -/
inductive Fate (s : Session) (t : Nat) (task : Task) : Task → Prop
  | cancelled (entry : Destination) (hc : task.cancelling = true) (hv : s.service? = none) :
    Fate s t task { task with entry, stage := .ended (.error .cancelled) }
  | answered (entry : Destination) (d : Destination) (outcome : Outcome) (hv : s.service? = none)
    (hst : task.stage = .fresh) (hop : ∀ p r, task.call.operation ≠ .onPipe p r)
    (hout : ∀ b q, s.Aims task.call b q → (∃ n, b = .stream n) ∨ ∃ f, outcome = .error f)
    (hc : task.cancelling = false) (hans : s.answer? task.call.operation = some outcome) :
    Fate s t task (Task.after { task with entry } d outcome)
  | queued (entry : Destination) {g : Nat} {q : Sink.Request} (hv : s.service? = none)
    (hst : task.stage = .fresh) (haim : s.Aims task.call (.gate g) q) :
    Fate s t task { task with entry, stage := .atGate g (.ofSink q) }
  | waits (entry : Destination) {v : Service} {again : Pipe.Request} (hv : s.service? = some v)
    (ht : v.task = t) (hpur : s.Pursues task.call (.inPipe v.gate v.place v.request))
    (hrep : (v.before.serve v.request).reply = .wait again) :
    Fate s t task { task with entry, stage := .inPipe v.gate v.place again }
  | served (entry : Destination) (d : Destination) {v : Service} {outcome : Outcome}
    (hv : s.service? = some v) (ht : v.task = t)
    (hpur : s.Pursues task.call (.inPipe v.gate v.place v.request))
    (hans : v.answer? = some outcome) :
    Fate s t task (Task.after { task with entry } d outcome)

theorem others_serve {b : Pipe} (hb : s.pipe? p = some b) {task : Task}
    (hk : s.tasks[t]? = some task) (gate : Option Nat) (r : Pipe.Request) {u : Nat} (hu : u ≠ t) :
    (s.serve t gate p r).tasks[u]? = s.tasks[u]? := by
  rw [serve_eq hb]
  cases (b.serve r).reply with
  | wait again => exact List.getElem?_modify_ne _ _ (Ne.symm hu)
  | done outcome =>
    have hk' : ((s.refresh p (b.serve r)).release gate).tasks[t]? = some task := by
      rw [tasks_release]
      exact hk
    rw [tasks_complete hk', List.getElem?_set_ne (Ne.symm hu), tasks_release]
    rfl

/-- Other tasks stay as they are. -/
theorem Course.others {task : Task} (h : Course s t task s') {u : Nat} (hu : u ≠ t) :
    s'.tasks[u]? = s.tasks[u]? := by
  cases h with
  | cancelled hp hc hv =>
    rw [← hp.others u hu]
    exact List.getElem?_modify_ne _ _ (Ne.symm hu)
  | answered hp hc hv hst outcome hop hout =>
    obtain ⟨entry, hk⟩ := hp.task
    rw [tasks_complete hk, List.getElem?_set_ne (Ne.symm hu), hp.others u hu]
  | queued hp hc hv hst hg hopen haim =>
    rw [← hp.others u hu]
    exact List.getElem?_modify_ne _ _ (Ne.symm hu)
  | served hp hc hv hb hpur =>
    obtain ⟨entry, hk⟩ := hp.task
    rw [others_serve (by rw [hp.pipe, hb]) hk _ _ hu, hp.others u hu]

theorem Course.fate {task : Task} (h : Course s t task s') :
    ∃ task', s'.tasks[t]? = some task' ∧ Fate s t task task' := by
  cases h with
  | cancelled hp hc hv =>
    obtain ⟨entry, hk⟩ := hp.task
    refine ⟨_, ?_, .cancelled entry hc hv⟩
    simp only [finish, setStage, List.getElem?_modify_eq, hk]
    rfl
  | answered hp hc hv hst outcome hop hout hans =>
    obtain ⟨entry, hk⟩ := hp.task
    exact ⟨_, task_complete hk outcome, .answered entry _ outcome hv hst hop hout hc hans⟩
  | queued hp hc hv hst hg hopen haim =>
    obtain ⟨entry, hk⟩ := hp.task
    refine ⟨_, ?_, .queued entry hv hst haim⟩
    simp only [queue, setStage, List.getElem?_modify_eq, hk]
    rfl
  | @served s₁ held p r b hp hc hv hb hpur =>
    obtain ⟨entry, hk⟩ := hp.task
    rw [serve_eq (by rw [hp.pipe, hb])]
    cases hrep : (b.serve r).reply with
    | wait again =>
      refine ⟨_, ?_, .waits entry hv rfl hpur hrep⟩
      have hk' : (s₁.refresh p (b.serve r)).tasks[t]? = some { task with entry } := hk
      simp only [park, setStage, List.getElem?_modify_eq, hk']
      rfl
    | done outcome =>
      have hk' : ((s₁.refresh p (b.serve r)).release held).tasks[t]? = some { task with entry } := by
        rw [tasks_release]
        exact hk
      have hans : (⟨⟨held, p, r⟩, t, b⟩ : Service).answer? = some outcome := by
        rw [Service.answer?, hrep]
      exact ⟨_, task_complete hk' outcome, .served entry _ hv rfl hpur hans⟩

/-- A task after a turn: it had its turn, or it is as before. -/
theorem task_turn (h : Sound s none none) {task : Task} (hk : s.tasks[t]? = some task) :
    (∃ rest task', s.ready = .task t :: rest ∧ s.turn.tasks[t]? = some task' ∧
      Fate s t task task') ∨
    (s.turn.tasks[t]? = some task ∧ ∀ v, s.service? = some v → v.task ≠ t) := by
  cases hr : s.ready with
  | nil =>
    have hv : s.service? = none := by simp only [service?, hr]
    refine .inr ⟨by simp only [turn, hr, hk], fun v he => ?_⟩
    rw [hv] at he
    cases he
  | cons job rest =>
    cases job with
    | deliver n copies =>
      have hv : s.service? = none := by simp only [service?, hr]
      refine .inr ⟨by simp only [turn, hr, deliver, hk], fun v he => ?_⟩
      rw [hv] at he
      cases he
    | task u =>
      obtain ⟨task₀, hk₀, -⟩ := exists_task h hr
      have hcourse := turn_course h hr hk₀
      -- the turn is that of the task, or that of another one
      by_cases hu : t = u
      · subst hu
        rw [hk] at hk₀
        cases hk₀
        obtain ⟨task', hk', hf⟩ := hcourse.fate
        exact .inl ⟨rest, task', rfl, hk', hf⟩
      · refine .inr ⟨by rw [hcourse.others hu, hk], fun v he => ?_⟩
        rw [task_of_service? hr he]
        exact Ne.symm hu

/-- No turn makes a task. -/
theorem task_before_turn (h : Sound s none none) {task' : Task}
    (hk : s.turn.tasks[t]? = some task') : ∃ task, s.tasks[t]? = some task := by
  cases hr : s.ready with
  | nil => exact ⟨task', by simpa only [turn, hr] using hk⟩
  | cons job rest =>
    cases job with
    | deliver n copies => exact ⟨task', by simpa only [turn, hr, deliver] using hk⟩
    | task u =>
      obtain ⟨task₀, hk₀, -⟩ := exists_task h hr
      by_cases hu : t = u
      · exact ⟨task₀, by rw [hu, hk₀]⟩
      · exact ⟨task', by rw [← (turn_course h hr hk₀).others hu, hk]⟩

/-! ### Moves -/

/-- A move adds a pipe at most, which is open and empty. -/
theorem Move.pipe (h : Move s s') (hs : Sound s none none) : s'.pipe? = s.pipe? ∨
    ∃ b p, s.pipe? p = none ∧ s'.pipe? = Function.update s.pipe? p (some b) ∧
      b.buffer = [] ∧ b.readClosed = false ∧ b.writeClosed = false := by
  cases h with
  | @addPipe capacity b hc =>
    have hnone : s.pipe? s.channels.length = none := by
      rw [pipe?, List.getElem?_eq_none (Nat.le_refl _)]
      rfl
    refine .inr ⟨b, s.channels.length, hnone, ?_, ?_⟩
    · funext q
      by_cases hq : q = s.channels.length
      · subst hq
        rw [Function.update_self, pipe?, Session.addPipe, List.getElem?_concat_length]
        rfl
      · rw [Function.update_of_ne hq, pipe?, Session.addPipe, getElem?_concat_of_ne hq, pipe?]
    · unfold Pipe.create? at hc
      split at hc
      · cases hc
      · cases hc
        exact ⟨rfl, rfl, rfl⟩
  | addGate hp => exact .inl rfl
  | addOutlet ho => exact .inl rfl
  | retarget name ho => exact .inl rfl
  | spawn hc => exact .inl rfl
  | cancel t => exact .inl (fields_cancel hs t).1
  | post n => exact .inl (pipe?_congr (fields_post s n).1)
  | record journal stdio => exact .inl rfl

theorem task_ask {u : Nat} {task' : Task} (hk : (s.ask u).tasks[t]? = some task') :
    ∃ task, s.tasks[t]? = some task ∧ task'.call = task.call ∧ task'.stage = task.stage ∧
      task'.entry = task.entry := by
  rw [ask, List.getElem?_modify, Option.map_eq_map, Option.map_eq_some_iff] at hk
  obtain ⟨task, hk, rfl⟩ := hk
  refine ⟨task, hk, ?_⟩
  split <;> exact ⟨rfl, rfl, rfl⟩

/-- No task is ever removed. -/
theorem Move.length_le (h : Move s s') (hs : Sound s none none) :
    s.tasks.length ≤ s'.tasks.length := by
  cases h with
  | cancel u => rw [length_cancel hs]
  | spawn hc =>
    rw [tasks_spawn, List.length_append]
    omega
  | addPipe hc => exact Nat.le_refl _
  | addGate hp => exact Nat.le_refl _
  | addOutlet ho => exact Nat.le_refl _
  | retarget name ho => exact Nat.le_refl _
  | post n => rw [(fields_post s n).2.2.2]
  | record journal stdio => exact Nat.le_refl _

/-- A move makes one task at most. -/
theorem Move.length_le_succ (h : Move s s') (hs : Sound s none none) :
    s'.tasks.length ≤ s.tasks.length + 1 := by
  cases h with
  | cancel u =>
    rw [length_cancel hs]
    exact Nat.le_succ _
  | spawn hc =>
    rw [tasks_spawn, List.length_append]
    exact Nat.le_refl _
  | addPipe hc => exact Nat.le_succ _
  | addGate hp => exact Nat.le_succ _
  | addOutlet ho => exact Nat.le_succ _
  | retarget name ho => exact Nat.le_succ _
  | post n =>
    rw [(fields_post s n).2.2.2]
    exact Nat.le_succ _
  | record journal stdio => exact Nat.le_succ _

/-- A task after a move was there before, with the same call at the same stage and from the same entry, or it
is new. -/
theorem Move.task (h : Move s s') (hs : Sound s none none) {task' : Task}
    (hk : s'.tasks[t]? = some task') :
    (∃ task, s.tasks[t]? = some task ∧ task'.call = task.call ∧ task'.stage = task.stage ∧
      task'.entry = task.entry) ∨ (s.tasks[t]? = none ∧ task'.stage = .fresh) := by
  have hsame : s.tasks[t]? = some task' → (∃ task, s.tasks[t]? = some task ∧
      task'.call = task.call ∧ task'.stage = task.stage ∧ task'.entry = task.entry) ∨
        (s.tasks[t]? = none ∧ task'.stage = .fresh) := fun hk => .inl ⟨task', hk, rfl, rfl, rfl⟩
  cases h with
  | cancel u =>
    rcases (fields_cancel hs u).2.2.2.2 with hc | hc <;> rw [hc] at hk
    · exact hsame hk
    · exact .inl (task_ask hk)
  | spawn hc =>
    rcases getElem?_concat_cases hk with hold | ⟨rfl, rfl⟩
    · exact hsame hold
    · exact .inr ⟨List.getElem?_eq_none (Nat.le_refl _), rfl⟩
  | addPipe hc => exact hsame hk
  | addGate hp => exact hsame hk
  | addOutlet ho => exact hsame hk
  | retarget name ho => exact hsame hk
  | post n =>
    rw [(fields_post s n).2.2.2] at hk
    exact hsame hk
  | record journal stdio => exact hsame hk

end Session

end Outflow
