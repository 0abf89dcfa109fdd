import Outflow.Proofs.Notices

/-!
# Reading to the end

A call that reads to the end takes all that is buffered whenever it runs, keeps it, and returns what it has
kept when the output has ended.

* `Pipe.Request.got`, `Pipe.Reply.held`: what a request goes on after, and what its reply returns or keeps;
* `Session.drawn`: the bytes that a task has taken from a pipe and not returned;
* `drawn_turn_of_service`: what a service removes is returned, or drawn;
* `Session.presentOf`, `Run.kept`: what a task that waits has drawn is what its present operation removed;
* `Session.Undisturbed`, `Run.sole`: where no two calls draw at once, what was removed was returned or is drawn;
* `reads_to_end`: what reading to the end returns, on every run.

A read end that is closed before the call returns drops what was accepted and not taken.  The call should then
return nothing.  It does, unless the output has ended as well: then it returns the beginning that it had
taken; `returns_of_cutShort` is such a run.
-/

namespace Outflow

namespace Pipe

variable {p : Pipe} {r again : Request}

/-- The bytes after which a request goes on. -/
def Request.got : Request → Bytes
  | .drain got => got
  | _ => []

/-- The bytes that a reply returns, or keeps for the request that is left. -/
def Reply.held : Reply → Bytes
  | .wait again => again.got
  | .done (.ok (.bytes x)) => x
  | .done _ => []

theorem got_ofSink (q : Sink.Request) : (Request.ofSink q).got = [] := by cases q <;> rfl

/-- With the read end open, what a request removes is returned or kept after what it had got. -/
theorem held_serve (h : p.readClosed = false) (r : Request) :
    (p.serve r).reply.held = r.got ++ p.removed r := by
  have hchunk : (∃ n, r = .read n) ∨ r = .readLine → r.got = [] →
      (p.serve r).reply.held = r.got ++ p.removed r := by
    intro hr hgot
    rw [hgot]
    rcases reply_of_chunk (p := p) hr with ⟨hrep, hrem⟩ | hrep
    · rw [hrep, hrem]
      exact hgot
    · rw [hrep]
      rfl
  cases r with
  | read n => exact hchunk (.inl ⟨n, rfl⟩) rfl
  | readLine => exact hchunk (.inr rfl) rfl
  | drain got =>
    rw [serve_drain_of_open h, removed_drain_of_open h]
    cases p.writeClosed <;> rfl
  | write data =>
    rcases reply_of_write p data with hrep | ⟨k, hrep⟩ | ⟨f, hrep⟩
    · rw [hrep]
      rfl
    · rw [hrep]
      rfl
    · rw [hrep]
      rfl
  | flush => rfl
  | shutdown => rfl
  | close => rfl

/-- Only with the read end open a request is put off. -/
theorem readClosed_of_wait (h : (p.serve r).reply = .wait again) : p.readClosed = false := by
  obtain ⟨hadm, -⟩ := wait_cases h
  obtain ⟨-, hopen, -⟩ := not_admits_iff.1 hadm
  rw [readClosed_serve, Bool.or_eq_false_iff] at hopen
  exact hopen.1

/-- How reading to the end ends. -/
theorem answer_of_drain (hv : p.Valid) {got : Bytes} {o : Outcome}
    (h : (p.serve (.drain got)).reply = .done o) :
    (p.readClosed = true ∧ o = .ok (.bytes (if p.writeClosed then got else []))) ∨
      (p.readClosed = false ∧ p.writeClosed = true ∧ o = .ok (.bytes (got ++ p.buffer))) := by
  by_cases hc : p.readClosed = true
  · left
    rw [serve_of_admits (admits_of_readClosed hc _)] at h
    simp only [perform, drained, hc, if_true, atEof, hv.buffer_eq_nil hc, List.isEmpty_nil,
      Bool.and_true, Reply.done.injEq] at h
    exact ⟨hc, h.symm⟩
  · right
    rw [Bool.not_eq_true] at hc
    rw [serve_drain_of_open hc] at h
    by_cases hw : p.writeClosed = true
    · simp only [hw, if_true, Reply.done.injEq] at h
      exact ⟨hc, hw, h.symm⟩
    · simp [hw] at h

end Pipe

namespace Service

/-- The bytes that a service returns to its task. -/
def returned (v : Service) : Bytes :=
  match v.answer? with
  | some (.ok (.bytes x)) => x
  | _ => []

/-- The bytes that a service keeps for its task. -/
def kept (v : Service) : Bytes :=
  match (v.before.serve v.request).reply with
  | .wait again => again.got
  | .done _ => []

theorem returned_append_kept (v : Service) :
    v.returned ++ v.kept = (v.before.serve v.request).reply.held := by
  unfold returned kept answer?
  cases (v.before.serve v.request).reply with
  | wait again => rfl
  | done outcome =>
    cases outcome with
    | error f => rfl
    | ok a => cases a <;> first | rfl | exact List.append_nil _

end Service

/-- The bytes that a history returns, in order. -/
def returned (vs : List Service) : Bytes := vs.flatMap Service.returned

@[simp] theorem returned_append (vs ws : List Service) :
    returned (vs ++ ws) = returned vs ++ returned ws := List.flatMap_append ..

@[simp] theorem returned_singleton (v : Service) : returned [v] = v.returned := by simp [returned]

/-- The bytes that a task at a stage has taken from a pipe and not returned. -/
def Stage.drawn (p : Nat) : Stage → Bytes
  | .inPipe _ q r => if q = p then r.got else []
  | _ => []

theorem Stage.eq_fresh {st : Stage} (h : st.isFresh = true) : st = .fresh := by
  cases st <;> first | rfl | cases h

theorem Task.drawn_after (task : Task) (d : Destination) (outcome : Outcome) (p : Nat) :
    (task.after d outcome).stage.drawn p = [] := by
  unfold Task.after
  split <;> rfl

namespace Session

variable {s s' : Session} {past : List Session} {t p : Nat} {task : Task} {rest : List Job}
  {v : Service} {vs : List Service} {b : Pipe}

/-! ### What is drawn -/

/-- The bytes that a task has taken from a pipe and not returned: it reads to the end. -/
def drawn (s : Session) (t p : Nat) : Bytes := ((s.stage? t).map (Stage.drawn p)).getD []

theorem drawn_of_task (hk : s.tasks[t]? = some task) : s.drawn t p = task.stage.drawn p := by
  rw [drawn, stage?_of_task hk]
  rfl

/-- An operation begins with nothing. -/
theorem got_of_opening {c : Call} {e : Errand} (h : s.opening? c.operation = some e) :
    e.request.got = [] := by
  have hat : ∀ b q, s.errandAt? b q = some e → e.request.got = [] := by
    intro b q h
    cases b with
    | stream n => cases h
    | pipe p =>
      cases h
      exact Pipe.got_ofSink q
    | gate g =>
      obtain ⟨gate, -, h⟩ := Option.bind_eq_some_iff.1 h
      split at h
      · cases h
        exact Pipe.got_ofSink q
      · cases h
  cases hop : c.operation with
  | answered outcome => rw [hop] at h; cases h
  | onPipe p r =>
    rw [hop] at h
    cases h
    unfold Call.operation Operation.read at hop
    grind [Pipe.Request.got]
  | onBacking b q =>
    rw [hop] at h
    exact hat b q h
  | onOutlet o q =>
    rw [hop] at h
    obtain ⟨x, -, h⟩ := Option.bind_eq_some_iff.1 h
    split at h
    · cases h
    · cases h
    · obtain ⟨b, -, h⟩ := Option.bind_eq_some_iff.1 h
      exact hat b q h

/-- A task comes to a pipe with what it has drawn from it, and with nothing from others. -/
theorem drawn_of_service (h : Sound s none none) (hv : s.service? = some v) (p : Nat) :
    s.drawn v.task p = if v.place = p then v.request.got else [] := by
  obtain ⟨rest, task, hr, hk, hlive, -⟩ := service?_eq_some hv
  obtain ⟨e, t, b⟩ := v
  rw [service?_eq hr hk hlive, serviceOf?] at hv
  obtain ⟨e', he, hv⟩ := Option.bind_eq_some_iff.1 hv
  obtain ⟨b', -, hb⟩ := Option.map_eq_some_iff.1 hv
  cases hb
  have hnone : task.stage.drawn p = [] → e.request.got = [] →
      task.stage.drawn p = if e.place = p then e.request.got else [] := by
    intro hd hg
    rw [hd, hg, ite_self]
  rw [drawn_of_task hk]
  cases hst : task.stage with
  | fresh =>
    rw [hst] at hnone
    rw [errand?, hst] at he
    exact hnone rfl (got_of_opening he)
  | atGate g r =>
    rw [hst] at hnone
    have hpur := h.employed.pursues _ task hk (by simp)
    rw [hst] at hpur
    obtain ⟨q, rfl, -⟩ := hpur
    rw [errand?, hst] at he
    obtain ⟨q', -, rfl⟩ := Option.map_eq_some_iff.1 he
    exact hnone rfl (Pipe.got_ofSink q)
  | inPipe gate q r =>
    rw [errand?, hst] at he
    cases he
    rfl
  | ended o =>
    rw [errand?, hst] at he
    cases he

/-- A task leaves a pipe with what the service keeps for it. -/
theorem drawn_turn_of_service (h : Sound s none none) (hv : s.service? = some v) (p : Nat) :
    s.turn.drawn v.task p = if v.place = p then v.kept else [] := by
  obtain ⟨rest, task, hr, hk, -, -⟩ := service?_eq_some hv
  obtain ⟨task', hk', hf⟩ := (turn_course h hr hk).fate
  rw [drawn_of_task hk']
  cases hf with
  | cancelled entry hc hv' => rw [hv] at hv'; cases hv'
  | answered entry d outcome hv' => rw [hv] at hv'; cases hv'
  | queued entry hv' => rw [hv] at hv'; cases hv'
  | waits entry hv' ht hpur hrep =>
    rw [hv] at hv'
    cases hv'
    rw [Service.kept, hrep]
    rfl
  | served entry d hv' ht hpur hans =>
    rw [hv] at hv'
    cases hv'
    rw [Task.drawn_after, Service.kept, Service.reply_of_answer hans, ite_self]

/-- What a service removes is returned, or drawn by its task. -/
theorem returned_append_drawn (h : Sound s none none) (hv : s.service? = some v)
    (hopen : v.before.readClosed = false) :
    v.returned ++ s.turn.drawn v.task v.place = s.drawn v.task v.place ++ v.removed := by
  rw [drawn_turn_of_service h hv, if_pos rfl, drawn_of_service h hv, if_pos rfl,
    Service.returned_append_kept, Pipe.held_serve hopen]
  rfl

theorem drawn_turn_of_ne (h : Sound s none none) (hne : ∀ rest, s.ready ≠ .task t :: rest) :
    s.turn.drawn t p = s.drawn t p := by
  rw [drawn, stage?, tasks_turn_of_ne h hne, drawn, stage?]

/-- A turn that serves nobody changes what is drawn only if a task is cancelled. -/
theorem drawn_turn_of_no_service (h : Sound s none none) (hv : s.service? = none)
    (hkept : ∀ rest, s.ready = .task t :: rest → s.isCancelling t = true → s.drawn t p = []) :
    s.turn.drawn t p = s.drawn t p := by
  by_cases hr : ∃ rest, s.ready = .task t :: rest
  swap
  · exact drawn_turn_of_ne h fun rest he => hr ⟨rest, he⟩
  obtain ⟨rest, hr⟩ := hr
  obtain ⟨task, hk, -⟩ := exists_task h hr
  obtain ⟨task', hk', hf⟩ := (turn_course h hr hk).fate
  have hfresh : task.stage = .fresh → s.drawn t p = [] := by
    intro hst
    rw [drawn_of_task hk, hst]
    rfl
  rw [drawn_of_task hk']
  cases hf with
  | cancelled entry hc =>
    rw [hkept rest hr (by rw [isCancelling, hk]; exact hc)]
    rfl
  | answered entry d outcome hv' hst => rw [Task.drawn_after, hfresh hst]
  | queued entry hv' hst => exact (hfresh hst).symm
  | waits entry hv' => rw [hv] at hv'; cases hv'
  | served entry d hv' => rw [hv] at hv'; cases hv'

theorem Move.drawn (hm : Move s s') (hs : Sound s none none) (t p : Nat) :
    s'.drawn t p = s.drawn t p := by
  cases hk' : s'.tasks[t]? with
  | none =>
    rw [List.getElem?_eq_none_iff] at hk'
    have hk := List.getElem?_eq_none (Nat.le_trans (hm.length_le hs) hk')
    rw [Session.drawn, stage?, List.getElem?_eq_none hk', Session.drawn, stage?, hk]
  | some task' =>
    rw [drawn_of_task hk']
    rcases hm.task hs hk' with ⟨task, hk, -, hst, -⟩ | ⟨hk, hst⟩
    · rw [hst, drawn_of_task hk]
    · rw [hst, Session.drawn, stage?, hk]
      rfl

/-! ### What an operation has removed -/

/-- The services of a task on a run since its present operation began, or up to the end of its last. -/
def presentOf (t : Nat) (past : List Session) : List Service :=
  past.foldl (fun vs u => (if (u.stage? t).any Stage.isFresh then [] else vs) ++ servicesOf t [u]) []

theorem presentOf_append_singleton (t : Nat) (past : List Session) (s : Session) :
    presentOf t (past ++ [s]) =
      (if (s.stage? t).any Stage.isFresh then [] else presentOf t past) ++ servicesOf t [s] := by
  rw [presentOf, List.foldl_append, presentOf]
  rfl

theorem presentOf_eq_nil (h : servicesOf t past = []) : presentOf t past = [] := by
  induction past using List.reverseRecOn with
  | nil => rfl
  | append_singleton past s ih =>
    rw [servicesOf_append, List.append_eq_nil_iff] at h
    rw [presentOf_append_singleton, h.2, ih h.1, ite_self, List.append_nil]

/-- What a task that waits in a pipe has drawn is what its operation has removed; in the queue of a gate it
has met no pipe. -/
structure Kept (s : Session) (t : Nat) (vs : List Service) : Prop where
  pipe : ∀ p, s.place? t = some (.pipe p) → removed vs = s.drawn t p
  gate : ∀ g, s.place? t = some (.gate g) → vs = []

theorem Kept.of_place (h : s.place? t = none) : Kept s t vs :=
  ⟨fun p hp => (by cases h.symm.trans hp), fun g hg => (by cases h.symm.trans hg)⟩

/-- A task comes to a pipe with what its operation has removed before. -/
theorem Kept.removed_eq_got (h : Kept s v.task vs) (hs : Sound s none none) (hv : s.service? = some v) :
    removed (if (s.stage? v.task).any Stage.isFresh then [] else vs) = v.request.got := by
  have hdrawn := drawn_of_service hs hv v.place
  obtain ⟨rest, task, hr, hk, hlive, -⟩ := service?_eq_some hv
  have hst := stage?_of_task hk
  rw [if_pos rfl, drawn_of_task hk] at hdrawn
  rw [hst, Option.any_some, ← hdrawn]
  cases hcase : task.stage with
  | fresh => rfl
  | atGate g r =>
    rw [hcase] at hst
    rw [h.gate g (place?_of_stage hst)]
    rfl
  | inPipe gate q r =>
    rw [hcase] at hst
    have hplace : v.place = q := by
      rw [service?_eq hr hk hlive, errand?, hcase] at hv
      obtain ⟨b, -, hb⟩ := Option.map_eq_some_iff.1 hv
      rw [← hb]
    rw [hplace, ← hcase, ← drawn_of_task hk, if_neg (by simp [hcase, Stage.isFresh])]
    exact h.pipe q (place?_of_stage hst)
  | ended o =>
    exact absurd hcase (Task.isUnfinished_iff.1 (isUnfinished_of_ready hs hr hk) o)

theorem Kept.turn (h : Kept s t (presentOf t past)) (hs : Sound s none none) :
    Kept s.turn t (presentOf t (past ++ [s])) := by
  rw [presentOf_append_singleton]
  by_cases hr : ∃ rest, s.ready = .task t :: rest
  case neg =>
    have hne : ∀ rest, s.ready ≠ .task t :: rest := fun rest he => hr ⟨rest, he⟩
    have hstage : s.turn.stage? t = s.stage? t := by rw [stage?, tasks_turn_of_ne hs hne, stage?]
    have hidle : servicesOf t [s] = [] := servicesOf_eq_nil fun v hv ht => by
      obtain ⟨rest, task, hr', -⟩ := service?_eq_some hv
      exact hne rest (by rw [hr', ht])
    have hwaits : ∀ a, s.place? t = some a → (s.stage? t).any Stage.isFresh = false := by
      intro a ha
      obtain ⟨st, hst, ha⟩ := Option.bind_eq_some_iff.1 ha
      rw [hst]
      cases st <;> first | rfl | cases ha
    rw [hidle, List.append_nil]
    constructor
    case pipe =>
      intro p hp
      rw [place?, hstage] at hp
      rw [hwaits _ hp, drawn_turn_of_ne hs hne]
      exact h.pipe p hp
    case gate =>
      intro g hg
      rw [place?, hstage] at hg
      rw [hwaits _ hg]
      exact h.gate g hg
  case pos =>
    obtain ⟨rest, hr⟩ := hr
    obtain ⟨task, hk, -⟩ := exists_task hs hr
    obtain ⟨task', hk', hf⟩ := (turn_course hs hr hk).fate
    have hplace := place?_of_task hk'
    cases hf with
    | cancelled entry => exact .of_place hplace
    | answered entry d outcome => exact .of_place (hplace.trans (Task.place?_after ..))
    | served entry d => exact .of_place (hplace.trans (Task.place?_after ..))
    | queued entry hv hst =>
      refine ⟨fun p hp => (by cases hplace.symm.trans hp), fun g hg => ?_⟩
      rw [servicesOf_of_no_service hv, stage?_of_task hk, hst]
      rfl
    | @waits entry v again hv ht hpur hrep =>
      refine ⟨fun p hp => ?_, fun g hg => (by cases hplace.symm.trans hg)⟩
      cases hplace.symm.trans hp
      subst ht
      -- what it came with and what it has removed now is kept
      rw [servicesOf_singleton hv rfl, removed_append, h.removed_eq_got hs hv, removed_singleton,
        drawn_turn_of_service hs hv, if_pos rfl, Service.kept, hrep]
      have hheld := Pipe.held_serve (Pipe.readClosed_of_wait hrep) v.request
      rw [hrep] at hheld
      exact hheld.symm

theorem Kept.move (h : Kept s t vs) (hs : Sound s none none) (hm : Move s s') : Kept s' t vs := by
  have hplace : ∀ a, s'.place? t = some a → s.place? t = some a := by
    intro a ha
    obtain ⟨st, hst, hpl⟩ := Option.bind_eq_some_iff.1 ha
    obtain ⟨task', hk', rfl⟩ := Option.map_eq_some_iff.1 hst
    rcases hm.task hs hk' with ⟨task, hk, -, hsame, -⟩ | ⟨-, hfresh⟩
    · rw [place?_of_task hk, ← hsame, hpl]
    · rw [hfresh] at hpl
      cases hpl
  refine ⟨fun p hp => ?_, fun g hg => h.gate g (hplace _ hg)⟩
  rw [hm.drawn hs]
  exact h.pipe p (hplace _ hp)

theorem Run.kept {out err : Stream.Traits} (h : Run (start out err) past s) (t : Nat) :
    Kept s t (presentOf t past) := by
  have hs₀ := sound_start out err
  induction h with
  | refl => exact ⟨fun p hp => (by cases hp), fun g hg => (by cases hg)⟩
  | turn h ih => exact ih.turn (hs₀.run h)
  | move h hm ih => exact ih.move (hs₀.run h) hm

/-- A call of one operation has met no pipe before that began. -/
theorem Run.present_of_isSingle {out err : Stream.Traits} (h : Run (start out err) past s)
    (hk : s.tasks[t]? = some task) (hc : task.call.isSingle = true) :
    presentOf t past = servicesOf t past ∧ (task.stage = .fresh → servicesOf t past = []) := by
  have hs₀ := sound_start out err
  induction h generalizing task with
  | refl => cases hk
  | @turn past s h ih =>
    have hs := hs₀.run h
    obtain ⟨task₀, hk₀⟩ := task_before_turn hs hk
    rw [presentOf_append_singleton, servicesOf_append, stage?_of_task hk₀, Option.any_some]
    rcases task_turn hs hk₀ with ⟨rest, task', hr, hk', hf⟩ | ⟨hk', hne⟩
    · rw [hk'] at hk
      cases hk
      have hcall := hf.call hc
      rw [hcall] at hc
      obtain ⟨hsame, hfresh⟩ := ih hk₀ hc
      refine ⟨?_, fun hst => ?_⟩
      · split
        · rename_i hst
          rw [hfresh (Stage.eq_fresh hst)]
        · rw [hsame]
      · -- after its turn it waits, or it has ended
        cases hf with
        | cancelled => cases hst
        | queued => cases hst
        | waits => cases hst
        | answered entry d outcome =>
          rw [Task.after_of_isSingle (show ({ task₀ with entry } : Task).call.isSingle = true from hc)] at hst
          cases hst
        | served entry d =>
          rw [Task.after_of_isSingle (show ({ task₀ with entry } : Task).call.isSingle = true from hc)] at hst
          cases hst
    · rw [hk'] at hk
      cases hk
      obtain ⟨hsame, hfresh⟩ := ih hk₀ hc
      rw [servicesOf_eq_nil hne, List.append_nil, List.append_nil]
      refine ⟨?_, hfresh⟩
      split
      · rename_i hst
        rw [hfresh (Stage.eq_fresh hst)]
      · exact hsame
  | move h hm ih =>
    rcases hm.task (hs₀.run h) hk with ⟨task₀, hk₀, hcall, hst, -⟩ | ⟨hnone, -⟩
    · rw [hst]
      exact ih hk₀ (hcall ▸ hc)
    · -- a task that is made now has met no pipe
      have hnil := h.servicesOf_of_none hs₀ hnone
      rw [hnil, presentOf_eq_nil hnil]
      exact ⟨rfl, fun _ => rfl⟩

/-! ### One at a time -/

/-- No two calls draw bytes from a pipe at once, and no call that has drawn some is cancelled. -/
structure Undisturbed (p : Nat) (past : List Session) : Prop where
  /-- Whoever reads from the pipe finds nobody else with bytes taken and not returned. -/
  alone : ∀ u ∈ past, ∀ v, u.service? = some v → v.place = p → v.request.isRead = true →
    ∀ w, w ≠ v.task → u.drawn w p = []
  /-- Nobody is cancelled who has taken some. -/
  uncancelled : ∀ u ∈ past, ∀ t rest, u.ready = .task t :: rest → u.isCancelling t = true →
    u.drawn t p = []

theorem Undisturbed.of_append {past' : List Session} (h : Undisturbed p (past ++ past')) :
    Undisturbed p past ∧ Undisturbed p past' :=
  ⟨⟨fun u hu => h.alone u (List.mem_append_left _ hu),
      fun u hu => h.uncancelled u (List.mem_append_left _ hu)⟩,
    ⟨fun u hu => h.alone u (List.mem_append_right _ hu),
      fun u hu => h.uncancelled u (List.mem_append_right _ hu)⟩⟩

/-- It is enough to look at the tasks that are there. -/
theorem Undisturbed.of_tasks
    (halone : ∀ u ∈ past, ∀ v ∈ u.service?, v.place = p → v.request.isRead = true →
      ∀ w < u.tasks.length, w ≠ v.task → u.drawn w p = [])
    (hlive : ∀ u ∈ past, ∀ w < u.tasks.length, u.isCancelling w = false) : Undisturbed p past := by
  refine ⟨fun u hu v hv hp hr w hw => ?_, fun u hu w rest _ hc => ?_⟩
  · by_cases hlt : w < u.tasks.length
    · exact halone u hu v hv hp hr w hlt hw
    · rw [drawn, stage?, List.getElem?_eq_none (Nat.le_of_not_lt hlt)]
      rfl
  · by_cases hlt : w < u.tasks.length
    · rw [hlive u hu w hlt] at hc
      cases hc
    · rw [drawn, stage?, List.getElem?_eq_none (Nat.le_of_not_lt hlt)]
      rfl

/-- One task at most has drawn bytes from a pipe; those that were removed before were returned. -/
def Sole (s : Session) (p : Nat) (vs : List Service) : Prop :=
  ∃ w, (∀ u, u ≠ w → s.drawn u p = []) ∧ removed vs = returned vs ++ s.drawn w p

/-- Whoever finds nobody else with bytes drawn is the one. -/
theorem Sole.eq (h : Sole s p vs) (halone : ∀ u, u ≠ t → s.drawn u p = []) :
    removed vs = returned vs ++ s.drawn t p := by
  obtain ⟨w, hothers, hrem⟩ := h
  by_cases hw : w = t
  · rw [← hw, hrem]
  · rw [hrem, halone w hw, hothers t (Ne.symm hw)]

theorem Sole.turn (h : Sole s p vs) (hs : Sound s none none) (hu : Undisturbed p [s])
    (hopen : ∀ b, s.pipe? p = some b → b.readClosed = false) : Sole s.turn p (vs ++ history p [s]) := by
  have hmem : s ∈ [s] := List.mem_singleton.2 rfl
  cases hv : s.service? with
  | none =>
    have hsame : ∀ u, s.turn.drawn u p = s.drawn u p := fun u =>
      drawn_turn_of_no_service hs hv fun rest hr hc => hu.uncancelled s hmem u rest hr hc
    rw [history_eq_nil (by simp [hv]), List.append_nil]
    obtain ⟨w, hothers, hrem⟩ := h
    exact ⟨w, fun u hne => by rw [hsame, hothers u hne], by rw [hsame, hrem]⟩
  | some v =>
    obtain ⟨rest, task, hr, -, -, hb⟩ := service?_eq_some hv
    have hsame : ∀ u, u ≠ v.task → s.turn.drawn u p = s.drawn u p := by
      refine fun u hne => drawn_turn_of_ne hs fun rest' he => hne ?_
      rw [hr] at he
      cases he
      rfl
    by_cases hp : v.place = p
    case neg =>
      -- nothing is drawn from other pipes
      have htask : s.turn.drawn v.task p = s.drawn v.task p := by
        rw [drawn_turn_of_service hs hv, drawn_of_service hs hv, if_neg hp, if_neg hp]
      have hall : ∀ u, s.turn.drawn u p = s.drawn u p := by
        intro u
        by_cases hne : u = v.task
        · rw [hne, htask]
        · exact hsame u hne
      rw [history_eq_nil (by simp [hv, hp]), List.append_nil]
      obtain ⟨w, hothers, hrem⟩ := h
      exact ⟨w, fun u hne => by rw [hall, hothers u hne], by rw [hall, hrem]⟩
    case pos =>
      subst hp
      have hlaw := returned_append_drawn hs hv (hopen _ hb)
      rw [history_of_eq hv]
      by_cases hread : v.request.isRead = true
      · -- the one that reads is the only one that has drawn something
        have halone := hu.alone s hmem v hv rfl hread
        refine ⟨v.task, fun u hne => by rw [hsame u hne, halone u hne], ?_⟩
        calc removed (vs ++ [v])
            = (returned vs ++ s.drawn v.task v.place) ++ v.removed := by
              rw [removed_append, h.eq halone, removed_singleton]
          _ = returned vs ++ (v.returned ++ s.turn.drawn v.task v.place) := by
              rw [hlaw, List.append_assoc]
          _ = returned (vs ++ [v]) ++ s.turn.drawn v.task v.place := by
              rw [returned_append, returned_singleton, List.append_assoc]
      · -- whoever does not read has drawn nothing and is returned no bytes
        have hrem : v.removed = [] := by rw [Service.removed, Pipe.removed, if_neg hread]
        have hgot : v.request.got = [] := by
          cases hr : v.request <;> first | rfl | (rw [hr] at hread; exact absurd rfl hread)
        have hnone : s.drawn v.task v.place = [] := by rw [drawn_of_service hs hv, if_pos rfl, hgot]
        rw [hnone, hrem, List.append_nil, List.append_eq_nil_iff] at hlaw
        have hall : ∀ u, s.turn.drawn u v.place = s.drawn u v.place := by
          intro u
          by_cases hne : u = v.task
          · rw [hne, hlaw.2, hnone]
          · exact hsame u hne
        obtain ⟨w, hothers, heq⟩ := h
        refine ⟨w, fun u hne => by rw [hall, hothers u hne], ?_⟩
        rw [removed_append, removed_singleton, hrem, returned_append, returned_singleton, hlaw.1,
          List.append_nil, List.append_nil, hall, heq]

/-- As long as the read end is open, what was removed was returned, or is drawn by one task. -/
theorem Run.sole {out err : Stream.Traits} (h : Run (start out err) past s) (hu : Undisturbed p past)
    (hopen : ∀ b, s.pipe? p = some b → b.readClosed = false) : Sole s p (Session.history p past) := by
  have hs₀ := sound_start out err
  induction h with
  | refl => exact ⟨0, fun u _ => rfl, rfl⟩
  | @turn past s h ih =>
    have hs := hs₀.run h
    obtain ⟨hu, hu'⟩ := hu.of_append
    have hopen' : ∀ b, s.pipe? p = some b → b.readClosed = false := by
      intro b hb
      obtain ⟨b', hb', hserves⟩ := serves_turn hs hb
      by_contra hc
      rw [Bool.not_eq_false] at hc
      have hclosed := hserves.readClosed hc
      rw [hopen b' hb'] at hclosed
      cases hclosed
    rw [history_append]
    exact (ih hu hopen').turn hs hu' hopen'
  | @move past s s' h hm ih =>
    have hs := hs₀.run h
    have hopen' : ∀ b, s.pipe? p = some b → b.readClosed = false := by
      intro b hb
      rcases hm.pipe hs with he | ⟨b', q, hq, he, -⟩
      · exact hopen b (by rw [he, hb])
      · refine hopen b ?_
        rw [he, Function.update_of_ne, hb]
        rintro rfl
        rw [hb] at hq
        cases hq
    obtain ⟨w, hothers, hrem⟩ := ih hu hopen'
    exact ⟨w, fun u hne => by rw [hm.drawn hs, hothers u hne], by rw [hm.drawn hs, hrem]⟩

/-! ### The end of the call -/

/-- The turn in which reading to the end ends is a service of its pipe. -/
theorem drain_of_outcome? (h : Sound s none none) (hr : s.ready = .task t :: rest)
    (hk : s.tasks[t]? = some task) (hlive : task.cancelling = false)
    (hop : task.call.operation = .onPipe p (.drain [])) {o : Outcome} (ho : s.outcome? task = some o) :
    ∃ v got, s.service? = some v ∧ v.task = t ∧ v.place = p ∧ v.request = .drain got ∧
      v.answer? = some o := by
  rw [outcome?, if_neg (by simp [hlive])] at ho
  cases hv : s.service? with
  | none =>
    rw [hv, hop] at ho
    cases ho
  | some v =>
    rw [hv] at ho
    have ht := task_of_service? hr hv
    obtain ⟨task', hk', -, hpur⟩ := pursues_of_service h hv
    rw [ht, hk] at hk'
    cases hk'
    obtain ⟨-, hp, hreq | ⟨got, got', -, hreq⟩⟩ := hpur.of_onPipe hop
    · exact ⟨v, [], rfl, ht, hp, hreq, ho⟩
    · exact ⟨v, got', rfl, ht, hp, hreq, ho⟩

/-- On every run, in whatever order others write, read, shut down, close or are cancelled in between.  When
reading to the end ends and was not cancelled, it returns some bytes.  With the read end open, the output has
ended, the pipe is empty, and the bytes are all that the operation has removed; if no two calls drew bytes at
once, what was returned before and then these bytes are all that was ever accepted, and nothing is accepted
later.  With the read end closed, nothing is returned, unless the write end was shut down as well: then it is
what the operation had removed before.  A call that only reads ends so, and has done nothing else. -/
theorem reads_to_end {out err : Stream.Traits} (h : Run (start out err) past s) (hb : s.pipe? p = some b)
    (hr : s.ready = .task t :: rest) (hk : s.tasks[t]? = some task) (hlive : task.cancelling = false)
    (hop : task.call.operation = .onPipe p (.drain [])) {o : Outcome} (ho : s.outcome? task = some o) :
    ∃ bs, o = .ok (.bytes bs) ∧
      (b.readClosed = false →
        b.writeClosed = true ∧ s.turn.pipe? p = some { b with buffer := [] } ∧
        bs = removed (presentOf t (past ++ [s])) ∧
        (Undisturbed p (past ++ [s]) →
          returned (history p past) ++ bs = accepted (history p (past ++ [s]))) ∧
        ∀ past' s', Run s.turn past' s' →
          accepted (history p (past ++ s :: past')) = accepted (history p (past ++ [s]))) ∧
      (b.readClosed = true →
        bs = if b.writeClosed then removed (presentOf t (past ++ [s])) else []) ∧
      (∀ limit, task.call = .read p limit →
        s.turn.stage? t = some (.ended o) ∧
          presentOf t (past ++ [s]) = servicesOf t (past ++ [s])) := by
  have hs := (sound_start out err).run h
  obtain ⟨v, got, hv, rfl, rfl, hreq, hans⟩ := drain_of_outcome? hs hr hk hlive hop ho
  have hbefore := before_of_service? hv
  rw [hb] at hbefore
  cases hbefore
  have hrep := Service.reply_of_answer hans
  rw [hreq] at hrep
  have hpresent : removed (presentOf v.task (past ++ [s])) = got ++ v.removed := by
    rw [presentOf_append_singleton, removed_append, (h.kept v.task).removed_eq_got hs hv,
      servicesOf_singleton hv rfl, removed_singleton, hreq]
    rfl
  have hcall : ∀ limit, task.call = .read v.place limit → s.turn.stage? v.task = some (.ended o) ∧
      presentOf v.task (past ++ [s]) = servicesOf v.task (past ++ [s]) := by
    intro limit hc
    have hsingle : task.call.isSingle = true := by rw [hc]; rfl
    obtain ⟨hnone, -⟩ | ⟨o', entry, d, ho', -, hk', -⟩ := turn_of_outcome? hs hr hk
    · rw [ho] at hnone
      cases hnone
    · rw [ho, Option.some.injEq] at ho'
      subst ho'
      rw [Task.after_of_isSingle (show ({ task with entry } : Task).call.isSingle = true from hsingle)]
        at hk'
      exact ⟨stage?_of_task hk', (h.turn.present_of_isSingle hk' hsingle).1⟩
  obtain ⟨hclosed, rfl⟩ | ⟨hopen, hw, rfl⟩ := Pipe.answer_of_drain (hs.housed.valid _ _ hb) hrep
  · refine ⟨_, rfl, fun hopen => ?_, fun _ => ?_, hcall⟩
    · rw [hclosed] at hopen
      cases hopen
    · -- a closed read end leaves nothing to remove
      have hrem : v.removed = [] := Pipe.removed_of_nil ((hs.housed.valid _ _ hb).buffer_eq_nil hclosed) _
      rw [hpresent, hrem, List.append_nil]
  · have hrem : v.removed = v.before.buffer := by
      rw [Service.removed, hreq, Pipe.removed_drain_of_open hopen]
    have hpipe : s.turn.pipe? v.place = some { v.before with buffer := [] } := by
      rw [pipe?_turn hs, pipesAfter_of_service hv, Function.update_self, Service.after, hreq,
        Pipe.serve_drain_of_open hopen]
    have hnone : accepted (history v.place [s]) = [] := by
      rw [history_of_eq hv, accepted_singleton, Service.accepted, hreq]
      rfl
    refine ⟨_, rfl, fun _ => ⟨hw, hpipe, by rw [hpresent, hrem], fun hu => ?_, fun past' s' h' => ?_⟩,
      fun hc => ?_, hcall⟩
    · obtain ⟨hpast, hnow⟩ := hu.of_append
      have halone := hnow.alone s (List.mem_singleton.2 rfl) v hv rfl (by rw [hreq]; rfl)
      have hsole := (h.sole hpast fun b' hb' => by rw [hb] at hb'; cases hb'; exact hopen).eq halone
      rw [drawn_of_service hs hv, if_pos rfl, hreq] at hsole
      obtain ⟨b₀, -, hbuf, -, hserves⟩ := h.history hb
      have hall := hserves.conserved hopen
      rw [hbuf, List.nil_append, hsole] at hall
      rw [history_append, accepted_append, hnone, List.append_nil, hall, List.append_assoc]
      rfl
    · -- what follows finds an empty pipe that was shut down
      obtain ⟨b', -, hserves⟩ := h'.serves hs.turn hpipe
      rw [List.append_cons, history_append, accepted_append, (hserves.idle_of_atEof hw rfl).1,
        List.append_nil]
    · rw [hopen] at hc
      cases hc

/-- A pipe, and tasks that are to write three bytes, to read one and then all to the end, to write once more
and to shut down. -/
def chunks : Session :=
  let s := ((start .plain .plain).addPipe (.empty 4)).1
  let s := (s.spawn (.backing (.pipe 0) (.write [1, 2, 3]))).1
  let s := (s.spawn (.read 0 1)).1
  let s := (s.spawn (.read 0 (-1))).1
  let s := (s.spawn (.backing (.pipe 0) (.write [4]))).1
  (s.spawn (.backing (.pipe 0) .shutdown)).1

theorem run_chunks : Run (start .plain .plain) (List.iterate turn chunks 5) (turn^[5] chunks) := by
  have h₀ : Run (start .plain .plain) [] (start .plain .plain) := .refl
  have h₁ := h₀.move (@Move.addPipe _ 4 _ rfl)
  have h₂ := h₁.move (@Move.spawn _ (.backing (.pipe 0) (.write [1, 2, 3])) ⟨_, rfl⟩)
  have h₃ := h₂.move (@Move.spawn _ (.read 0 1) ⟨_, rfl⟩)
  have h₄ := h₃.move (@Move.spawn _ (.read 0 (-1)) ⟨_, rfl⟩)
  have h₅ := h₄.move (@Move.spawn _ (.backing (.pipe 0) (.write [4])) ⟨_, rfl⟩)
  have h₆ := h₅.move (@Move.spawn _ (.backing (.pipe 0) .shutdown) ⟨_, rfl⟩)
  exact h₆.iterate 5

/-- One byte was read before, and reading to the end returns the others, in two chunks; these are all that were
accepted. -/
theorem chunks_to_end : ∃ task bs, (turn^[5] chunks).tasks[2]? = some task ∧
    (turn^[5] chunks).outcome? task = some (.ok (.bytes bs)) ∧ bs = [2, 3, 4] ∧
      returned (history 0 (List.iterate turn chunks 5)) = [1] ∧
        [1] ++ bs = accepted (history 0 (List.iterate turn chunks 5 ++ [turn^[5] chunks])) ∧
          (turn^[5] chunks).turn.stage? 2 = some (.ended (.ok (.bytes bs))) := by
  have hu : Undisturbed 0 (List.iterate turn chunks 5 ++ [turn^[5] chunks]) :=
    .of_tasks (by decide +kernel) (by decide +kernel)
  have hb : (turn^[5] chunks).pipe? 0 = some ⟨[4], 4, true, false⟩ := rfl
  have hr : (turn^[5] chunks).ready = [.task 2] := rfl
  have hk : (turn^[5] chunks).tasks[2]? =
      some ⟨.read 0 (-1), .inPipe none 0 (.drain [2, 3]), .null, false⟩ := rfl
  obtain ⟨bs, ho, hopen, -, hcall⟩ := reads_to_end run_chunks hb hr hk rfl rfl
    (o := .ok (.bytes [2, 3, 4])) rfl
  cases ho
  obtain ⟨-, -, -, hall, -⟩ := hopen rfl
  exact ⟨_, _, rfl, rfl, rfl, rfl, hall hu, (hcall (-1) rfl).1⟩

/-- A pipe, and tasks that are to write a byte, to read to the end, to write once more, to shut down and to
close the read end. -/
def cutShort : Session :=
  let s := ((start .plain .plain).addPipe (.empty 4)).1
  let s := (s.spawn (.backing (.pipe 0) (.write [1]))).1
  let s := (s.spawn (.read 0 (-1))).1
  let s := (s.spawn (.backing (.pipe 0) (.write [2]))).1
  let s := (s.spawn (.backing (.pipe 0) .shutdown)).1
  (s.spawn (.close 0)).1

theorem run_cutShort : Run (start .plain .plain) (List.iterate turn cutShort 5) (turn^[5] cutShort) := by
  have h₀ : Run (start .plain .plain) [] (start .plain .plain) := .refl
  have h₁ := h₀.move (@Move.addPipe _ 4 _ rfl)
  have h₂ := h₁.move (@Move.spawn _ (.backing (.pipe 0) (.write [1])) ⟨_, rfl⟩)
  have h₃ := h₂.move (@Move.spawn _ (.read 0 (-1)) ⟨_, rfl⟩)
  have h₄ := h₃.move (@Move.spawn _ (.backing (.pipe 0) (.write [2])) ⟨_, rfl⟩)
  have h₅ := h₄.move (@Move.spawn _ (.backing (.pipe 0) .shutdown) ⟨_, rfl⟩)
  have h₆ := h₅.move (@Move.spawn _ (.close 0) ⟨_, rfl⟩)
  exact h₆.iterate 5

/-- With the read end closed, the first of two accepted bytes is returned as if it were all. -/
theorem returns_of_cutShort : ∃ past s b task, Run (start .plain .plain) past s ∧
    s.pipe? 0 = some b ∧ b.readClosed = true ∧ s.ready = [.task 1] ∧ s.tasks[1]? = some task ∧
      task.call = .read 0 (-1) ∧ s.turn.stage? 1 = some (.ended (.ok (.bytes [1]))) ∧
        accepted (history 0 past) = [1, 2] :=
  ⟨_, _, _, _, run_cutShort, rfl, rfl, rfl, rfl, rfl, rfl, rfl⟩

end Session

end Outflow
