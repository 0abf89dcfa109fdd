import Outflow.Proofs.Session.Account
import Outflow.Proofs.Session.Order

/-!
# Notices mirror outcomes

Whatever is asked of an outlet, its notices say just what became of it: a failure when what stands behind the
outlet failed in the system, the end of the output when it was ended, and nothing otherwise.

* `Session.entered?`, `entered?_turn`: what the outlet of a task was for when its present operation began;
* `Session.outcome?`, `EndsNow`, `turn_of_outcome?`: the outcome of the operation that ends in the next turn;
* `Ending`, `Session.ending?`: the end of an operation on an outlet; `Ending.notices`: what it is to say;
* `Session.Mirrors`: what is said, and what the caller gets;
* `notices_mirror_outcomes`: on every run.
-/

namespace Outflow

open Text (codesOf)

theorem Task.entry_after (task : Task) (d : Destination) (outcome : Outcome) :
    (task.after d outcome).entry = task.entry := by
  unfold Task.after
  split <;> rfl

/-- A fault ends every call, unchanged. -/
theorem Call.resume_error (c : Call) (d : Destination) (f : Fault) :
    c.resume d (.error f) = .done (.error f) := by
  cases c with
  | writeAll o rest => cases rest <;> rfl
  | forward p limit o total leg => cases leg <;> rfl
  | _ => rfl

theorem Task.after_error (task : Task) (d : Destination) (f : Fault) :
    task.after d (.error f) = { task with stage := .ended (.error f) } := by
  rw [Task.after, Call.resume_error]

namespace Session

variable {s s' s₁ : Session} {past : List Session} {t p g u : Nat} {task : Task} {rest : List Job}

/-! ### What an outlet was for at first -/

/-- What the outlet of a task was for when the present operation of the task began. -/
def entered? (s : Session) (t : Nat) : Option Destination := (s.tasks[t]?).map Task.entry

theorem entered?_congr (h : s'.tasks = s.tasks) : s'.entered? = s.entered? := by
  funext u
  rw [entered?, h, entered?]

theorem entered?_modify {m : Task → Task} (hm : ∀ task, (m task).entry = task.entry) :
    ({ s with tasks := s.tasks.modify t m } : Session).entered? = s.entered? :=
  funext fun u => map_getElem?_modify hm s.tasks t u

theorem entered?_setStage (s : Session) (t : Nat) (st : Stage) : (s.setStage t st).entered? = s.entered? :=
  entered?_modify fun _ => rfl

theorem entered?_complete (s : Session) (t : Nat) (outcome : Outcome) :
    (s.complete t outcome).entered? = s.entered? := by
  cases hk : s.tasks[t]? with
  | none => simp only [complete, hk]
  | some task =>
    have ha := entered?_congr (fields_announce s task outcome).2.2.2
    rw [complete_eq hk, ← ha]
    cases task.call.resume (s.destinationOf task.call.outlet?) outcome with
    | done outcome' => exact entered?_setStage ..
    | more call => exact entered?_modify fun _ => rfl

theorem entered?_serve (s : Session) (t : Nat) (gate : Option Nat) (p : Nat) (r : Pipe.Request) :
    (s.serve t gate p r).entered? = s.entered? := by
  cases hb : s.pipe? p with
  | none =>
    have hc : s.channels[p]? = none := by simpa [pipe?] using hb
    simp only [serve, hc]
  | some b =>
    rw [serve_eq hb]
    cases (b.serve r).reply with
    | wait again => exact entered?_setStage ..
    | done outcome =>
      rw [entered?_complete, entered?_congr (tasks_release ..)]
      rfl

theorem entered?_enter (s : Session) (t g : Nat) (r : Pipe.Request) :
    (s.enter t g r).entered? = s.entered? := by
  unfold enter
  split
  · rfl
  · exact entered?_serve ..

theorem entered?_approach (s : Session) (t : Nat) (b : Backing) (q : Sink.Request) :
    (s.approach t b q).entered? = s.entered? := by
  cases b with
  | stream n => exact entered?_complete ..
  | pipe p => exact entered?_serve ..
  | gate g =>
    unfold approach
    simp only
    split
    · rfl
    · split
      · exact entered?_enter ..
      · exact entered?_setStage ..

/-- What an outlet is for when an operation on it begins is recorded. -/
theorem entered?_begin (hk : s.tasks[t]? = some task) {o : Nat} {q : Sink.Request} {x : Outlet}
    (hx : s.outlets[o]? = some x) : (s.begin t (.onOutlet o q)).entered? t = some x.destination := by
  have hset : (s.setEntry t x.destination).entered? t = some x.destination := by
    rw [entered?, setEntry, List.getElem?_modify_eq, hk]
    rfl
  have happroach : ∀ b, ((s.setEntry t x.destination).approach t b q).entered? t =
      some x.destination := fun b => by rw [entered?_approach, hset]
  have hcomplete : ∀ outcome, ((s.setEntry t x.destination).complete t outcome).entered? t =
      some x.destination := fun outcome => by rw [entered?_complete, hset]
  simp only [begin, hx]
  obtain ⟨d, backing⟩ := x
  cases d <;> cases backing <;> first | exact happroach _ | exact hcomplete _

theorem entered?_turn_of_fresh (hr : s.ready = .task t :: rest) (hk : s.tasks[t]? = some task)
    (hc : task.cancelling = false) (hst : task.stage = .fresh) {o : Nat} {q : Sink.Request}
    (hop : task.call.operation = .onOutlet o q) {x : Outlet} (hx : s.outlets[o]? = some x) :
    s.turn.entered? t = some x.destination := by
  simp only [turn, hr, runTask, hk, hc, hst, hop]
  exact entered?_begin (s := { s with ready := rest }) hk hx

theorem entered?_turn_of_waiting (hr : s.ready = .task t :: rest) (hk : s.tasks[t]? = some task)
    (hc : task.cancelling = false) (hst : task.stage.place? ≠ none) :
    s.turn.entered? t = some task.entry := by
  have hs : s.entered? t = some task.entry := by rw [entered?, hk, Option.map_some]
  simp only [turn, hr, runTask, hk, hc]
  cases hcase : task.stage with
  | fresh => rw [hcase] at hst; exact absurd rfl hst
  | ended o => rw [hcase] at hst; exact absurd rfl hst
  | atGate g r => exact (congrFun (entered?_enter ..) t).trans hs
  | inPipe gate p r => exact (congrFun (entered?_serve ..) t).trans hs

/-- An operation that waits began when its outlet was for what it is for now, or the outlet has been given an
unknown destination since. -/
def Entered (s : Session) : Prop :=
  ∀ (t : Nat) task o q, s.tasks[t]? = some task → task.stage.place? ≠ none →
    task.call.operation = .onOutlet o q →
      s.destinationOf (some o) = task.entry ∨ ∃ name, s.destinationOf (some o) = .other name

theorem destinationOf_congr (h : s'.outlets = s.outlets) : s'.destinationOf = s.destinationOf := by
  funext o
  rw [destinationOf, h, destinationOf]

theorem destinationOf_of_outlet {o : Nat} {x : Outlet} (hx : s.outlets[o]? = some x) :
    s.destinationOf (some o) = x.destination := by
  rw [destinationOf, Option.bind_some, hx]
  rfl

/-- A task that waits after its turn waits in the operation of the call that it had before. -/
theorem Fate.call_of_place {task' : Task} (h : Fate s t task task') (hpl : task'.stage.place? ≠ none) :
    task'.call = task.call := by
  cases h with
  | cancelled => rfl
  | queued => rfl
  | waits => rfl
  | answered => rw [Task.place?_after] at hpl; exact absurd rfl hpl
  | served => rw [Task.place?_after] at hpl; exact absurd rfl hpl

theorem Entered.turn (h : Entered s) (hs : Sound s none none) : Entered s.turn := by
  intro t task' o q hk' hpl hop
  rw [destinationOf_congr (outlets_turn hs)]
  obtain ⟨task, hk⟩ := task_before_turn hs hk'
  rcases task_turn hs hk with ⟨rest, task'', hr, hk'', hf⟩ | ⟨hk'', -⟩
  · rw [hk'] at hk''
    cases hk''
    rw [hf.call_of_place hpl] at hop
    have hlive : task.cancelling = false := by
      by_contra hc
      have hend := (turn_course hs hr hk).stage_of_cancelling (by simpa using hc)
      rw [stage?_of_task hk', Option.some.injEq] at hend
      rw [hend] at hpl
      exact hpl rfl
    have hentry : s.turn.entered? t = some task'.entry := by rw [entered?, hk', Option.map_some]
    -- the operation begins in this turn, or it waited before
    by_cases hst : task.stage = .fresh
    · obtain ⟨x, hx⟩ := (hs.employed.fits t task hk).onOutlet hop
      rw [entered?_turn_of_fresh hr hk hlive hst hop hx, Option.some.injEq] at hentry
      exact .inl ((destinationOf_of_outlet hx).trans hentry)
    · have hpl' : task.stage.place? ≠ none := by
        have hended := Task.isUnfinished_iff.1 (isUnfinished_of_ready hs hr hk)
        cases hcase : task.stage with
        | fresh => exact absurd hcase hst
        | ended o => exact absurd hcase (hended o)
        | atGate g r => simp [Stage.place?]
        | inPipe gate p r => simp [Stage.place?]
      rw [entered?_turn_of_waiting hr hk hlive hpl', Option.some.injEq] at hentry
      rw [← hentry]
      exact h t task o q hk hpl' hop
  · rw [hk'] at hk''
    cases hk''
    exact h t _ o q hk hpl hop

/-- A move leaves an outlet what it is for, or gives it an unknown destination. -/
theorem Move.destinationOf (hm : Move s s') (hs : Sound s none none) {o : Nat} {x : Outlet}
    (hx : s.outlets[o]? = some x) : s'.destinationOf (some o) = x.destination ∨
      ∃ name, s'.destinationOf (some o) = .other name := by
  have hsame : s'.outlets = s.outlets → s'.destinationOf (some o) = x.destination :=
    fun ho => destinationOf_of_outlet (by rw [ho, hx])
  cases hm with
  | addPipe hc => exact .inl (hsame rfl)
  | addGate hp => exact .inl (hsame rfl)
  | spawn hc => exact .inl (hsame rfl)
  | post n => exact .inl (hsame (fields_post s n).2.2.1)
  | record journal stdio => exact .inl (hsame rfl)
  | cancel u => exact .inl (hsame (fields_cancel hs u).2.2.1)
  | addOutlet ho =>
    obtain ⟨hlt, -⟩ := List.getElem?_eq_some_iff.1 hx
    refine .inl (destinationOf_of_outlet ?_)
    rw [Session.addOutlet, List.getElem?_append_left hlt, hx]
  | @retarget place x' name ho =>
    by_cases hp : place = o
    · obtain ⟨hlt, -⟩ := List.getElem?_eq_some_iff.1 ho
      subst hp
      exact .inr ⟨name, destinationOf_of_outlet
        (x := { x' with destination := .other name }) (List.getElem?_set_self hlt)⟩
    · refine .inl (destinationOf_of_outlet ?_)
      rw [List.getElem?_set_ne hp, hx]

theorem Entered.move (h : Entered s) (hs : Sound s none none) (hm : Move s s') : Entered s' := by
  intro t task' o q hk' hpl hop
  obtain ⟨task, hk, hcall, hst, hentry⟩ | ⟨-, hfresh⟩ := hm.task hs hk'
  case inr =>
    rw [hfresh] at hpl
    exact absurd rfl hpl
  rw [hcall] at hop
  rw [hst] at hpl
  obtain ⟨x, hx⟩ := (hs.employed.fits t task hk).onOutlet hop
  have hold := h t task o q hk hpl hop
  rw [destinationOf_of_outlet hx] at hold
  -- an unknown destination stays unknown
  rcases hm.destinationOf hs hx with hd | hd
  · rw [hd, hentry]
    exact hold
  · exact .inr hd

theorem entered_of_run {out err : Stream.Traits} (h : Run (start out err) past s) : Entered s := by
  refine (h.invariant (P := fun s => Sound s none none ∧ Entered s) ⟨sound_start out err, ?_⟩
    (fun s h => ⟨h.1.turn, h.2.turn h.1⟩) fun s s' h hm => ⟨h.1.move hm, h.2.move h.1 hm⟩).2
  intro t task o q hk
  cases hk

/-! ### The operation that ends in the next turn -/

/-- The outcome of the operation of the task that has the next turn, if it ends then. -/
def outcome? (s : Session) (task : Task) : Option Outcome :=
  if task.cancelling then some (.error .cancelled)
  else match s.service? with
    | some v => v.answer?
    | none => s.answer? task.call.operation

/-- A request that a backing answers at once is completed. -/
theorem approach_of_answerAt? (hk : s.tasks[t]? = some task) {b : Backing} {q : Sink.Request}
    {outcome : Outcome} (hans : s.answerAt? b q = some outcome) :
    ∃ s₁ : Session, ∃ task₁, s₁.tasks[t]? = some task₁ ∧ s.approach t b q = s₁.complete t outcome := by
  cases b with
  | stream n =>
    cases hans
    exact ⟨{ s with stdio := (s.stdio.perform n q).1 }, task, hk, rfl⟩
  | gate g => cases hans
  | pipe p => cases hans

/-- An operation that is answered at once is completed. -/
theorem begin_of_answer? (hk : s.tasks[t]? = some task) {op : Operation} {outcome : Outcome}
    (hans : s.answer? op = some outcome) :
    ∃ s₁ : Session, ∃ task₁, s₁.tasks[t]? = some task₁ ∧ s.begin t op = s₁.complete t outcome := by
  cases op with
  | answered o =>
    cases hans
    exact ⟨s, task, hk, rfl⟩
  | onPipe p r => cases hans
  | onBacking b q => exact approach_of_answerAt? hk hans
  | onOutlet o q =>
    obtain ⟨x, hx, hans⟩ := Option.bind_eq_some_iff.1 hans
    have hk' : (s.setEntry t x.destination).tasks[t]? = some { task with entry := x.destination } := by
      rw [setEntry, List.getElem?_modify_eq, hk]
      rfl
    simp only [begin, hx]
    obtain ⟨d, backing⟩ := x
    cases d <;> cases backing <;> first
      | exact approach_of_answerAt? (s := s.setEntry t _) hk' hans
      | (cases hans; exact ⟨_, _, hk', rfl⟩)

/-- A task whose operation is answered at once waits nowhere after its turn. -/
theorem place?_turn_of_answer? (hr : s.ready = .task t :: rest) (hk : s.tasks[t]? = some task)
    (hc : task.cancelling = false) (hst : task.stage = .fresh) {outcome : Outcome}
    (hans : s.answer? task.call.operation = some outcome) : s.turn.place? t = none := by
  have hturn : s.turn = ({ s with ready := rest } : Session).begin t task.call.operation := by
    simp only [turn, hr, runTask, hk, hc, hst]
  obtain ⟨s₁, task₁, hk₁, he⟩ := begin_of_answer? (s := { s with ready := rest }) hk hans
  rw [hturn, he, place?_of_task (task_complete hk₁ outcome), Task.place?_after]

theorem notices_announce (s : Session) (task : Task) (outcome : Outcome) :
    (s.announce task outcome).notices = s.notices ++ (s.noticeOf? task outcome).toList := by
  unfold announce emit post
  split
  · rename_i n hn
    rw [hn]
    simp only
    split <;> rfl
  · rename_i hn
    rw [hn]
    exact (List.append_nil _).symm

/-- The end of an operation is noticed at once. -/
theorem notices_complete (hk : s.tasks[t]? = some task) (outcome : Outcome) :
    (s.complete t outcome).notices = s.notices ++ (s.noticeOf? task outcome).toList := by
  rw [complete_eq hk, ← notices_announce]
  cases task.call.resume (s.destinationOf task.call.outlet?) outcome <;> rfl

theorem noticeOf?_congr (h : s'.outlets = s.outlets) : s'.noticeOf? = s.noticeOf? := by
  funext task outcome
  rw [noticeOf?, destinationOf_congr h, noticeOf?]

/-- What ends because it was cancelled is not noticed. -/
theorem noticeOf?_cancelled (s : Session) (task : Task) :
    s.noticeOf? task (.error .cancelled) = none := by
  unfold noticeOf?
  split <;> rfl

/-- Whether the operation of a task ends in the next turn: the task goes on after it, and what there is to
notice about the outcome is noticed. -/
def EndsNow (s : Session) (t : Nat) (task : Task) : Prop :=
  ∃ outcome entry d, s.outcome? task = some outcome ∧ s.turn.entered? t = some entry ∧
    s.turn.tasks[t]? = some (Task.after { task with entry } d outcome) ∧
      s.turn.notices = s.notices ++ (s.noticeOf? { task with entry } outcome).toList

theorem entered?_of_after {entry d : Destination} {outcome : Outcome}
    (hk : s.tasks[t]? = some (Task.after { task with entry } d outcome)) :
    s.entered? t = some entry := by
  rw [entered?, hk, Option.map_some, Task.entry_after]

/-- An operation that the turn completes ends in it. -/
theorem endsNow_of_complete {entry : Destination} {outcome : Outcome}
    (he : s.turn = s₁.complete t outcome) (hk : s₁.tasks[t]? = some { task with entry })
    (hn : s₁.notices = s.notices) (ho : s₁.outlets = s.outlets) (hout : s.outcome? task = some outcome) :
    s.EndsNow t task := by
  have hk' := task_complete hk outcome
  have hn' := notices_complete hk outcome
  rw [← he] at hk' hn'
  rw [hn, noticeOf?_congr ho] at hn'
  exact ⟨outcome, entry, _, hout, entered?_of_after hk', hk', hn'⟩

/-- The operation of the task that has the next turn waits on, and nothing is noticed, or it ends. -/
theorem turn_of_outcome? (h : Sound s none none) (hr : s.ready = .task t :: rest)
    (hk : s.tasks[t]? = some task) :
    (s.outcome? task = none ∧ s.turn.place? t ≠ none ∧ s.turn.notices = s.notices) ∨
      s.EndsNow t task := by
  obtain ⟨s', hs'⟩ : ∃ s', s.turn = s' := ⟨_, rfl⟩
  have hcourse := turn_course h hr hk
  rw [hs'] at hcourse
  cases hcourse with
  | @cancelled s₁ hp hc hv =>
    right
    obtain ⟨entry, hk₁⟩ := hp.task
    have hk' : s.turn.tasks[t]? = some (Task.after { task with entry } .null (.error .cancelled)) := by
      rw [hs', Task.after_error]
      simp only [finish, setStage, List.getElem?_modify_eq, hk₁]
      rfl
    refine ⟨.error .cancelled, entry, .null, by rw [outcome?, if_pos hc], entered?_of_after hk', hk', ?_⟩
    rw [noticeOf?_cancelled, Option.toList_none, List.append_nil, hs']
    exact hp.onset.notices
  | @answered s₁ hp hc hv hst outcome hop hout hans =>
    obtain ⟨entry, hk₁⟩ := hp.task
    refine .inr (endsNow_of_complete hs' hk₁ hp.onset.notices hp.outlets ?_)
    rw [outcome?, if_neg (by simp [hc]), hv]
    exact hans
  | @queued s₁ g gate q hp hc hv hst hg hopen haim =>
    left
    obtain ⟨entry, hk₁⟩ := hp.task
    have hq : s.turn.place? t = some (.gate g) := by
      rw [hs']
      exact place?_of_stage (stage?_setStage hk₁ _)
    refine ⟨?_, by rw [hq]; simp, by rw [hs']; exact hp.onset.notices⟩
    rw [outcome?, if_neg (by simp [hc]), hv]
    -- an operation that is answered at once does not queue
    cases hans : s.answer? task.call.operation with
    | none => rfl
    | some outcome =>
      rw [place?_turn_of_answer? hr hk hc hst hans] at hq
      cases hq
  | @served s₁ held p r b hp hc hv hb hpur =>
    have hout : s.outcome? task = (⟨⟨held, p, r⟩, t, b⟩ : Service).answer? := by
      rw [outcome?, if_neg (by simp [hc]), hv]
    obtain ⟨again, hrep, he, hst⟩ | ⟨outcome, entry, hrep, he, hk₁⟩ := hp.serve_cases hb r
    · left
      rw [hs', he]
      exact ⟨by rw [hout, Service.answer?, hrep], by rw [place?_of_stage hst]; simp [Stage.place?],
        hp.onset.notices⟩
    · refine .inr (endsNow_of_complete (hs'.trans he) hk₁
        ((records_release ..).1.trans hp.onset.notices) ((outlets_release ..).trans hp.outlets) ?_)
      rw [hout, Service.answer?, hrep]

end Session

/-! ### The ends of operations on outlets -/

/-- The end of an operation on an outlet. -/
structure Ending where
  task : Nat
  /-- The place of the outlet. -/
  outlet : Nat
  request : Sink.Request
  /-- What the outlet was for when the operation began. -/
  entry : Destination
  /-- What the outlet is for when it ends. -/
  now : Destination
  /-- The answer of what stands behind the outlet, if that was asked and did answer. -/
  answer : Option Outcome
  /-- The outcome of the operation. -/
  outcome : Outcome

/-- The backing that an outlet passes requests on to. -/
def Outlet.forwards? (x : Outlet) : Option Backing :=
  match x.destination with
  | .null | .other _ => none
  | _ => x.backing

/-- What is to be noticed about an operation: that the backing failed in the system, or that an output was
ended. -/
def Ending.notices (e : Ending) : List Notice :=
  match e.answer, e.outcome with
  | some (.error f), _ =>
    if f.isSystem then [.ofFault e.now e.request f] else []
  | _, .ok _ => if e.request = .shutdown ∧ e.entry ≠ .null then [.ofEnd e.entry] else []
  | _, .error _ => []

theorem Ending.mem_notices {e : Ending} {n : Notice} (h : ∀ a, e.answer = some a → e.outcome = a) :
    n ∈ e.notices ↔
      (∃ f, e.answer = some (.error f) ∧ f.isSystem = true ∧
        n = .ofFault e.now e.request f) ∨
      (e.request = .shutdown ∧ e.entry ≠ .null ∧ (∃ a, e.outcome = .ok a) ∧
        n = .ofEnd e.entry) := by
  obtain ⟨task, outlet, request, entry, now, answer, outcome⟩ := e
  simp only [Ending.notices] at h ⊢
  cases outcome with
  | error f =>
    cases answer with
    | none => simp
    | some a =>
      cases h a rfl
      by_cases hf : f.isSystem = true <;> simp [hf]
  | ok x =>
    cases answer with
    | none => by_cases hd : request = .shutdown ∧ entry ≠ .null <;> (simp [hd]; try tauto)
    | some a =>
      cases h a rfl
      by_cases hd : request = .shutdown ∧ entry ≠ .null <;> (simp [hd]; try tauto)

theorem Ending.length_notices (e : Ending) : e.notices.length ≤ 1 := by
  unfold Ending.notices
  split
  · split <;> simp
  · split <;> simp
  · simp

/-- The notices of an operation that the backing answered, or that ended with no fault of the system. -/
theorem Ending.notices_eq {e : Ending} (h : e.answer = some e.outcome ∨
    (e.answer = none ∧ ∀ f, e.outcome = .error f → f.isSystem = false)) :
    e.notices = (Notice.about? e.entry e.now e.request e.outcome).toList := by
  obtain ⟨task, outlet, request, entry, now, answer, outcome⟩ := e
  simp only [Ending.notices] at h ⊢
  cases outcome with
  | error f =>
    rcases h with rfl | ⟨rfl, hf⟩
    · by_cases hf : f.isSystem = true <;> simp [Notice.about?, hf]
    · simp [Notice.about?, hf f rfl]
  | ok x =>
    rcases h with rfl | ⟨rfl, -⟩ <;> cases request <;> cases entry <;> simp [Notice.about?]

namespace Session

variable {s s' s₁ : Session} {past : List Session} {t p g u : Nat} {task : Task} {rest : List Job}

/-- The answer of what stands behind an outlet in the next turn. -/
def backingAnswer? (s : Session) (task : Task) (o : Nat) (q : Sink.Request) : Option Outcome :=
  if task.cancelling then none
  else match s.service? with
    | some v => v.answer?
    | none => ((s.outlets[o]?).bind Outlet.forwards?).bind fun b => s.answerAt? b q

/-- The end of an operation on an outlet in the next turn, if there is one. -/
def ending? (s : Session) : Option Ending :=
  match s.ready with
  | .task t :: _ => (s.tasks[t]?).bind fun task => match task.call.operation with
    | .onOutlet o q => (s.outcome? task).map fun outcome =>
      { task := t, outlet := o, request := q
        entry := if task.stage.isFresh then s.destinationOf (some o) else task.entry
        now := s.destinationOf (some o)
        answer := s.backingAnswer? task o q
        outcome }
    | _ => none
  | _ => none

/-- What is said at the end of an operation on an outlet, and what the caller gets. -/
structure Mirrors (s : Session) (e : Ending) : Prop where
  /-- The operation is the present one of its task, which has its turn. -/
  operation : ∃ rest task, s.ready = .task e.task :: rest ∧ s.tasks[e.task]? = some task ∧
    task.call.operation = .onOutlet e.outlet e.request
  /-- The outlet is still for what it was for at first, or was given an unknown destination since. -/
  entry : e.now = e.entry ∨ ∃ name, e.now = .other name
  /-- What is noticed is noticed at once. -/
  notices : s.turn.notices = s.notices ++ e.notices
  /-- An answer is the outcome, as it is. -/
  answered : ∀ a, e.answer = some a → e.outcome = a
  /-- Without one the operation was cancelled, or the outlet is for nothing or for something unknown. -/
  unanswered : e.answer = none → e.outcome = .error .cancelled ∨
    (e.entry = .null ∧ e.outcome = .ok (Outlet.nullAnswer e.request)) ∨
      ∃ name, e.outcome = .error (.unhandled name)
  /-- A fault ends the whole call, unchanged. -/
  fault : ∀ f, e.outcome = .error f → s.turn.stage? e.task = some (.ended (.error f))
  /-- A call of one operation ends with its outcome. -/
  single : ∀ task, s.tasks[e.task]? = some task → task.call.isSingle = true →
    s.turn.stage? e.task = some (.ended e.outcome) ∧ s.turn.endings = s.endings ++ [e.task]

theorem ending?_eq (hr : s.ready = .task t :: rest) (hk : s.tasks[t]? = some task) {o : Nat}
    {q : Sink.Request} (hop : task.call.operation = .onOutlet o q) :
    s.ending? = (s.outcome? task).map fun outcome =>
      { task := t, outlet := o, request := q
        entry := if task.stage.isFresh then s.destinationOf (some o) else task.entry
        now := s.destinationOf (some o)
        answer := s.backingAnswer? task o q
        outcome } := by
  simp only [ending?, hr, hk, Option.bind_some, hop]

/-- Only a task whose operation is on an outlet ends one. -/
theorem ending?_eq_some {e : Ending} (h : s.ending? = some e) :
    ∃ rest task, s.ready = .task e.task :: rest ∧ s.tasks[e.task]? = some task ∧
      task.call.operation = .onOutlet e.outlet e.request ∧ s.outcome? task = some e.outcome ∧
        e.entry = (if task.stage.isFresh then s.destinationOf (some e.outlet) else task.entry) ∧
          e.now = s.destinationOf (some e.outlet) ∧
            e.answer = s.backingAnswer? task e.outlet e.request := by
  unfold ending? at h
  split at h
  · rename_i t rest hr
    obtain ⟨task, hk, h⟩ := Option.bind_eq_some_iff.1 h
    split at h
    · rename_i o q hop
      obtain ⟨outcome, hout, rfl⟩ := Option.map_eq_some_iff.1 h
      exact ⟨rest, task, hr, hk, hop, hout, rfl, rfl, rfl⟩
    · cases h
  · cases h

/-- What stands behind the outlet answers with the outcome, or it was not asked. -/
theorem backingAnswer?_cases {o : Nat} {q : Sink.Request}
    (hop : task.call.operation = .onOutlet o q) {outcome : Outcome}
    (hout : s.outcome? task = some outcome) :
    s.backingAnswer? task o q = some outcome ∨ (s.backingAnswer? task o q = none ∧
      (outcome = .error .cancelled ∨
        (s.destinationOf (some o) = .null ∧ outcome = .ok (Outlet.nullAnswer q)) ∨
          ∃ name, outcome = .error (.unhandled name))) := by
  unfold outcome? at hout
  unfold backingAnswer?
  split at hout
  · rename_i hc
    rw [if_pos hc]
    cases hout
    exact .inr ⟨rfl, .inl rfl⟩
  · rename_i hc
    rw [if_neg hc]
    cases hv : s.service? with
    | some v =>
      rw [hv] at hout
      exact .inl hout
    | none =>
      rw [hv, hop] at hout
      obtain ⟨x, hx, hout⟩ := Option.bind_eq_some_iff.1 hout
      simp only [hx, Option.bind_some, destinationOf_of_outlet hx]
      obtain ⟨d, backing⟩ := x
      cases d with
      | null =>
        cases hout
        exact .inr ⟨rfl, .inr (.inl ⟨rfl, rfl⟩)⟩
      | other name =>
        cases hout
        exact .inr ⟨rfl, .inr (.inr ⟨_, rfl⟩)⟩
      | stdout | stderr | pipe =>
        cases backing with
        | none =>
          cases hout
          exact .inr ⟨rfl, .inr (.inr ⟨_, rfl⟩)⟩
        | some b => exact .inl hout

/-- What an ending says of its outlet: the outlet is still for that, or for something unknown. -/
theorem now_of_ending? (h : Sound s none none) (hent : Entered s) {e : Ending}
    (he : s.ending? = some e) : e.now = e.entry ∨ ∃ name, e.now = .other name := by
  obtain ⟨rest, task, hr, hk, hop, -, hentry, hnow, -⟩ := ending?_eq_some he
  rw [hnow, hentry]
  cases hst : task.stage with
  | fresh => exact .inl rfl
  | ended o =>
    have hended := Task.isUnfinished_iff.1 (isUnfinished_of_ready h hr hk)
    exact absurd hst (hended o)
  | atGate g r => exact hent e.task task _ _ hk (by simp [hst, Stage.place?]) hop
  | inPipe gate p r => exact hent e.task task _ _ hk (by simp [hst, Stage.place?]) hop

/-- What an ending says of its outlet is what the task has recorded, unless the task was cancelled. -/
theorem entry_of_ending? (h : Sound s none none) {e : Ending} (he : s.ending? = some e)
    {entry : Destination} (hentry : s.turn.entered? e.task = some entry) :
    e.outcome = .error .cancelled ∨ entry = e.entry := by
  obtain ⟨rest, task, hr, hk, hop, hout, hent, -, -⟩ := ending?_eq_some he
  cases hc : task.cancelling with
  | true =>
    rw [outcome?, if_pos hc] at hout
    exact .inl (Option.some.inj hout).symm
  | false =>
    right
    rw [hent]
    have hended := Task.isUnfinished_iff.1 (isUnfinished_of_ready h hr hk)
    obtain ⟨x, hx⟩ := (h.employed.fits _ task hk).onOutlet hop
    cases hst : task.stage with
    | fresh =>
      rw [entered?_turn_of_fresh hr hk hc hst hop hx, Option.some.injEq] at hentry
      rw [← hentry]
      exact (destinationOf_of_outlet hx).symm
    | ended o => exact absurd hst (hended o)
    | atGate g r =>
      rw [entered?_turn_of_waiting hr hk hc (by simp [hst, Stage.place?]), Option.some.injEq] at hentry
      exact hentry.symm
    | inPipe gate p r =>
      rw [entered?_turn_of_waiting hr hk hc (by simp [hst, Stage.place?]), Option.some.injEq] at hentry
      exact hentry.symm

/-- What stands behind the outlet answers with the outcome, or it was not asked. -/
theorem answer_of_ending? {e : Ending} (he : s.ending? = some e) :
    e.answer = some e.outcome ∨ (e.answer = none ∧ (e.outcome = .error .cancelled ∨
      (e.now = .null ∧ e.outcome = .ok (Outlet.nullAnswer e.request)) ∨
        ∃ name, e.outcome = .error (.unhandled name))) := by
  obtain ⟨rest, task, -, -, hop, hout, -, hnow, hanswer⟩ := ending?_eq_some he
  rw [hnow, hanswer]
  exact backingAnswer?_cases hop hout

/-- What is to be said at the end is the notice about the outcome. -/
theorem notices_of_ending? {e : Ending} (he : s.ending? = some e) :
    e.notices = (Notice.about? e.entry e.now e.request e.outcome).toList := by
  refine Ending.notices_eq ((answer_of_ending? he).imp id fun ⟨hans, hcase⟩ => ⟨hans, fun f hf => ?_⟩)
  rw [hf] at hcase
  rcases hcase with hcan | ⟨-, hnull⟩ | ⟨name, hun⟩
  · cases hcan
    rfl
  · cases hnull
  · cases hun
    rfl

/-- What is noticed about an outcome is what is to be said at the end. -/
theorem about?_of_ending? (h : Sound s none none) {e : Ending} (he : s.ending? = some e)
    {entry : Destination} (hentry : s.turn.entered? e.task = some entry) :
    (Notice.about? entry e.now e.request e.outcome).toList = e.notices := by
  rw [notices_of_ending? he]
  rcases entry_of_ending? h he hentry with hcan | rfl
  · rw [hcan]
    rfl
  · rfl

theorem mirrors_of_ending? (h : Sound s none none) (hent : Entered s) {e : Ending}
    (he : s.ending? = some e) : Mirrors s e := by
  obtain ⟨rest, task, hr, hk, hop, hout, -, hnow, -⟩ := ending?_eq_some he
  have hsame := now_of_ending? h hent he
  obtain ⟨hnone, -, -⟩ | ⟨outcome, entry, d, hout', hentry, hk', hn⟩ := turn_of_outcome? h hr hk
  · rw [hout] at hnone
    cases hnone
  rw [hout, Option.some.injEq] at hout'
  subst hout'
  have hcases := answer_of_ending? he
  have hstage := stage?_of_task hk'
  constructor
  case operation => exact ⟨rest, task, hr, hk, hop⟩
  case entry => exact hsame
  case notices =>
    have habout : s.noticeOf? { task with entry } e.outcome =
        Notice.about? entry e.now e.request e.outcome := by
      rw [hnow, noticeOf?, hop]
    rw [hn, habout, about?_of_ending? h he hentry]
  case answered =>
    intro a ha
    rcases hcases with hans | ⟨hans, -⟩
    · rw [hans] at ha
      exact Option.some.inj ha
    · rw [hans] at ha
      cases ha
  case unanswered =>
    intro hnone
    rcases hcases with hans | ⟨-, hcan | ⟨hnull, hans⟩ | hun⟩
    · rw [hnone] at hans
      cases hans
    · exact .inl hcan
    · rw [hnull] at hsame
      refine .inr (.inl ⟨?_, hans⟩)
      rcases hsame with hsame | ⟨name, hname⟩
      · exact hsame.symm
      · cases hname
    · exact .inr (.inr hun)
  case fault =>
    intro f hf
    rw [hstage, hf, Task.after_error]
  case single =>
    intro task₀ hk₀ hsingle
    rw [hk] at hk₀
    cases hk₀
    have hcall : ({ task with entry } : Task).call.isSingle = true := hsingle
    have hafter := Task.after_of_isSingle hcall d e.outcome
    rw [hafter] at hstage
    refine ⟨hstage, ?_⟩
    rcases (turn_course h hr hk).recorded with ⟨-, hend⟩ | ⟨hno, -⟩
    · exact hend
    · exact absurd hstage (hno _)

/-- Nothing is noticed in a turn in which no operation on an outlet ends; if one has the turn, it waits. -/
theorem notices_of_no_ending (h : Sound s none none) (he : s.ending? = none) :
    s.turn.notices = s.notices ∧ ∀ t rest task o q, s.ready = .task t :: rest →
      s.tasks[t]? = some task → task.call.operation = .onOutlet o q → s.turn.place? t ≠ none := by
  constructor
  · obtain ⟨-, hs⟩ | ⟨n, k, rest, -, hs⟩ | ⟨t, rest, task, hr, hk, -, -⟩ := turn_cases h
    · rw [hs]
    · rw [hs]
      rfl
    · obtain ⟨-, -, hn⟩ | ⟨outcome, entry, d, hout, -, -, hn⟩ := turn_of_outcome? h hr hk
      · exact hn
      · rw [hn]
        cases hop : task.call.operation with
        | onOutlet o q =>
          rw [ending?_eq hr hk hop, hout] at he
          cases he
        | answered | onPipe | onBacking => rw [noticeOf?, hop]; exact List.append_nil _
  · intro t rest task o q hr hk hop
    obtain ⟨-, hpl, -⟩ | ⟨outcome, entry, d, hout, -⟩ := turn_of_outcome? h hr hk
    · exact hpl
    · rw [ending?_eq hr hk hop, hout] at he
      cases he

/-- What is done from outside is not noticed. -/
theorem Move.notices (hm : Move s s') (hs : Sound s none none) : s'.notices = s.notices := by
  cases hm with
  | addPipe hc => rfl
  | addGate hp => rfl
  | addOutlet ho => rfl
  | retarget name ho => rfl
  | spawn hc => rfl
  | record journal stdio => rfl
  | post n =>
    unfold Session.post
    split <;> rfl
  | cancel u => exact (fields_cancel hs u).2.2.2.1

/-- The notices of a run are those of the operations on outlets that ended, in the order in which they did. -/
theorem Run.notices {out err : Stream.Traits} (h : Run (start out err) past s) :
    s.notices = (past.filterMap ending?).flatMap Ending.notices := by
  induction h with
  | refl => rfl
  | @turn past s h ih =>
    have hs := (sound_start out err).run h
    rw [List.filterMap_append, List.flatMap_append, ← ih]
    cases he : s.ending? with
    | none =>
      rw [(notices_of_no_ending hs he).1]
      simp [he]
    | some e =>
      rw [(mirrors_of_ending? hs (entered_of_run h) he).notices]
      simp [he]
  | move h hm ih => rw [hm.notices ((sound_start out err).run h), ih]

/-- On every run, whatever stands behind the outlets and whoever is cancelled, the notices are those of the
operations on outlets that ended, in the order in which they did.  An operation is noticed once at most: as a
failure, with what its outlet is for, what was asked, and the wording and the class of the fault, just if what
stands behind the outlet failed in the system; and as the end of the output just if that was asked of an
outlet for something and succeeded, however often.  The caller gets the answer as it is, and a fault ends its
whole call. -/
theorem notices_mirror_outcomes {out err : Stream.Traits} (h : Run (start out err) past s) :
    s.notices = (past.filterMap ending?).flatMap Ending.notices ∧
      (s.ending? = none → s.turn.notices = s.notices ∧ ∀ t rest task o q,
        s.ready = .task t :: rest → s.tasks[t]? = some task →
          task.call.operation = .onOutlet o q → s.turn.place? t ≠ none) ∧
      ∀ e, s.ending? = some e → Mirrors s e ∧ e.notices.length ≤ 1 ∧ ∀ n, n ∈ e.notices ↔
        (∃ f, e.answer = some (.error f) ∧ f.isSystem = true ∧
          n = .ofFault e.now e.request f) ∨
        (e.request = .shutdown ∧ e.entry ≠ .null ∧ (∃ a, e.outcome = .ok a) ∧
          n = .ofEnd e.entry) := by
  have hs := (sound_start out err).run h
  refine ⟨h.notices, notices_of_no_ending hs, fun e he => ?_⟩
  have hm := mirrors_of_ending? hs (entered_of_run h) he
  exact ⟨hm, e.length_notices, fun n => Ending.mem_notices hm.answered⟩

/-- A pipe whose read end is to be closed, and two tasks that are to write through an outlet for it, and to
end it. -/
def brokenPipe : Session :=
  let s := ((start .plain .plain).addPipe (.empty 1)).1
  let s := (s.addGate 0).1
  let s := (s.addOutlet (.ofGate 0)).1
  let s := (s.spawn (.close 0)).1
  let s := (s.spawn (.outlet 0 (.write [1]))).1
  (s.spawn (.outlet 0 .shutdown)).1

theorem run_brokenPipe : Run (start .plain .plain) (List.iterate turn brokenPipe 3)
    (turn^[3] brokenPipe) := by
  have h₀ : Run (start .plain .plain) [] (start .plain .plain) := .refl
  have h₁ := h₀.move (@Move.addPipe _ 1 _ rfl)
  have h₂ := h₁.move (@Move.addGate _ 0 ⟨_, rfl⟩)
  have h₃ := h₂.move (@Move.addOutlet _ (.ofGate 0) fun b hb => by
    cases hb
    exact ⟨⟨_, rfl⟩, by simp [Outlet.ofGate]⟩)
  have h₄ := h₃.move (@Move.spawn _ (.close 0) ⟨_, rfl⟩)
  have h₅ := h₄.move (@Move.spawn _ (.outlet 0 (.write [1])) ⟨_, rfl⟩)
  have h₆ := h₅.move (@Move.spawn _ (.outlet 0 .shutdown) ⟨_, rfl⟩)
  exact h₆.iterate 3

/-- The write fails and says so, and the pipe is ended all the same. -/
theorem brokenPipe_notices : (turn^[3] brokenPipe).notices =
    [.failed (codesOf "pipe") (codesOf "write") (codesOf "pipe reader is closed") (codesOf "BrokenPipeError"),
      .shutDown (codesOf "pipe")] := by
  rw [(notices_mirror_outcomes run_brokenPipe).1]
  rfl

end Session

end Outflow
