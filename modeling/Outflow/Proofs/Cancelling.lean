import Outflow.Proofs.Exclusion
import Outflow.Proofs.Settling

/-!
# Cancelling leaves no trace

A call that is one request is met as a whole or, if it is cancelled, not at all.

* `Call.isOneRequest`: the calls that are one request: all but reading to the end and the loops;
* `Fate.of_isOneRequest`: in its turn such a task is put off and changes nothing, or it ends;
* `Run.untouched`: until it ends, and if it ends as cancelled, it has changed nothing;
* `Session.SameBut`: two sessions are the same, but for one task;
* `SameBut.restored`: if the one is settled without the task and the other after it, they are the same;
* `settle_spawn`, `settle_cancel`: what settling does after a call is made, and after it is cancelled;
* `cancelled_without_trace`: all this together.
-/

namespace Outflow

/-- Whether a call is one request, which is met at once or not at all. -/
def Call.isOneRequest : Call → Bool
  | .backing _ _ | .outlet _ _ | .readLine _ | .nextLine _ => true
  | .read _ limit => 0 ≤ limit
  | _ => false

/-- A call that goes on is not one request. -/
theorem Call.isOneRequest_of_more {c c' : Call} {d : Destination} {outcome : Outcome}
    (h : c.resume d outcome = .more c') : c'.isOneRequest = false := by
  unfold Call.resume at h
  split at h
  all_goals try split at h
  all_goals cases h
  all_goals rfl

/-- A call that is one request ends with it, and as cancelled only if the request did. -/
theorem Call.resume_of_isOneRequest {c : Call} (h : c.isOneRequest = true) (d : Destination)
    (outcome : Outcome) : ∃ o, c.resume d outcome = .done o ∧
      (o = .error .cancelled → outcome = .error .cancelled) := by
  cases c with
  | nextLine p =>
    unfold resume
    split
    case h_3 => exact ⟨_, rfl, by simp⟩
    all_goals first | exact ⟨_, rfl, id⟩ | simp_all
  | backing | outlet | read | readLine => exact ⟨_, rfl, id⟩
  | idle | writeAll | close | lines | forward => cases h

theorem Task.after_of_isOneRequest {task : Task} (h : task.call.isOneRequest = true)
    (d : Destination) (outcome : Outcome) : ∃ o, task.after d outcome = { task with stage := .ended o } ∧
      (o = .error .cancelled → outcome = .error .cancelled) := by
  obtain ⟨o, hr, ho⟩ := Call.resume_of_isOneRequest h d outcome
  exact ⟨o, by rw [after, hr], ho⟩

/-- One request never reads to the end. -/
theorem Call.operation_ne_drain {c : Call} (h : c.isOneRequest = true) (p : Nat) (got : Bytes) :
    c.operation ≠ .onPipe p (.drain got) := by
  cases c with
  | read p' limit =>
    have hle : 0 ≤ limit := by simpa [isOneRequest] using h
    rw [operation, Operation.read]
    split
    · simp
    · rw [if_pos (by omega)]
      simp
  | backing | outlet | readLine | nextLine => simp [operation]
  | idle | writeAll | close | lines | forward => cases h

/-- No pipe answers that a task was cancelled. -/
theorem Pipe.reply_ne_cancelled (p : Pipe) (r : Request) :
    (p.serve r).reply ≠ .done (.error .cancelled) := by
  obtain ⟨-, hs⟩ | ⟨-, hs⟩ := serve_cases p r
  · simp [hs]
  · rw [hs]
    cases r with
    | write data =>
      by_cases hc : p.isClosing = true
      · rw [perform_write_of_isClosing hc]
        split <;> simp
      · simp only [isClosing, Bool.not_eq_true, Bool.or_eq_false_iff] at hc
        simp [perform_write_of_open hc.2 hc.1]
    | drain got =>
      by_cases hc : p.readClosed = true
      · simp [perform, drained, hc]
      · rw [Bool.not_eq_true] at hc
        rw [perform_drain_of_open hc]
        split <;> simp
    | flush | shutdown | read | readLine | close => simp [perform]

theorem Service.answer?_ne_cancelled (v : Service) : v.answer? ≠ some (.error .cancelled) := by
  have hne := Pipe.reply_ne_cancelled v.before v.request
  rw [answer?]
  cases hrep : (v.before.serve v.request).reply with
  | wait again => simp
  | done o =>
    rw [hrep] at hne
    simpa using hne

/-- A service that is put off and leaves its pipe as it was adds and removes nothing. -/
theorem Service.idle_of_after {v : Service} (hans : v.answer? = none) (h : v.after = v.before) :
    v.accepted = [] ∧ v.removed = [] := by
  constructor
  · rw [answer?] at hans
    cases hrep : (v.before.serve v.request).reply with
    | wait again =>
      rw [accepted]
      cases hr : v.request with
      | write data => rw [Pipe.accepted_write, ← hr, hrep]
      | _ => simp [Pipe.accepted]
    | done o =>
      rw [hrep] at hans
      cases hans
  · rw [after] at h
    rw [removed, Pipe.removed, h]
    simp

namespace Session

variable {s s' s₀ s₁ s₂ : Session} {past : List Session} {t u p g : Nat} {task task' : Task}

/-! ### One request in its turn -/

/-- An outlet does not answer by itself that a task was cancelled, unless a stream does. -/
theorem answer?_ne_cancelled {c : Call} (hc : c.isOneRequest = true)
    (hstream : ∀ n q, ¬ s.Aims c (.stream n) q) : s.answer? c.operation ≠ some (.error .cancelled) := by
  have hat : ∀ b q, s.Aims c b q → s.answerAt? b q ≠ some (.error .cancelled) := by
    intro b q haim
    cases b with
    | stream n => exact absurd haim (hstream n q)
    | gate g => simp [answerAt?]
    | pipe p => simp [answerAt?]
  cases c with
  | backing b q => exact hat b q (.inl rfl)
  | outlet o q =>
    rw [Call.operation, answer?]
    cases hx : s.outlets[o]? with
    | none => simp
    | some x =>
      obtain ⟨d, backing⟩ := x
      rw [Option.bind_some]
      have haim : ∀ b, backing = some b → s.Aims (.outlet o q) b q :=
        fun b hb => .inr ⟨o, _, rfl, hx, hb⟩
      cases backing with
      | none => cases d <;> simp
      | some b =>
        cases d with
        | null => simp
        | other name => simp
        | stdout => exact hat b q (haim b rfl)
        | stderr => exact hat b q (haim b rfl)
        | pipe => exact hat b q (haim b rfl)
  | read p limit =>
    rw [Call.operation, Operation.read]
    split
    · simp [answer?]
    · split <;> simp [answer?]
  | readLine | nextLine => simp [Call.operation, answer?]
  | idle | writeAll | close | lines | forward => cases hc

/-- A task that is put off with one request has left the pipe as it was. -/
theorem after_of_wait {v : Service} {c : Call} (hc : c.isOneRequest = true)
    (hpur : s.Pursues c (.inPipe v.gate v.place v.request)) {again : Pipe.Request}
    (hrep : (v.before.serve v.request).reply = .wait again) : v.after = v.before := by
  obtain ⟨-, ⟨-, he⟩ | ⟨got, hr, -⟩⟩ := Pipe.wait_cases hrep
  · exact he
  · have hsink : ∀ q : Sink.Request, Pipe.Request.drain got ≠ .ofSink q := by
      intro q
      cases q <;> simp [Pipe.Request.ofSink]
    rw [hr] at hpur
    cases hg : v.gate with
    | some g =>
      rw [hg] at hpur
      obtain ⟨q, hq, -⟩ := hpur
      exact absurd hq (hsink q)
    | none =>
      rw [hg] at hpur
      rcases hpur.2 with ⟨q, hq, -⟩ | ⟨r₀, hop, rfl | ⟨got₀, got₁, rfl, -⟩⟩
      · exact absurd hq (hsink q)
      · exact absurd hop (Call.operation_ne_drain hc _ _)
      · exact absurd hop (Call.operation_ne_drain hc _ _)

/-- In its turn a task with one request is cancelled, or it is put off and changes no pipe, or it ends, but
not as cancelled. -/
theorem Fate.of_isOneRequest (h : Fate s t task task') (hc : task.call.isOneRequest = true) :
    task'.call = task.call ∧
      ((task.cancelling = true ∧ s.service? = none ∧ task'.stage = .ended (.error .cancelled)) ∨
        (task'.stage.place? ≠ none ∧
          ∀ v, s.service? = some v → v.answer? = none ∧ v.after = v.before) ∨
        ∃ o, task'.stage = .ended o ∧
          ((∀ n q, ¬ s.Aims task.call (.stream n) q) → o ≠ .error .cancelled)) := by
  cases h with
  | cancelled entry hcan hv => exact ⟨rfl, .inl ⟨hcan, hv, rfl⟩⟩
  | queued entry hv =>
    refine ⟨rfl, .inr (.inl ⟨by simp [Stage.place?], fun v hv' => ?_⟩)⟩
    rw [hv] at hv'
    cases hv'
  | @waits entry v again hv ht hpur hrep =>
    refine ⟨rfl, .inr (.inl ⟨by simp [Stage.place?], fun v' hv' => ?_⟩)⟩
    rw [hv] at hv'
    cases hv'
    exact ⟨by rw [Service.answer?, hrep], after_of_wait hc hpur hrep⟩
  | answered entry d outcome hv hst hop hout hlive hans =>
    obtain ⟨o, he, ho⟩ := Task.after_of_isOneRequest
      (show ({ task with entry } : Task).call.isOneRequest = true from hc) d outcome
    rw [he]
    refine ⟨rfl, .inr (.inr ⟨o, rfl, fun hstream hcan => ?_⟩)⟩
    rw [ho hcan] at hans
    exact answer?_ne_cancelled hc hstream hans
  | @served entry d v outcome hv ht hpur hans =>
    obtain ⟨o, he, ho⟩ := Task.after_of_isOneRequest
      (show ({ task with entry } : Task).call.isOneRequest = true from hc) d outcome
    rw [he]
    refine ⟨rfl, .inr (.inr ⟨o, rfl, fun _ hcan => ?_⟩)⟩
    rw [ho hcan] at hans
    exact v.answer?_ne_cancelled hans

/-- A task whose call is one request had that call before its turn. -/
theorem Fate.call_of_isOneRequest (h : Fate s t task task') (hc : task'.call.isOneRequest = true) :
    task'.call = task.call := by
  have hafter : ∀ (entry d : Destination) (outcome : Outcome),
      (Task.after { task with entry } d outcome).call.isOneRequest = true →
        (Task.after { task with entry } d outcome).call = task.call := by
    intro entry d outcome hc
    rw [Task.after] at hc ⊢
    cases hr : task.call.resume d outcome with
    | done o => rfl
    | more c' =>
      rw [hr] at hc
      rw [show Call.isOneRequest _ = false from Call.isOneRequest_of_more hr] at hc
      cases hc
  cases h with
  | cancelled => rfl
  | queued => rfl
  | waits => rfl
  | answered => exact hafter _ _ _ hc
  | served => exact hafter _ _ _ hc

/-! ### Runs -/

/-- The turns of a task in a run change no pipe, and nothing is noticed of them. -/
def Untouched (past : List Session) (t : Nat) : Prop :=
  ∀ u ∈ past, (∃ rest, u.ready = .task t :: rest) → u.turn.pipe? = u.pipe? ∧
    u.turn.notices = u.notices ∧ ∀ v, u.service? = some v → v.answer? = none ∧ v.after = v.before

/-- The turn of a task with one request changes nothing if the task has not ended then, or has ended as
cancelled. -/
theorem untouched_turn (hs : Sound s none none) {rest : List Job} (hr : s.ready = .task t :: rest)
    (hk : s.tasks[t]? = some task) (hc : task.call.isOneRequest = true)
    (hstream : ∀ n q, ¬ s.Aims task.call (.stream n) q) (hk' : s.turn.tasks[t]? = some task')
    (hend : ∀ o, task'.stage = .ended o → o = .error .cancelled) :
    s.turn.pipe? = s.pipe? ∧ s.turn.notices = s.notices ∧
      ∀ v, s.service? = some v → v.answer? = none ∧ v.after = v.before := by
  have hcourse := turn_course hs hr hk
  obtain ⟨task'', hk'', hf⟩ := hcourse.fate
  rw [hk'] at hk''
  cases hk''
  rw [hcourse.pipe]
  obtain ⟨-, ⟨hcan, hv, -⟩ | ⟨hpl, hwait⟩ | ⟨o, ho, hne⟩⟩ := hf.of_isOneRequest hc
  · refine ⟨pipesAfter_of_none hv, hcourse.notices (.inr hcan), fun v hv' => ?_⟩
    rw [hv] at hv'
    cases hv'
  · exact ⟨pipesAfter_of_idle fun v hv => (hwait v hv).2,
      hcourse.notices (.inl (by rwa [place?_of_task hk'])), hwait⟩
  · exact absurd (hend o ho) (hne hstream)

/-- As long as a task with one request has not ended, and if it ends as cancelled, its turns change
nothing. -/
theorem Run.untouched (h : Run s₀ past s) (hs : Sound s₀ none none) (hk : s.tasks[t]? = some task)
    (hc : task.call.isOneRequest = true) (hstream : ∀ n q, ¬ s.Aims task.call (.stream n) q)
    (hend : ∀ o, task.stage = .ended o → o = .error .cancelled) : Untouched past t := by
  induction h generalizing task with
  | refl => simp [Untouched]
  | @turn past s h ih =>
    have hsound := hs.run h
    have haims : ∀ {c : Call}, (∀ n q, ¬ s.turn.Aims c (.stream n) q) →
        ∀ n q, ¬ s.Aims c (.stream n) q :=
      fun hst n q haim => hst n q ((extends_turn hsound).aims haim)
    intro u hu hr
    by_cases hturn : ∃ rest, s.ready = .task t :: rest
    · obtain ⟨rest, hr'⟩ := hturn
      obtain ⟨task₀, hk₀, hended⟩ := exists_task hsound hr'
      obtain ⟨task', hk', hf⟩ := (turn_course hsound hr' hk₀).fate
      rw [hk] at hk'
      cases hk'
      have hcall := hf.call_of_isOneRequest hc
      rw [hcall] at hc hstream
      rcases List.mem_append.1 hu with hu | hu
      · exact ih hk₀ hc (haims hstream) (fun o ho => absurd ho (hended o)) u hu hr
      · rw [List.mem_singleton.1 hu]
        exact untouched_turn hsound hr' hk₀ hc (haims hstream) hk hend
    · have hsame := tasks_turn_of_ne hsound fun rest hr' => hturn ⟨rest, hr'⟩
      rcases List.mem_append.1 hu with hu | hu
      · exact ih (hsame ▸ hk) hc (haims hstream) hend u hu hr
      · rw [List.mem_singleton.1 hu] at hr
        exact absurd hr hturn
  | @move past s s' h hm ih =>
    have hsound := hs.run h
    rcases hm.task hsound hk with ⟨task₀, hk₀, hcall, hst, -⟩ | ⟨hnone, -⟩
    · rw [hcall] at hc hstream
      rw [hst] at hend
      exact ih hk₀ hc (fun n q haim => hstream n q ((hm.extends hsound).aims haim)) hend
    · -- a new task has had no turn
      intro u hu hr
      obtain ⟨rest, hr⟩ := hr
      obtain ⟨us, vs, -, hus, hvs⟩ := h.through (List.mem_append_left _ hu)
      obtain ⟨task₀, hk₀, -⟩ := exists_task (hs.run hus) hr
      obtain ⟨hlt, -⟩ := List.getElem?_eq_some_iff.1 hk₀
      rw [List.getElem?_eq_none_iff] at hnone
      have hle := hvs.length_le (hs.run hus)
      omega

/-! ### Sessions that differ in one task -/

/-- Two sessions are the same but for one task, and for how the others are marked and queued to run. -/
structure SameBut (t : Nat) (s s' : Session) : Prop where
  tasks : ∀ u, u ≠ t → s'.tasks[u]? = s.tasks[u]?
  line : ∀ a, (s'.line a).filter (· != t) = (s.line a).filter (· != t)
  pipe : s'.pipe? = s.pipe?
  gatePipe : s'.gatePipe? = s.gatePipe?
  outlets : s'.outlets = s.outlets
  notices : s'.notices = s.notices

namespace SameBut

theorem trans (h : SameBut t s s₁) (h' : SameBut t s₁ s₂) : SameBut t s s₂ :=
  ⟨fun u hu => (h'.tasks u hu).trans (h.tasks u hu), fun a => (h'.line a).trans (h.line a),
    h'.pipe.trans h.pipe, h'.gatePipe.trans h.gatePipe, h'.outlets.trans h.outlets,
    h'.notices.trans h.notices⟩

theorem stage (h : SameBut t s s') (hu : u ≠ t) : s'.stage? u = s.stage? u := by
  rw [stage?, h.tasks u hu, stage?]

theorem spawn (s : Session) (c : Call) : SameBut s.tasks.length s (s.spawn c).1 :=
  ⟨fun _ hu => task_spawn_of_ne s c hu, fun _ => rfl, rfl, rfl, rfl, rfl⟩

theorem cancel (h : Sound s none none) (t : Nat) : SameBut t s (s.cancel t).1 := by
  have hline := (Move.cancel s t).line h
  obtain ⟨hp, hg, ho, hn, htasks⟩ := fields_cancel h t
  refine ⟨fun u hu => ?_, fun a => by rw [hline], hp, hg, ho, hn⟩
  rcases htasks with ht | ht
  · rw [ht]
  · rw [ht, ask, List.getElem?_modify_ne _ _ (Ne.symm hu)]

/-- A turn of the task that changes no pipe, and of which nothing is noticed. -/
theorem course (h : Course s t task s') (hp : s'.pipe? = s.pipe?) (hn : s'.notices = s.notices) :
    SameBut t s s' := by
  refine ⟨fun u hu => h.others hu, fun a => ?_, hp, h.gatePipe, h.outlets, hn⟩
  rw [h.line a, List.filter_append, List.filter_filter]
  split <;> simp

end SameBut

/-- A task that waits nowhere is in no line. -/
theorem not_mem_line (h : Sound s none none) (hpl : s.place? t = none) (a : Place) :
    t ∉ s.line a := by
  intro hmem
  obtain ⟨w, hw, rfl⟩ := List.mem_map.1 hmem
  rw [(h.placed.place_of_mem a w hw).2] at hpl
  cases hpl

/-- In a settled session the lines say all about the waiting lists. -/
theorem waiters_of_settled (h : Sound s none none) (hr : s.ready = []) (a : Place) :
    s.waiters a = (s.line a).map fun t => ⟨t, .parked⟩ := by
  rw [line, List.map_map]
  conv_lhs => rw [← List.map_id (s.waiters a)]
  refine List.map_congr_left fun w hw => ?_
  obtain ⟨t, m⟩ := w
  cases parked_of_settled h hr hw
  rfl

/-- The channels are what the pipes and the waiting lists at them are. -/
theorem channels_congr (hp : s'.pipe? = s.pipe?)
    (hw : ∀ p, s'.waiters (.pipe p) = s.waiters (.pipe p)) : s'.channels = s.channels := by
  refine List.ext_getElem? fun p => ?_
  have hp := congrFun hp p
  have hw := hw p
  rw [pipe?, pipe?] at hp
  rw [waiters, waiters] at hw
  cases hc' : s'.channels[p]? with
  | none =>
    rw [hc', Option.map_none] at hp
    exact (Option.map_eq_none_iff.1 hp.symm).symm
  | some c' =>
    rw [hc', Option.map_some] at hp
    obtain ⟨c, hc, he⟩ := Option.map_eq_some_iff.1 hp.symm
    rw [hc', hc] at hw
    obtain ⟨b, ws⟩ := c
    obtain ⟨b', ws'⟩ := c'
    cases he
    cases hw
    exact hc.symm

/-- The gates are what their pipes, their holders and the waiting lists at them are. -/
theorem gates_congr (hp : s'.gatePipe? = s.gatePipe?) (hh : s'.holder? = s.holder?)
    (hw : ∀ g, s'.waiters (.gate g) = s.waiters (.gate g)) : s'.gates = s.gates := by
  refine List.ext_getElem? fun g => ?_
  have hp := congrFun hp g
  have hh := congrFun hh g
  have hw := hw g
  rw [gatePipe?, gatePipe?] at hp
  rw [holder?, holder?] at hh
  rw [waiters, waiters] at hw
  cases hg' : s'.gates[g]? with
  | none =>
    rw [hg', Option.map_none] at hp
    exact (Option.map_eq_none_iff.1 hp.symm).symm
  | some gate' =>
    rw [hg', Option.map_some] at hp
    obtain ⟨gate, hg, he⟩ := Option.map_eq_some_iff.1 hp.symm
    rw [hg', hg] at hw hh
    obtain ⟨p, h, q⟩ := gate
    obtain ⟨p', h', q'⟩ := gate'
    cases he
    cases hw
    cases hh
    exact hg.symm

/-- If a session settles with a task that waits nowhere, it has the pipes, gates and waiting lists that it
had when it was settled without the task. -/
theorem SameBut.restored (h : SameBut t s s') (hs : Sound s none none) (hr : s.ready = [])
    (hs' : Sound s' none none) (hr' : s'.ready = []) (hst : s.stage? t = none) {o : Outcome}
    (hst' : s'.stage? t = some (.ended o)) : s'.channels = s.channels ∧ s'.gates = s.gates := by
  have hpl : s.place? t = none := by rw [place?, hst]; rfl
  have hline : ∀ a, s'.line a = s.line a := by
    intro a
    have hkeep : ∀ {x : Session}, t ∉ x.line a → (x.line a).filter (· != t) = x.line a := by
      intro x hx
      rw [List.filter_eq_self]
      intro u hu
      have hne : u ≠ t := by
        rintro rfl
        exact hx hu
      simpa using hne
    rw [← hkeep (not_mem_line hs' (place?_of_stage hst') a), h.line, hkeep (not_mem_line hs hpl a)]
  have hw : ∀ a, s'.waiters a = s.waiters a := fun a => by
    rw [waiters_of_settled hs' hr', hline, waiters_of_settled hs hr]
  have hh : s'.holder? = s.holder? := by
    funext g
    refine Option.ext fun u => ?_
    rw [holder_iff_inside hs', holder_iff_inside hs, Inside, Inside]
    by_cases hu : u = t
    · subst hu
      simp [hst, hst']
    · rw [h.stage hu]
  exact ⟨channels_congr h.pipe fun p => hw (.pipe p),
    gates_congr h.gatePipe hh fun g => hw (.gate g)⟩

/-! ### Settling -/

/-- A session that has settled after one turn. -/
theorem settle_eq_turn (hr : s.ready ≠ []) (ht : s.turn.ready = []) : s.settle = s.turn := by
  have hpos := List.length_pos_iff.2 hr
  have hle : 1 ≤ s.budget := by
    rw [budget]
    omega
  exact run_eq_of_ready_nil (n := 1) ht hle

/-- A task that has ended stays so while the session settles. -/
theorem ended_run (h : Sound s none none) {o : Outcome} (hst : s.stage? t = some (.ended o))
    (n : Nat) : (s.run n).stage? t = some (.ended o) := by
  induction n generalizing s with
  | zero => exact hst
  | succ n ih =>
    rw [run]
    split
    · exact hst
    · exact ih h.turn (stage?_turn_of_ended h hst)

/-- One request is made in a settled session, and stays pending: it is put off in its first turn, and that
is all. -/
theorem settle_spawn (h : Sound s none none) (hr : s.ready = []) {c : Call} (hf : s.Fits c)
    (hc : c.isOneRequest = true) (hk : (s.spawn c).1.settle.tasks[s.tasks.length]? = some task)
    (hu : task.isUnfinished = true) :
    (s.spawn c).1.settle.ready = [] ∧ (s.spawn c).1.settle.place? s.tasks.length ≠ none ∧
      (s.spawn c).1.settle.endings = s.endings ∧
        SameBut s.tasks.length s (s.spawn c).1.settle ∧ Sound (s.spawn c).1.settle none none := by
  have hs := h.spawn hf
  have hr₀ : (s.spawn c).1.ready = .task s.tasks.length :: [] := by rw [ready_spawn, hr, List.nil_append]
  have hk₀ : (s.spawn c).1.tasks[s.tasks.length]? = some (.ofCall c) := by
    rw [tasks_spawn, List.getElem?_concat_length]
  have hcourse := turn_course hs hr₀ hk₀
  obtain ⟨task', hk', hfate⟩ := hcourse.fate
  obtain ⟨-, ⟨hcan, -⟩ | ⟨hpl, hwait⟩ | ⟨o, ho, -⟩⟩ := hfate.of_isOneRequest
    (show (Task.ofCall c).call.isOneRequest = true from hc)
  · cases hcan
  · have hpl' : (s.spawn c).1.turn.place? s.tasks.length ≠ none := by rwa [place?_of_task hk']
    have hpipe : (s.spawn c).1.turn.pipe? = (s.spawn c).1.pipe? := by
      rw [hcourse.pipe]
      exact pipesAfter_of_idle fun v hv => (hwait v hv).2
    have hready := hcourse.ready_of_put_off hr₀ hpl' hpipe
    rw [settle_eq_turn (by simp) hready]
    refine ⟨hready, hpl', ?_, (SameBut.spawn s c).trans
      (.course hcourse hpipe (hcourse.notices (.inl hpl'))), hs.turn⟩
    rcases hcourse.recorded with ⟨⟨o, ho⟩, -⟩ | ⟨-, he⟩
    · exact absurd (place?_of_stage ho) hpl'
    · exact he
  · -- a task that has ended would still have
    exfalso
    have hst : (s.spawn c).1.turn.stage? s.tasks.length = some (.ended o) := by
      rw [stage?_of_task hk', ho]
    have hend := ended_run hs.turn hst ((s.spawn c).1.potential *
      ((s.spawn c).1.unfinished.length + 3))
    have hsettle : (s.spawn c).1.settle = (s.spawn c).1.turn.run ((s.spawn c).1.potential *
        ((s.spawn c).1.unfinished.length + 3)) := by
      rw [settle, budget, hr₀]
      simp only [List.length_singleton, run, hr₀, List.isEmpty_cons, Bool.false_eq_true, if_false]
    rw [← hsettle, stage?_of_task hk, Option.some.injEq] at hend
    exact Task.isUnfinished_iff.1 hu o hend

/-- Whoever queues for a gate in a settled session queues behind a task that waits in the pipe. -/
theorem exists_inside_of_settled (h : Sound s none none) (hr : s.ready = [])
    (hu : u ∈ s.line (.gate g)) : ∃ v, s.Inside g v := by
  obtain ⟨w, hw, rfl⟩ := List.mem_map.1 hu
  obtain ⟨st, hst, hp⟩ := Option.bind_eq_some_iff.1 (h.placed.place_of_mem _ w hw).2
  obtain ⟨task, hk, rfl⟩ := Option.map_eq_some_iff.1 hst
  cases hstage : task.stage with
  | atGate g' r =>
    rw [hstage] at hp
    cases hp
    obtain ⟨task', q, v, p, -, -, -, -, -, hh, -⟩ := awaitsGate_of_settled h hr hk hstage
    exact ⟨v, (holder_iff_inside h).1 hh⟩
  | fresh => rw [hstage] at hp; cases hp
  | ended o => rw [hstage] at hp; cases hp
  | inPipe gate p r => rw [hstage] at hp; cases hp

/-- After a task that joined a settled session is cancelled, nobody is woken at a gate. -/
theorem not_woken_of_cancelled (h₀ : Sound s₀ none none) (hr₀ : s₀.ready = [])
    (hst₀ : s₀.stage? t = none) (h : Sound s none none) (hb : SameBut t s₀ s)
    (hut : u ≠ t) (hu : u ∈ s.line (.gate g)) : Job.task u ∉ s.ready := by
  intro hready
  have hu₀ : u ∈ s₀.line (.gate g) := by
    have hmem : u ∈ (s.line (.gate g)).filter (· != t) := List.mem_filter.2 ⟨hu, by simpa using hut⟩
    rw [hb.line] at hmem
    exact (List.mem_filter.1 hmem).1
  -- the gate is held, by a task that is still inside
  obtain ⟨v, hin₀⟩ := exists_inside_of_settled h₀ hr₀ hu₀
  have hin : s.Inside g v := by
    have hvt : v ≠ t := by
      rintro rfl
      obtain ⟨p, r, hst⟩ := hin₀
      rw [hst₀] at hst
      cases hst
    rwa [Inside, hb.stage hvt]
  obtain ⟨w, hw, rfl⟩ := List.mem_map.1 hu
  cases hm : w.mark with
  | parked =>
    have hturn := h.placed.turnsOf_of_mem _ w hw
    rw [hm, if_pos rfl, turnsOf, List.count_eq_zero] at hturn
    exact hturn hready
  | woken =>
    have hfree := ((h.ordered g).eq_head hw hm).1
    rw [(holder_iff_inside h).2 hin] at hfree
    cases hfree
  | cancelled =>
    -- whoever had settled was not to end
    have hcan := h.placed.isCancelling_of_mem _ w hw (by simp [hm])
    obtain ⟨w₀, hw₀, ht₀⟩ := List.mem_map.1 hu₀
    have hlive := h₀.placed.isCancelling_of_mem _ w₀ hw₀ (by simp [parked_of_settled h₀ hr₀ hw₀])
    rw [parked_of_settled h₀ hr₀ hw₀, ht₀, isCancelling, ← hb.tasks _ hut, ← isCancelling, hcan,
      hm] at hlive
    cases hlive

/-- A task that joined a settled session, and waits, is cancelled: it ends in its next turn, and nobody is
woken. -/
theorem settle_cancel (h₀ : Sound s₀ none none) (hr₀ : s₀.ready = []) (hst₀ : s₀.stage? t = none)
    (h : Sound s none none) (hr : s.ready = []) (hb : SameBut t s₀ s) (hpl : s.place? t ≠ none) :
    (s.cancel t).1.settle.ready = [] ∧
      (s.cancel t).1.settle.stage? t = some (.ended (.error .cancelled)) ∧
        (s.cancel t).1.settle.endings = s.endings ++ [t] ∧
          SameBut t s (s.cancel t).1.settle ∧ Sound (s.cancel t).1.settle none none := by
  obtain ⟨a, ha⟩ := Option.ne_none_iff_exists'.1 hpl
  obtain ⟨w, hw, rfl⟩ := List.mem_map.1 (h.placed.mem_of_place t a (by simp) ha)
  have hpark : (⟨w.task, .parked⟩ : Waiter) ∈ s.waiters a := by
    rw [← parked_of_settled h hr hw]
    exact hw
  have hc := cancel_of_parked h hpark
  have hx := h.move (Move.cancel s w.task)
  have hrx : (s.cancel w.task).1.ready = .task w.task :: [] := by
    rw [hc, evict, enqueue, (fields_alter ..).2.2]
    exact congrArg (· ++ _) hr
  have hendings : (s.cancel w.task).1.endings = s.endings := by
    rw [hc]
    cases a <;> rfl
  obtain ⟨task, hk, -⟩ := exists_task hx hrx
  have hcan : task.cancelling = true := by
    obtain ⟨task₀, hk₀⟩ : ∃ task₀, s.tasks[w.task]? = some task₀ := by
      obtain ⟨st, hst, -⟩ := Option.bind_eq_some_iff.1 ha
      obtain ⟨task₀, hk₀, -⟩ := Option.map_eq_some_iff.1 hst
      exact ⟨task₀, hk₀⟩
    rw [hc, evict, enqueue, (fields_alter ..).1, ask, List.getElem?_modify_eq, hk₀] at hk
    cases hk
    rfl
  have hcourse := turn_course hx hrx hk
  have hst := hcourse.stage_of_cancelling hcan
  have hsame : SameBut w.task s (s.cancel w.task).1.turn := (SameBut.cancel h w.task).trans
    (.course hcourse (hcourse.pipe_of_cancelling hrx hk hcan) (hcourse.notices (.inr hcan)))
  -- whoever is woken queues for a gate that another task holds
  have hready : (s.cancel w.task).1.turn.ready = [] := by
    obtain ⟨ts, he, hts⟩ := hcourse.ready_of_cancelling hrx hcan
    rw [he, List.nil_append, List.map_eq_nil_iff, List.eq_nil_iff_forall_not_mem]
    intro u hu
    have hmem : Job.task u ∈ (s.cancel w.task).1.turn.ready := by
      rw [he]
      exact List.mem_append_right _ (List.mem_map_of_mem hu)
    obtain ⟨task', hk', hended⟩ := exists_task_of_mem hx.turn hmem
    have hut : u ≠ w.task := by
      rintro rfl
      rw [stage?_of_task hk', Option.some.injEq] at hst
      exact hended _ hst
    obtain ⟨g, hug⟩ := hts u hu
    have hline : u ∈ (s.cancel w.task).1.turn.line (.gate g) := by
      rw [hcourse.line]
      exact List.mem_append_left _ (List.mem_filter.2 ⟨hug, by simpa using hut⟩)
    exact not_woken_of_cancelled h₀ hr₀ hst₀ hx.turn (hb.trans hsame) hut hline hmem
  rw [settle_eq_turn (by simp [hrx]) hready]
  refine ⟨hready, hst, ?_, hsame, hx.turn⟩
  rcases hcourse.recorded with ⟨-, he⟩ | ⟨hne, -⟩
  · rw [he, hendings]
  · exact absurd hst (hne _)

/-! ### The whole statement -/

/-- Whatever else was done on a run: a call that is one request to a pipe and has ended as cancelled has
added no byte and removed none, none of its turns has changed a pipe or was noticed, and its task is in
no waiting list and holds no gate.  And if such a call is made in a settled session and stays pending,
and is cancelled, then the session settles again with all pipes, gates, waiting lists and outlets as
they were, and no other task has changed. -/
theorem cancelled_without_trace {out err : Stream.Traits} (h : Run (start out err) past s) :
    (∀ (t : Nat) task, s.tasks[t]? = some task → task.call.isOneRequest = true →
        (∀ b q, s.Aims task.call b q → ∃ p, s.LeadsTo b p) →
        task.stage = .ended (.error .cancelled) →
          (∀ v ∈ servicesOf t past, v.accepted = [] ∧ v.removed = [] ∧ v.after = v.before) ∧
          (∀ u ∈ past, (∃ rest, u.ready = .task t :: rest) →
            u.turn.pipe? = u.pipe? ∧ u.turn.notices = u.notices) ∧
          (∀ a, t ∉ s.line a) ∧ ∀ g, s.holder? g ≠ some t) ∧
      (∀ c s₁ s₂ task, s.ready = [] → s.Fits c → c.isOneRequest = true →
        s₁ = (s.spawn c).1.settle → s₁.tasks[s.tasks.length]? = some task →
        task.isUnfinished = true → s₂ = (s₁.cancel s.tasks.length).1.settle →
          s₂.ready = [] ∧ s₂.channels = s.channels ∧ s₂.gates = s.gates ∧ s₂.outlets = s.outlets ∧
          s₂.notices = s.notices ∧ s₂.endings = s.endings ++ [s.tasks.length] ∧
          s₂.stage? s.tasks.length = some (.ended (.error .cancelled)) ∧
          ∀ u, u ≠ s.tasks.length → s₂.tasks[u]? = s.tasks[u]?) := by
  have hs := (sound_start out err).run h
  refine ⟨?_, ?_⟩
  · intro t task hk hc hpipe hend
    have hstream : ∀ n q, ¬ s.Aims task.call (.stream n) q := by
      intro n q haim
      obtain ⟨p, hp | ⟨g, hg, -⟩⟩ := hpipe _ q haim
      · cases hp
      · cases hg
    have hun := h.untouched (sound_start out err) hk hc hstream fun o ho => by
      rw [hend] at ho
      cases ho
      rfl
    have hst : s.stage? t = some (.ended (.error .cancelled)) := by rw [stage?_of_task hk, hend]
    refine ⟨fun v hv => ?_, fun u hu hr => ?_, not_mem_line hs (place?_of_stage hst), fun g hg => ?_⟩
    · obtain ⟨hv, htask⟩ := List.mem_filter.1 hv
      obtain ⟨u, hu, hv⟩ := List.mem_filterMap.1 hv
      obtain ⟨rest, task', hr, -⟩ := service?_eq_some hv
      have ht : v.task = t := by simpa using htask
      rw [ht] at hr
      obtain ⟨-, -, hidle⟩ := hun u hu ⟨rest, hr⟩
      obtain ⟨hans, hafter⟩ := hidle v hv
      obtain ⟨hacc, hrem⟩ := Service.idle_of_after hans hafter
      exact ⟨hacc, hrem, hafter⟩
    · obtain ⟨hp, hn, -⟩ := hun u hu hr
      exact ⟨hp, hn⟩
    · obtain ⟨p, r, hin⟩ := (holder_iff_inside hs).1 hg
      rw [hst] at hin
      cases hin
  · rintro c s₁ s₂ task hr hf hc rfl hk hu rfl
    have hnone : s.stage? s.tasks.length = none := by
      rw [stage?, List.getElem?_eq_none (Nat.le_refl _)]
      rfl
    obtain ⟨hr₁, hpl, he₁, hb₁, hs₁⟩ := settle_spawn hs hr hf hc hk hu
    obtain ⟨hr₂, hst, he₂, hb₂, hs₂⟩ := settle_cancel hs hr hnone hs₁ hr₁ hb₁ hpl
    have hb := hb₁.trans hb₂
    obtain ⟨hchannels, hgates⟩ := hb.restored hs hr hs₂ hr₂ hnone hst
    exact ⟨hr₂, hchannels, hgates, hb.outlets, hb.notices, by rw [he₂, he₁], hst, hb.tasks⟩

/-- In the contended session the second task, which has the gate, is cancelled and has its turn. -/
def withdrawn : Session := (contended.cancel 1).1.turn

/-- The second task has added nothing and has left the gate.  And a fourth write, which queues for the
contended gate and is cancelled, leaves the gates and the pipes as they were. -/
theorem withdrawn_without_trace :
    (∃ past, Run (start .plain .plain) past withdrawn ∧
      withdrawn.stage? 1 = some (.ended (.error .cancelled)) ∧ (servicesOf 1 past).length = 1 ∧
      (∀ v ∈ servicesOf 1 past, v.accepted = [] ∧ v.after = v.before) ∧ withdrawn.holder? 0 ≠ some 1) ∧
    (((contended.spawn (.backing (.gate 0) (.write [4]))).1.settle.cancel 3).1.settle.gates =
        contended.gates ∧
      ((contended.spawn (.backing (.gate 0) (.write [4]))).1.settle.cancel 3).1.settle.channels =
        contended.channels) := by
  refine ⟨⟨_, (run_contended.move (.cancel contended 1)).turn, rfl, rfl, ?_⟩, ?_⟩
  · obtain ⟨hall, -⟩ := cancelled_without_trace (run_contended.move (.cancel contended 1)).turn
    have haim : ∀ b q, withdrawn.Aims (.backing (.gate 0) (.write [2])) b q →
        ∃ p, withdrawn.LeadsTo b p := by
      rintro b q (hop | ⟨o, x, hop, -⟩)
      · cases hop
        exact ⟨0, .inr ⟨0, rfl, rfl⟩⟩
      · cases hop
    obtain ⟨hserved, -, -, hgate⟩ := hall 1 _ rfl rfl haim rfl
    exact ⟨fun v hv => ⟨(hserved v hv).1, (hserved v hv).2.2⟩, hgate 0⟩
  · obtain ⟨-, hall⟩ := cancelled_without_trace run_contended
    obtain ⟨-, hchannels, hgates, -⟩ := hall (.backing (.gate 0) (.write [4])) _ _ _ rfl ⟨0, rfl⟩ rfl
      rfl rfl rfl rfl
    exact ⟨hgates, hchannels⟩

end Session

end Outflow
