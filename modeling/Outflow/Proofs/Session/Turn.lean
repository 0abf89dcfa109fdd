import Outflow.Proofs.Session.Parts

/-!
# What a turn does

* `Errand`, `Service`, `Session.service?`: the request that the next turn brings to a pipe, if it brings
  one;
* `Session.answer?`: the outcome of an operation for which no pipe is asked;
* `Session.Onset`, `Session.Poised`: the busy task right before the step that ends its turn;
* `Session.Course`: all that a task can do with its turn; `turn_course`: it does one of these;
* `Sound.turn`: a turn keeps a session sound.
-/

namespace Outflow

/-- What a task comes to a pipe for: its request, and the gate that it has then. -/
structure Errand where
  gate : Option Nat
  place : Nat
  request : Pipe.Request

/-- A pipe meets a request of a task. -/
structure Service extends Errand where
  task : Nat
  before : Pipe

namespace Session

variable {s s₁ : Session} {held : Option Nat} {t g p : Nat}

/-! ### Services -/

/-- What a request to a backing comes to a pipe for, if it is admitted at once. -/
def errandAt? (s : Session) : Backing → Sink.Request → Option Errand
  | .stream _, _ => none
  | .pipe p, q => some ⟨none, p, .ofSink q⟩
  | .gate g, q => (s.gates[g]?).bind fun gate =>
    if gate.isOpen then some ⟨some g, gate.pipe, .ofSink q⟩ else none

/-- What an operation comes to a pipe for, if it does so at once. -/
def opening? (s : Session) : Operation → Option Errand
  | .answered _ => none
  | .onPipe p r => some ⟨none, p, r⟩
  | .onBacking b q => s.errandAt? b q
  | .onOutlet o q => (s.outlets[o]?).bind fun x => match x.destination with
    | .null | .other _ => none
    | _ => x.backing.bind fun b => s.errandAt? b q

/-- What a task comes to a pipe for when it runs. -/
def errand? (s : Session) (task : Task) : Option Errand :=
  match task.stage with
  | .fresh => s.opening? task.call.operation
  | .atGate g r => (s.gatePipe? g).map fun p => ⟨some g, p, r⟩
  | .inPipe gate p r => some ⟨gate, p, r⟩
  | .ended _ => none

/-- The service of a task by the pipe that it comes to. -/
def serviceOf? (s : Session) (t : Nat) (e : Option Errand) : Option Service :=
  e.bind fun e => (s.pipe? e.place).map fun b => ⟨e, t, b⟩

/-- The service of the next turn, if it is one. -/
def service? (s : Session) : Option Service :=
  match s.ready with
  | .task t :: _ => (s.tasks[t]?).bind fun task =>
    if task.cancelling then none else s.serviceOf? t (s.errand? task)
  | _ => none

theorem service?_eq {rest : List Job} (hr : s.ready = .task t :: rest) {task : Task}
    (hk : s.tasks[t]? = some task) (hc : task.cancelling = false) :
    s.service? = s.serviceOf? t (s.errand? task) := by
  simp [service?, hr, hk, hc]

theorem serviceOf?_some {b : Pipe} (e : Errand) (hb : s.pipe? e.place = some b) :
    s.serviceOf? t (some e) = some ⟨e, t, b⟩ := by
  rw [serviceOf?, Option.bind_some, hb, Option.map_some]

/-- The outcome of a request to a backing that is no pipe and no gate. -/
def answerAt? (s : Session) : Backing → Sink.Request → Option Outcome
  | .stream n, q => some (s.stdio.perform n q).2
  | .gate _, _ => none
  | .pipe _, _ => none

/-- The outcome of an operation for which no pipe is asked. -/
def answer? (s : Session) : Operation → Option Outcome
  | .answered outcome => some outcome
  | .onPipe _ _ => none
  | .onBacking b q => s.answerAt? b q
  | .onOutlet o q => (s.outlets[o]?).bind fun x => match x.destination, x.backing with
    | .null, _ => some (.ok (Outlet.nullAnswer q))
    | .other name, _ => some (.error (.unhandled (Text.codesOf name)))
    | _, some b => s.answerAt? b q
    | d, none => some (.error (.unhandled (Text.codesOf d.name)))

/-! ### Completing and serving -/

@[simp] theorem tasks_release (s : Session) (gate : Option Nat) :
    (s.release gate).tasks = s.tasks := by
  cases gate with
  | none => rfl
  | some g =>
    unfold release wakeGate
    simp only
    split <;> rfl

theorem Sound.complete (h : Sound s (some t) none) {task : Task} (hk : s.tasks[t]? = some task)
    (outcome : Outcome) : Sound (s.complete t outcome) none none := by
  rw [complete_eq hk]
  have ha := h.announce task outcome
  have hk' : (s.announce task outcome).tasks[t]? = some task := by
    rw [(fields_announce s task outcome).2.2.2, hk]
  cases hr : task.call.resume (s.destinationOf task.call.outlet?) outcome with
  | done outcome' => exact ha.finish hk' outcome'
  | more call => exact ha.goOn hk' ((ha.employed.fits t task hk').resume hr)

/-- A task that is put off still pursues what it did. -/
theorem Pursues.again {c : Call} {r again : Pipe.Request} (h : s.Pursues c (.inPipe held p r))
    (ha : again = r ∨ ∃ got got', r = .drain got ∧ again = .drain got') :
    s.Pursues c (.inPipe held p again) := by
  rcases ha with rfl | ⟨got, got', rfl, rfl⟩
  · exact h
  · have hne : ∀ q : Sink.Request, Pipe.Request.drain got ≠ .ofSink q := by
      intro q
      cases q <;> simp [Pipe.Request.ofSink]
    cases held with
    | some g =>
      obtain ⟨q, hq, -⟩ := h
      exact absurd hq (hne q)
    | none =>
      obtain ⟨hp, ⟨q, hq, -⟩ | ⟨r₀, ho, hc⟩⟩ := h
      · exact absurd hq (hne q)
      · refine ⟨hp, .inr ⟨r₀, ho, .inr ?_⟩⟩
        rcases hc with rfl | ⟨got₀, -, rfl, -⟩
        · exact ⟨got, got', rfl, rfl⟩
        · exact ⟨got₀, got', rfl, rfl⟩

/-- The pipe in which a task waits is there. -/
theorem Pursues.has {c : Call} {r : Pipe.Request} (h : s.Pursues c (.inPipe held p r))
    (hh : Housed s) : s.Has (.pipe p) := by
  cases held with
  | none => exact h.1
  | some g =>
    obtain ⟨q, -, -, hg⟩ := h
    exact hh.gatePipe g p hg

theorem Sound.serve (h : Sound s (some t) held) {task : Task} (hk : s.tasks[t]? = some task)
    (hc : task.cancelling = false) {b : Pipe} (hb : s.pipe? p = some b) {r : Pipe.Request}
    (hpur : s.Pursues task.call (.inPipe held p r)) : Sound (s.serve t held p r) none none := by
  rw [serve_eq hb]
  have hf := h.refresh hb r
  cases hrep : (b.serve r).reply with
  | done outcome => exact hf.release.complete (by rw [tasks_release]; exact hk) outcome
  | wait again =>
    obtain ⟨hr, hcase⟩ := Pipe.wait_cases hrep
    have hb' : (s.refresh p (b.serve r)).pipe? p = some (b.serve r).pipe := by
      rw [pipe?_refresh hb, Function.update_self]
    refine hf.park hk hc hb' hr ((extends_refresh hb _).pursues (hpur.again ?_))
    rcases hcase with ⟨rfl, -⟩ | ⟨got, hd, ha⟩
    · exact .inl rfl
    · exact .inr ⟨got, _, hd, ha⟩

/-! ### The course of a turn -/

/-- What the first part of a turn of the task `t` does to those who wait, to the ready queue and to what is
recorded: the task leaves its place, and only if it is to end others may be woken, at a gate. -/
structure Onset (s : Session) (t : Nat) (task : Task) (s₁ : Session) : Prop where
  line : ∀ a, s₁.line a = (s.line a).filter (· != t)
  ready : ∃ ts : List Nat, s.ready ++ ts.map Job.task = .task t :: s₁.ready ∧
    (task.cancelling = false → ts = []) ∧ ∀ u ∈ ts, ∃ g, u ∈ s.line (.gate g)
  notices : s₁.notices = s.notices
  endings : s₁.endings = s.endings

/-- The session `s₁` is the session `s` in the turn of the task `t`, right before the step that ends the
turn: the task has left its place and has the gate `held`; nothing has been done to a pipe. -/
structure Poised (s : Session) (t : Nat) (task : Task) (held : Option Nat) (s₁ : Session) : Prop where
  sound : Sound s₁ (some t) held
  onset : Onset s t task s₁
  task : ∃ entry, s₁.tasks[t]? = some { task with entry }
  others : ∀ u, u ≠ t → s₁.tasks[u]? = s.tasks[u]?
  pipe : s₁.pipe? = s.pipe?
  gatePipe : s₁.gatePipe? = s.gatePipe?
  outlets : s₁.outlets = s.outlets

/-- What a task does with its turn, and the session that is left. -/
inductive Course (s : Session) (t : Nat) (task : Task) : Session → Prop
  | cancelled {s₁ : Session} (hp : Poised s t task none s₁) (hc : task.cancelling = true)
    (hv : s.service? = none) : Course s t task (s₁.finish t (.error .cancelled))
  | answered {s₁ : Session} (hp : Poised s t task none s₁) (hc : task.cancelling = false)
    (hv : s.service? = none) (hst : task.stage = .fresh) (outcome : Outcome)
    (hop : ∀ p r, task.call.operation ≠ .onPipe p r)
    (hout : ∀ b q, s.Aims task.call b q → (∃ n, b = .stream n) ∨ ∃ f, outcome = .error f)
    (hans : s.answer? task.call.operation = some outcome) : Course s t task (s₁.complete t outcome)
  | queued {s₁ : Session} {g : Nat} {gate : Gate} {q : Sink.Request} (hp : Poised s t task none s₁)
    (hc : task.cancelling = false) (hv : s.service? = none) (hst : task.stage = .fresh)
    (hg : s₁.gates[g]? = some gate) (hopen : gate.isOpen = false)
    (haim : s.Aims task.call (.gate g) q) : Course s t task (s₁.queue t g (.ofSink q))
  | served {s₁ : Session} {held : Option Nat} {p : Nat} {r : Pipe.Request} {b : Pipe}
    (hp : Poised s t task held s₁) (hc : task.cancelling = false)
    (hv : s.service? = some ⟨⟨held, p, r⟩, t, b⟩) (hb : s.pipe? p = some b)
    (hpur : s.Pursues task.call (.inPipe held p r)) : Course s t task (s₁.serve t held p r)

section

variable {task : Task} {rest : List Job}

theorem line_congr {s s' : Session} (hc : s'.channels = s.channels) (hg : s'.gates = s.gates) :
    s'.line = s.line := by
  funext a
  rw [line, waiters_congr hc hg, line]

theorem line_free {gate : Gate} (hg : s.gates[g]? = some gate) (a : Place) :
    (s.free g).line a = s.line a := by
  rw [line, waiters_free hg, line]
  by_cases ha : a = .gate g
  · subst ha
    rw [Function.update_self, waiters_gate hg, (Waiter.roused_wakeFirst gate.queue).map_task]
  · rw [Function.update_of_ne ha]

theorem line_take {gate : Gate} (hg : s.gates[g]? = some gate) (ht : t ∉ s.line (.gate g))
    (a : Place) : (s.take t g).line a = s.line a := by
  rw [line, waiters_gate hg] at ht
  rw [line, waiters_take hg, line]
  by_cases ha : a = .gate g
  · subst ha
    rw [Function.update_self, waiters_gate hg, Waiter.without_eq_self ht]
  · rw [Function.update_of_ne ha]

theorem line_depart (h : Sound s none none) (t : Nat) (rest : List Job) (a : Place) :
    (s.depart t rest).line a = (s.line a).filter (· != t) := by
  rw [line, waiters_depart, line]
  split
  · rw [Waiter.without, List.filter_map]
    rfl
  · rename_i ha
    refine (List.filter_eq_self.2 fun u hu => ?_).symm
    obtain ⟨w, hw, rfl⟩ := List.mem_map.1 hu
    have hne : w.task ≠ t := by
      rintro rfl
      exact ha (h.placed.place_of_mem a w hw).2
    simpa using hne

theorem onset_depart (h : Sound s none none) (hr : s.ready = .task t :: rest) (task : Task) :
    Onset s t task (s.depart t rest) := by
  obtain ⟨hn, he⟩ := records_depart s t rest
  refine ⟨line_depart h t rest, ⟨[], ?_, fun _ => rfl, by simp⟩, hn, he⟩
  rw [ready_depart, hr, List.map_nil, List.append_nil]

theorem Onset.not_mem (h : Onset s t task s₁) (a : Place) : t ∉ s₁.line a := by
  rw [h.line]
  simp

/-- What changes no waiting list, no queue and no record. -/
theorem Onset.congr {s₂ : Session} (h : Onset s t task s₁) (hl : ∀ a, s₂.line a = s₁.line a)
    (hr : s₂.ready = s₁.ready) (hn : s₂.notices = s₁.notices) (he : s₂.endings = s₁.endings) :
    Onset s t task s₂ :=
  ⟨fun a => (hl a).trans (h.line a), by rw [hr]; exact h.ready, hn.trans h.notices,
    he.trans h.endings⟩

theorem Onset.take (h : Onset s t task s₁) {gate : Gate} (hg : s₁.gates[g]? = some gate) :
    Onset s t task (s₁.take t g) :=
  h.congr (line_take hg (h.not_mem _)) rfl rfl rfl

theorem Onset.free (h : Onset s t task s₁) {gate : Gate} (hg : s₁.gates[g]? = some gate)
    (hc : task.cancelling = true) : Onset s t task (s₁.free g) := by
  obtain ⟨ts, hr, -, hts⟩ := h.ready
  refine ⟨fun a => (line_free hg a).trans (h.line a),
    ⟨ts ++ (Waiter.wakeFirst (s₁.waiters (.gate g))).2, ?_, by simp [hc], fun u hu => ?_⟩, h.notices,
    h.endings⟩
  · rw [List.map_append, ← List.append_assoc, hr]
    rfl
  · rcases List.mem_append.1 hu with hu | hu
    · exact hts u hu
    · have hmem : u ∈ s₁.line (.gate g) := by
        by_contra hout
        have hz := (Waiter.roused_wakeFirst (s₁.waiters (.gate g))).count_eq_zero hout
        rw [List.count_eq_zero] at hz
        exact hz hu
      rw [h.line] at hmem
      exact ⟨g, (List.mem_filter.1 hmem).1⟩

theorem Poised.extends (h : Poised s t task held s₁) : Extends s s₁ :=
  .of_eq h.gatePipe (fun p b hb => ⟨b, by rw [h.pipe, hb]⟩) h.outlets

theorem Poised.of_tasks (hk : s.tasks[t]? = some task) (hs : Sound s₁ (some t) held)
    (hon : Onset s t task s₁) (ht : s₁.tasks = s.tasks) (hp : s₁.pipe? = s.pipe?)
    (hg : s₁.gatePipe? = s.gatePipe?) (ho : s₁.outlets = s.outlets) : Poised s t task held s₁ :=
  ⟨hs, hon, ⟨task.entry, by rw [ht, hk]⟩, fun _ _ => by rw [ht], hp, hg, ho⟩

theorem Poised.setEntry (h : Poised s t task held s₁) (d : Destination) :
    Poised s t task held (s₁.setEntry t d) := by
  obtain ⟨entry, hk⟩ := h.task
  refine ⟨h.sound.setEntry d, h.onset.congr (fun _ => rfl) rfl rfl rfl, ⟨d, ?_⟩, fun u hu => ?_,
    h.pipe, h.gatePipe, h.outlets⟩
  · rw [Session.setEntry, List.getElem?_modify_eq, hk]
    rfl
  · rw [Session.setEntry, List.getElem?_modify_ne _ _ (Ne.symm hu), h.others u hu]

theorem Poised.take (h : Poised s t task none s₁) {gate : Gate} (hg : s₁.gates[g]? = some gate)
    (hfree : gate.holder = none) (hq : ∀ w ∈ gate.queue, w.mark ≠ .woken) :
    Poised s t task (some g) (s₁.take t g) :=
  ⟨h.sound.toConsistent.take hg hfree (fun g' _ => h.sound.ordered g') hq, h.onset.take hg, h.task,
    h.others, h.pipe, (gatePipe?_take ..).trans h.gatePipe, h.outlets⟩

theorem Poised.release (h : Poised s t task held s₁) (hc : task.cancelling = true) :
    Poised s t task none (s₁.release held) := by
  cases held with
  | none => exact h
  | some g =>
    have hh : s₁.holder? g = some t := (h.sound.guarded g t).2 (gateOf_self ..)
    obtain ⟨gate, hg, -⟩ := Option.bind_eq_some_iff.1 hh
    have hs := h.sound.release
    rw [release_eq hg] at hs ⊢
    exact ⟨hs, h.onset.free hg hc, h.task, h.others, h.pipe,
      (gatePipe?_free ..).trans h.gatePipe, h.outlets⟩

/-- Gates and queues that a task does not wait at are as orderly as before its turn. -/
theorem ordered_depart (h : Sound s none none) (hne : s.place? t ≠ some (.gate g)) :
    Waiter.Orderly ((s.depart t rest).holder? g).isSome ((s.depart t rest).waiters (.gate g)) := by
  rw [holder?_depart, waiters_depart, if_neg hne]
  exact h.ordered g

theorem ordered_depart_of_ne (h : Sound s none none) (hpl : s.place? t = some (.gate g)) {g' : Nat}
    (hne : g' ≠ g) :
    Waiter.Orderly ((s.depart t rest).holder? g').isSome ((s.depart t rest).waiters (.gate g')) := by
  refine ordered_depart h ?_
  rw [hpl]
  exact fun e => hne (by cases e; rfl)

/-- A task that queues for a gate leaves its queue. -/
theorem gate_depart {gate : Gate} (hg : s.gates[g]? = some gate) (hpl : s.place? t = some (.gate g)) :
    (s.depart t rest).gates[g]? = some { gate with queue := Waiter.without t gate.queue } := by
  simp only [depart, hpl, leave, alter, List.getElem?_modify_eq, hg]
  rfl

/-- A task that does not queue for a gate is poised when it has left its place. -/
theorem poised_depart (h : Sound s none none) (hr : s.ready = .task t :: rest)
    (hk : s.tasks[t]? = some task) (hst : ∀ g r, task.stage ≠ .atGate g r) :
    Poised s t task task.stage.gate? (s.depart t rest) := by
  have hs : s.stage? t = some task.stage := by rw [stage?, hk]; rfl
  have hd := h.toConsistent.depart hr
  rw [hs, Option.bind_some] at hd
  refine .of_tasks hk ⟨hd, fun g => ordered_depart h ?_⟩ (onset_depart h hr task) (tasks_depart ..)
    (pipe?_depart ..) (gatePipe?_depart ..) (outlets_depart ..)
  rw [place?, hs, Option.bind_some]
  cases hc : task.stage with
  | atGate g' r => exact absurd hc (hst g' r)
  | inPipe gate p r => simp [Stage.place?]
  | fresh => simp [Stage.place?]
  | ended o => simp [Stage.place?]

/-- A gate that is open is free, and nobody in its queue was woken. -/
theorem not_woken_of_isOpen {gate : Gate} (h : gate.isOpen = true) :
    gate.holder = none ∧ ∀ w ∈ gate.queue, w.mark ≠ .woken := by
  simp only [Gate.isOpen, Gate.isHeld, Bool.and_eq_true, Bool.not_eq_true', Option.isSome_eq_false_iff,
    Option.isNone_iff_eq_none, List.all_eq_true, beq_iff_eq] at h
  refine ⟨h.1, fun w hw hm => ?_⟩
  rw [h.2 w hw] at hm
  cases hm

theorem operation_of_aims {c : Call} {b : Backing} {q : Sink.Request} (h : s.Aims c b q) (p : Nat)
    (r : Pipe.Request) : c.operation ≠ .onPipe p r := by
  rcases h with h | ⟨o, x, h, -, -⟩ <;> simp [h]

theorem Aims.unique {c : Call} {b b' : Backing} {q q' : Sink.Request} (h : s.Aims c b q)
    (h' : s.Aims c b' q') : b' = b ∧ q' = q := by
  rcases h with h | ⟨o, x, h, hx, hb⟩
  · rcases h' with h' | ⟨o', x', h', -, -⟩
    · rw [h] at h'
      cases h'
      exact ⟨rfl, rfl⟩
    · rw [h] at h'
      cases h'
  · rcases h' with h' | ⟨o', x', h', hx', hb'⟩
    · rw [h] at h'
      cases h'
    · rw [h] at h'
      cases h'
      rw [hx] at hx'
      cases hx'
      rw [hb] at hb'
      cases hb'
      exact ⟨rfl, rfl⟩

theorem LeadsTo.unique {b : Backing} {p' : Nat} (h : s.LeadsTo b p) (h' : s.LeadsTo b p') :
    p = p' := by
  rcases h with rfl | ⟨g, rfl, hg⟩
  · rcases h' with h' | ⟨g', h', -⟩
    · cases h'
      rfl
    · cases h'
  · rcases h' with h' | ⟨g', h', hg'⟩
    · cases h'
    · cases h'
      exact Option.some.inj (hg.symm.trans hg')

/-- A task that asks for something at a read end comes to that pipe for it, with no gate. -/
theorem Pursues.of_onPipe {c : Call} {p' : Nat} {r r₀ : Pipe.Request}
    (h : s.Pursues c (.inPipe held p' r)) (hop : c.operation = .onPipe p r₀) :
    held = none ∧ p' = p ∧ Continues r₀ r := by
  cases held with
  | some g =>
    obtain ⟨q, -, haim, -⟩ := h
    exact absurd hop (operation_of_aims haim p r₀)
  | none =>
    rcases h.2 with ⟨q, -, haim⟩ | ⟨r₁, hop', hcont⟩
    · exact absurd hop (operation_of_aims haim p r₀)
    · rw [hop] at hop'
      cases hop'
      exact ⟨rfl, rfl, hcont⟩

/-- A task that asks a backing for something comes to the pipe behind it for that, with the gate that
the backing is. -/
theorem Pursues.of_aims {c : Call} {r : Pipe.Request} {b : Backing} {q : Sink.Request}
    (h : s.Pursues c (.inPipe held p r)) (haim : s.Aims c b q) :
    r = .ofSink q ∧ s.LeadsTo b p ∧ ∀ g, b = .gate g ↔ held = some g := by
  cases held with
  | some g =>
    obtain ⟨q', hr, haim', hg⟩ := h
    obtain ⟨rfl, rfl⟩ := haim.unique haim'
    exact ⟨hr, .inr ⟨g, rfl, hg⟩, by simp⟩
  | none =>
    rcases h.2 with ⟨q', hr, haim'⟩ | ⟨r₀, hop, -⟩
    · obtain ⟨rfl, rfl⟩ := haim.unique haim'
      exact ⟨hr, .inl rfl, by simp⟩
    · exact absurd hop (operation_of_aims haim _ _)

/-- A request to a backing. -/
theorem course_approach (hp : Poised s t task none s₁) (hc : task.cancelling = false)
    (hst : task.stage = .fresh) (hgates : s₁.gates = s.gates) (hstdio : s₁.stdio = s.stdio)
    (hhoused : Housed s) {b : Backing} {q : Sink.Request}
    (hv : s.service? = s.serviceOf? t (s.errandAt? b q))
    (hans : s.answer? task.call.operation = s.answerAt? b q) (haim : s.Aims task.call b q)
    (hhas : s.Has b) : Course s t task (s₁.approach t b q) := by
  cases b with
  | stream n =>
    have hs : Sound { s₁ with stdio := (s₁.stdio.perform n q).1 } (some t) none :=
      hp.sound.congr rfl rfl rfl rfl rfl
    have hon : Onset s t task { s₁ with stdio := (s₁.stdio.perform n q).1 } :=
      hp.onset.congr (fun _ => rfl) rfl rfl rfl
    rw [answerAt?, ← hstdio] at hans
    exact .answered ⟨hs, hon, hp.task, hp.others, hp.pipe, hp.gatePipe, hp.outlets⟩ hc hv hst _
      (operation_of_aims haim) (fun b q' h => .inl ⟨n, (haim.unique h).1⟩) hans
  | pipe p =>
    obtain ⟨b, hb⟩ := hhas
    rw [errandAt?, serviceOf?_some _ hb] at hv
    exact .served hp hc hv hb ⟨⟨b, hb⟩, .inl ⟨q, rfl, haim⟩⟩
  | gate g =>
    obtain ⟨p, hgp⟩ := hhas
    obtain ⟨gate, hg, rfl⟩ := Option.map_eq_some_iff.1 hgp
    obtain ⟨b, hb⟩ := hhoused.gatePipe g _ hgp
    have hg₁ : s₁.gates[g]? = some gate := by rw [hgates, hg]
    rw [errandAt?, hg, Option.bind_some] at hv
    -- the task is served if the gate admits it, and queues if not
    cases hopen : gate.isOpen with
    | true =>
      obtain ⟨hfree, hq⟩ := not_woken_of_isOpen hopen
      simp only [approach, hg₁, hopen, if_true]
      rw [enter_eq hg₁]
      rw [hopen, if_pos rfl, serviceOf?_some _ hb] at hv
      exact .served (hp.take hg₁ hfree hq) hc hv hb ⟨q, rfl, haim, hgp⟩
    | false =>
      have hq : s₁.approach t (.gate g) q = s₁.queue t g (.ofSink q) := by
        simp only [approach, hg₁, hopen, Bool.false_eq_true, if_false, queue, ← set_eq_modify hg₁]
      rw [hopen, if_neg (by simp)] at hv
      rw [hq]
      exact .queued hp hc hv hst hg₁ hopen haim

/-- The start of an operation. -/
theorem course_begin (hp : Poised s t task none s₁) (hc : task.cancelling = false)
    (hst : task.stage = .fresh) (hgates : s₁.gates = s.gates) (hstdio : s₁.stdio = s.stdio)
    (hhoused : Housed s) (hfits : s.Fits task.call)
    (hv : s.service? = s.serviceOf? t (s.opening? task.call.operation)) :
    Course s t task (s₁.begin t task.call.operation) := by
  cases ho : task.call.operation with
  | answered outcome =>
    rw [ho] at hv
    refine .answered hp hc hv hst outcome (by simp [ho]) (fun b q h => ?_) (by rw [ho]; rfl)
    rcases h with h | ⟨o, x, h, -, -⟩
    · rw [ho] at h
      cases h
    · rw [ho] at h
      cases h
  | onPipe p r =>
    rw [ho] at hv
    obtain ⟨b, hb⟩ : s.Has (.pipe p) := hfits.onPipe ho
    rw [opening?, serviceOf?_some _ hb] at hv
    exact .served hp hc hv hb ⟨⟨b, hb⟩, .inr ⟨r, ho, .inl rfl⟩⟩
  | onBacking b q =>
    rw [ho] at hv
    exact course_approach hp hc hst hgates hstdio hhoused hv (by rw [ho]; rfl) (.inl ho)
      (hfits.onBacking ho)
  | onOutlet o q =>
    rw [ho] at hv
    obtain ⟨x, hx⟩ := hfits.onOutlet ho
    have hp' := hp.setEntry x.destination
    have hx₁ : s₁.outlets[o]? = some x := by rw [hp.outlets, hx]
    -- the outlet has a backing only if it is for something
    have haims : ∀ b q', s.Aims task.call b q' → x.backing = some b ∧ x.destination ≠ .null := by
      rintro b q' (h | ⟨o', x', h, hx', hb⟩)
      · rw [ho] at h
        cases h
      · rw [ho] at h
        cases h
        rw [hx] at hx'
        cases hx'
        exact ⟨hb, (hhoused.backing x (List.mem_of_getElem? hx) b hb).2⟩
    have happroach : ∀ b, x.backing = some b → s.service? = s.serviceOf? t (s.errandAt? b q) →
        s.answer? task.call.operation = s.answerAt? b q →
        Course s t task ((s₁.setEntry t x.destination).approach t b q) :=
      fun b hb hv ha => course_approach hp' hc hst hgates hstdio hhoused hv ha
        (.inr ⟨o, x, ho, hx, hb⟩) (hhoused.backing x (List.mem_of_getElem? hx) b hb).1
    rw [opening?, hx, Option.bind_some] at hv
    have hans : s.answer? task.call.operation = s.answer? (.onOutlet o q) := by rw [ho]
    rw [answer?, hx, Option.bind_some] at hans
    simp only [begin, hx₁]
    obtain ⟨d, backing⟩ := x
    have hnull : d = .null → ∀ outcome, s.service? = none →
        s.answer? task.call.operation = some outcome →
        Course s t task ((s₁.setEntry t d).complete t outcome) := fun hd outcome hn ha =>
      .answered hp' hc hn hst outcome (by simp [ho]) (fun b q' h => absurd hd (haims b q' h).2) ha
    have herror : ∀ f, s.service? = none → s.answer? task.call.operation = some (.error f) →
        Course s t task ((s₁.setEntry t d).complete t (.error f)) := fun f hn ha =>
      .answered hp' hc hn hst _ (by simp [ho]) (fun _ _ _ => .inr ⟨f, rfl⟩) ha
    cases backing with
    | none =>
      cases d with
      | null => exact hnull rfl _ hv hans
      | _ => exact herror _ hv hans
    | some b =>
      cases d with
      | null => exact hnull rfl _ hv hans
      | other name => exact herror _ hv hans
      | stdout => exact happroach b rfl hv hans
      | stderr => exact happroach b rfl hv hans
      | pipe => exact happroach b rfl hv hans

/-- A task that queues and has its turn is a waiter that was woken, or that was cancelled. -/
theorem exists_waiter (h : Sound s none none) (hr : s.ready = .task t :: rest)
    (hk : s.tasks[t]? = some task) {r : Pipe.Request} (hst : task.stage = .atGate g r) :
    ∃ w ∈ s.waiters (.gate g), w.task = t ∧ (w.mark = .woken ∨ task.cancelling = true) := by
  have hpl : s.place? t = some (.gate g) := by
    rw [place?, stage?, hk, Option.map_some, Option.bind_some, hst]
    rfl
  obtain ⟨w, hw, rfl⟩ := List.mem_map.1 (h.placed.mem_of_place t _ (by simp) hpl)
  have hturn := h.placed.turnsOf_of_mem _ w hw
  rw [turnsOf, hr, List.count_cons_self] at hturn
  refine ⟨w, hw, rfl, ?_⟩
  cases hm : w.mark with
  | parked =>
    rw [hm, if_pos rfl] at hturn
    omega
  | woken => exact .inl rfl
  | cancelled =>
    have hcan := h.placed.isCancelling_of_mem _ w hw (by simp [hm])
    rw [isCancelling, hk, hm] at hcan
    exact .inr hcan

theorem take_depart (s : Session) (t : Nat) (rest : List Job) (hpl : s.place? t = some (.gate g)) :
    ({ s with ready := rest } : Session).take t g = (s.depart t rest).take t g := by
  simp only [depart, hpl, leave, alter, take, List.modify_modify_eq]
  congr 2
  funext gate
  simp [Waiter.without]

/-- A task that queued for a gate and was woken takes the gate. -/
theorem course_enter (h : Sound s none none) (hr : s.ready = .task t :: rest)
    (hk : s.tasks[t]? = some task) (hc : task.cancelling = false) {r : Pipe.Request}
    (hst : task.stage = .atGate g r) :
    Course s t task (({ s with ready := rest } : Session).enter t g r) := by
  have hs : s.stage? t = some (.atGate g r) := by rw [stage?, hk, Option.map_some, hst]
  have hpl : s.place? t = some (.gate g) := by rw [place?, hs]; rfl
  have hpur := h.employed.pursues t task hk (by simp)
  rw [hst] at hpur
  obtain ⟨q, rfl, haim, p, hgp⟩ := hpur
  obtain ⟨gate, hg, rfl⟩ := Option.map_eq_some_iff.1 hgp
  obtain ⟨b, hb⟩ := h.housed.gatePipe g _ hgp
  -- the woken waiter is the first in the queue of a free gate, and nobody else was woken
  obtain ⟨w, hw, rfl, hm⟩ := exists_waiter h hr hk hst
  have hm := hm.resolve_right (by simp [hc])
  have horder := h.ordered g
  have hfree := (horder.eq_head hw hm).1
  have hleft := horder.not_woken_without (t := w.task) (by rw [← hm]; exact hw)
  have hd := h.toConsistent.depart hr
  rw [hs] at hd
  have hfree' : gate.holder = none := by
    rw [holder?, hg, Option.bind_some, Option.isSome_eq_false_iff] at hfree
    exact Option.isNone_iff_eq_none.1 hfree
  rw [waiters_gate hg] at hleft
  have hsound := hd.take (gate_depart hg hpl) hfree' (fun g' hne => ordered_depart_of_ne h hpl hne)
    hleft
  have hv := service?_eq hr hk hc
  rw [errand?, hst] at hv
  simp only [hgp, Option.map_some] at hv
  rw [serviceOf?_some _ hb] at hv
  rw [enter_eq (s := { s with ready := rest }) hg, take_depart s _ rest hpl]
  refine .served (.of_tasks hk hsound ((onset_depart h hr task).take (gate_depart hg hpl))
    (tasks_depart ..) (pipe?_depart ..) ?_ (outlets_depart ..)) hc hv hb ⟨q, rfl, haim, hgp⟩
  rw [gatePipe?_take, gatePipe?_depart]

/-- A cancelled task leaves the queue of a gate, and wakes the next if the gate is free. -/
theorem poised_leave (h : Sound s none none) (hr : s.ready = .task t :: rest)
    (hk : s.tasks[t]? = some task) (hc : task.cancelling = true) {r : Pipe.Request}
    (hst : task.stage = .atGate g r) :
    Poised s t task none (if (s.depart t rest).gateHeld g then s.depart t rest
      else (s.depart t rest).wakeGate g) := by
  have hs : s.stage? t = some (.atGate g r) := by rw [stage?, hk, Option.map_some, hst]
  have hpl : s.place? t = some (.gate g) := by rw [place?, hs]; rfl
  have hpur := h.employed.pursues t task hk (by simp)
  rw [hst] at hpur
  obtain ⟨q, -, -, p, hgp⟩ := hpur
  obtain ⟨gate, hg, -⟩ := Option.map_eq_some_iff.1 hgp
  have hg₁ : (s.depart t rest).gates[g]? = _ := gate_depart hg hpl
  have hd := h.toConsistent.depart hr
  rw [hs] at hd
  have horder := h.ordered g
  rw [waiters_gate hg] at horder
  have hheld : (s.depart t rest).gateHeld g = (s.holder? g).isSome := by
    rw [gateHeld, hg₁, holder?, hg]
    rfl
  rw [hheld]
  cases hh : (s.holder? g).isSome with
  | true =>
    rw [if_pos rfl]
    refine .of_tasks hk ⟨hd, fun g' => ?_⟩ (onset_depart h hr task) (tasks_depart ..)
      (pipe?_depart ..) (gatePipe?_depart ..) (outlets_depart ..)
    by_cases hgg : g' = g
    · subst hgg
      rw [holder?_depart, waiters_gate hg₁, hh, Waiter.orderly_held_iff]
      rw [hh, Waiter.orderly_held_iff] at horder
      exact fun w hw => horder w (Waiter.mem_without.1 hw).1
    · exact ordered_depart_of_ne h hpl hgg
  | false =>
    have hnone : gate.holder = none := by
      rw [holder?, hg, Option.bind_some, Option.isSome_eq_false_iff] at hh
      exact Option.isNone_iff_eq_none.1 hh
    -- to wake the next at a free gate is to give the gate back once more
    have hw : (s.depart t rest).wakeGate g = (s.depart t rest).free g := by
      rw [← release_eq hg₁, Session.release]
      congr 1
      have hself : (s.depart t rest).gates.modify g (fun gate => { gate with holder := none }) =
          (s.depart t rest).gates := by
        obtain ⟨hlt, he⟩ := List.getElem?_eq_some_iff.1 hg₁
        rw [← set_eq_modify hg₁, ← hnone, ← he]
        exact List.set_getElem_self hlt
      rw [hself]
    rw [if_neg (by simp), hw]
    have hsound := hd.free hg₁ (.inr ⟨rfl, hnone⟩) (fun g' hne => ordered_depart_of_ne h hpl hne)
      (horder.tail_without t)
    exact .of_tasks hk hsound ((onset_depart h hr task).free hg₁ hc) (tasks_depart ..)
      (pipe?_depart ..) ((gatePipe?_free ..).trans (gatePipe?_depart ..)) (outlets_depart ..)

/-- The end of a cancelled task. -/
theorem course_abandon (h : Sound s none none) (hr : s.ready = .task t :: rest)
    (hk : s.tasks[t]? = some task) (hc : task.cancelling = true) :
    Course s t task (({ s with ready := rest } : Session).abandon t task.stage) := by
  have hpl : s.place? t = task.stage.place? := by rw [place?, stage?, hk]; rfl
  have hv : s.service? = none := by simp [service?, hr, hk, hc]
  cases hst : task.stage with
  | atGate g r =>
    have hp := poised_leave h hr hk hc hst
    simp only [depart, hpl, hst, Stage.place?] at hp
    exact .cancelled hp hc hv
  | inPipe gate p r =>
    have hp := (poised_depart h hr hk (by simp [hst])).release hc
    simp only [depart, hpl, hst, Stage.place?] at hp
    exact .cancelled hp hc hv
  | fresh =>
    have hp := poised_depart h hr hk (by simp [hst])
    simp only [depart, hpl, hst, Stage.place?] at hp
    exact .cancelled hp hc hv
  | ended o =>
    have hp := poised_depart h hr hk (by simp [hst])
    simp only [depart, hpl, hst, Stage.place?] at hp
    exact .cancelled hp hc hv

/-- A task that is ready is there and has not ended. -/
theorem exists_task_of_mem (h : Sound s none none) (ht : Job.task t ∈ s.ready) :
    ∃ task, s.tasks[t]? = some task ∧ ∀ o, task.stage ≠ .ended o := by
  have hpos : s.turnsOf t ≠ 0 := Nat.pos_iff_ne_zero.1 (List.count_pos_iff.2 ht)
  cases hk : s.tasks[t]? with
  | none =>
    have hs : s.stage? t = none := by rw [stage?, hk]; rfl
    have hz := h.placed.turnsOf_of_place t (by simp) (by rw [place?, hs]; rfl)
    rw [hs] at hz
    exact absurd hz hpos
  | some task =>
    refine ⟨task, rfl, fun o ho => hpos ?_⟩
    have hs : s.stage? t = some (.ended o) := by rw [stage?, hk, Option.map_some, ho]
    have hz := h.placed.turnsOf_of_place t (by simp) (by rw [place?, hs]; rfl)
    rw [hs] at hz
    exact hz

/-- A task that has its turn is there and has not ended. -/
theorem exists_task (h : Sound s none none) (hr : s.ready = .task t :: rest) :
    ∃ task, s.tasks[t]? = some task ∧ ∀ o, task.stage ≠ .ended o :=
  exists_task_of_mem h (by rw [hr]; exact List.mem_cons_self)

/-- Whoever has the turn has not ended. -/
theorem isUnfinished_of_ready (h : Sound s none none) (hr : s.ready = .task t :: rest)
    (hk : s.tasks[t]? = some task) : task.isUnfinished = true := by
  obtain ⟨task', hk', hended⟩ := exists_task h hr
  rw [hk] at hk'
  cases hk'
  exact Task.isUnfinished_iff.2 hended

/-- Whatever a task does with its turn is one of the courses. -/
theorem turn_course (h : Sound s none none) (hr : s.ready = .task t :: rest)
    (hk : s.tasks[t]? = some task) : Course s t task s.turn := by
  have hpl : s.place? t = task.stage.place? := by rw [place?, stage?, hk]; rfl
  have hended := Task.isUnfinished_iff.1 (isUnfinished_of_ready h hr hk)
  simp only [turn, hr, runTask, hk]
  cases hc : task.cancelling with
  | true =>
    have hcourse := course_abandon h hr hk hc
    cases hst : task.stage with
    | ended o => exact absurd hst (hended o)
    | fresh => rw [hst] at hcourse; exact hcourse
    | atGate g r => rw [hst] at hcourse; exact hcourse
    | inPipe gate p r => rw [hst] at hcourse; exact hcourse
  | false =>
    have hv := service?_eq hr hk hc
    cases hst : task.stage with
    | ended o => exact absurd hst (hended o)
    | fresh =>
      have hp := poised_depart h hr hk (by simp [hst])
      simp only [depart, hpl, hst, Stage.place?] at hp
      rw [errand?, hst] at hv
      exact course_begin hp hc hst rfl rfl h.housed (h.employed.fits t task hk) hv
    | atGate g r => exact course_enter h hr hk hc hst
    | inPipe gate p r =>
      have hp := poised_depart h hr hk (by simp [hst])
      simp only [depart, hpl, hst, Stage.place?] at hp
      have hpur := h.employed.pursues t task hk (by simp)
      rw [hst] at hpur
      obtain ⟨b, hb⟩ := hpur.has h.housed
      rw [errand?, hst] at hv
      rw [serviceOf?_some _ hb] at hv
      exact .served hp hc hv hb hpur

theorem Course.sound {s' : Session} (h : Course s t task s') : Sound s' none none := by
  cases h with
  | cancelled hp hc hv =>
    obtain ⟨entry, hk⟩ := hp.task
    exact hp.sound.finish hk _
  | answered hp hc hv hst outcome =>
    obtain ⟨entry, hk⟩ := hp.task
    exact hp.sound.complete hk outcome
  | @queued s₁ g gate q hp hc hv hst hg hopen haim =>
    obtain ⟨entry, hk⟩ := hp.task
    have hhas : s₁.Has (.gate g) := ⟨gate.pipe, by rw [gatePipe?, hg]; rfl⟩
    exact hp.sound.queue hk hc hg hopen ⟨q, rfl, hp.extends.aims haim, hhas⟩
  | @served s₁ held p r b hp hc hv hb hpur =>
    obtain ⟨entry, hk⟩ := hp.task
    obtain ⟨b', hb'⟩ := (hp.extends.pursues hpur).has hp.sound.housed
    exact hp.sound.serve hk hc hb' (hp.extends.pursues hpur)

end

/-- A turn keeps a session sound. -/
theorem Sound.turn (h : Sound s none none) : Sound s.turn none none := by
  cases hr : s.ready with
  | nil =>
    have hs : s.turn = s := by simp only [Session.turn, hr]
    rw [hs]
    exact h
  | cons job rest =>
    cases job with
    | task t =>
      obtain ⟨task, hk, -⟩ := exists_task h hr
      exact (turn_course h hr hk).sound
    | deliver n copies =>
      refine h.congr ?_ ?_ ?_ ?_ ?_
      all_goals simp only [Session.turn, hr, deliver]
      funext u
      simp [turnsOf, hr]

end Session

end Outflow
