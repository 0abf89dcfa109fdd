import Outflow.Proofs.Offers

/-!
# Writing all bytes

What stands behind an outlet may take as little as it likes of what it is offered, or fail, and others may write
in between.

* `counts_of_ending?`: a write that succeeds tells how much it took;
* `Accepts`, `Run.accepts`: a pipe has accepted what was written, and never takes nothing;
* `output_turn_of_ending?`: a standard stream has what was written in its output;
* `WritesAll`, `write_all_exact`: a call that writes all of some data writes a beginning of it, and all of it just
  if it succeeds;
* `Written.notices`, `failure_of_write_all`: what is noticed about its failure.

A write that takes nothing fails the call like any other failure of the system.  It should then be noticed, but
nothing is: `unnoticed_failure`.
-/

namespace Outflow.Session

open Text (codesOf)

variable {s s' s₀ : Session} {past : List Session} {t p o : Nat} {task : Task} {rest : List Job}
  {data : Bytes} {es : List Ending}

/-! ### What the writes are answered -/

/-- An operation on an outlet comes to a pipe for its request. -/
theorem Pursues.request_of_onOutlet {c : Call} {held : Option Nat} {r : Pipe.Request} {q : Sink.Request}
    (h : s.Pursues c (.inPipe held p r)) (hop : c.operation = .onOutlet o q) : r = .ofSink q := by
  have haims : ∀ b q', s.Aims c b q' → q' = q := by
    rintro b q' (hop' | ⟨o', x, hop', -⟩)
    · rw [hop] at hop'
      cases hop'
    · rw [hop] at hop'
      cases hop'
      rfl
  cases held with
  | some g =>
    obtain ⟨q', rfl, haim, -⟩ := h
    rw [haims _ q' haim]
  | none =>
    obtain ⟨-, ⟨q', rfl, haim⟩ | ⟨r₀, hop', -⟩⟩ := h
    · rw [haims _ q' haim]
    · rw [hop] at hop'
      cases hop'

/-- The service of a task that writes through an outlet. -/
theorem request_of_service (hs : Sound s none none) (hr : s.ready = .task t :: rest)
    (hk : s.tasks[t]? = some task) {left : Bytes} (hop : task.call.operation = .onOutlet o (.write left))
    {v : Service} (hv : s.service? = some v) :
    v.task = t ∧ v.request = .write left ∧ s.Pursues task.call (.inPipe v.gate v.place v.request) := by
  obtain ⟨task', hk', -, hpur⟩ := pursues_of_service hs hv
  rw [task_of_service? hr hv, hk] at hk'
  cases hk'
  exact ⟨task_of_service? hr hv, hpur.request_of_onOutlet hop, hpur⟩

/-- Whatever stands behind its outlet, a write that succeeds tells how many of the bytes it took. -/
theorem counts_of_ending? (hs : Sound s none none) (hio : s.HasStreams) {e : Ending}
    (he : s.ending? = some e) : e.Counts := by
  intro left a hreq ha
  obtain ⟨rest, task, hr, hk, hop, ho, -⟩ := ending?_eq_some he
  rw [hreq] at hop
  rw [ha] at ho
  obtain ⟨-, hcan⟩ | ⟨v, hv, hans⟩ | ⟨-, hans⟩ := outcome?_cases ho
  · cases hcan
  · obtain ⟨-, hv, -⟩ := request_of_service hs hr hk hop hv
    have hrep := Service.reply_of_answer hans
    rw [hv] at hrep
    obtain ⟨f, hf, -⟩ | ⟨k, hle, -, hcount⟩ := Pipe.answer_of_write hrep
    · cases hf
    · cases hcount
      exact ⟨k, hle, rfl⟩
  · have hstream : ∀ b, s.answerAt? b (.write left) = some (.ok a) → ∃ k, k ≤ left.length ∧ a = .count k := by
      intro b hb
      cases b with
      | gate g => cases hb
      | pipe p => cases hb
      | stream n =>
        obtain ⟨stream, hin⟩ := hio n
        rw [answerAt?, (Stdio.perform_eq hin _).1, Option.some.injEq] at hb
        exact stream.count_of_perform hb
    rw [hop] at hans
    obtain ⟨⟨d, backing⟩, -, hans⟩ := Option.bind_eq_some_iff.1 hans
    cases d with
    | null =>
      cases hans
      exact ⟨_, Nat.le_refl _, rfl⟩
    | other name => cases hans
    | stdout | stderr | pipe =>
      cases backing with
      | none => cases hans
      | some b => exact hstream b hans

/-! ### Pipes that accept what is written -/

theorem Extends.leadsTo (h : Extends s s') {b : Backing} (hl : s.LeadsTo b p) : s'.LeadsTo b p := by
  rcases hl with hp | ⟨g, hg, hp⟩
  · exact .inl hp
  · exact .inr ⟨g, hg, h.gatePipe g p hp⟩

/-- An outlet before a pipe that answers by itself fails. -/
theorem answer?_of_leadsTo (hs : Sound s none none) {x : Outlet} (hx : s.outlets[o]? = some x)
    {b : Backing} (hb : x.backing = some b) (hl : s.LeadsTo b p) {q : Sink.Request} {outcome : Outcome}
    (h : s.answer? (.onOutlet o q) = some outcome) : ∃ name, outcome = .error (.unhandled name) := by
  have hnull := (hs.housed.backing x (List.mem_of_getElem? hx) b hb).2
  rw [answer?, hx, Option.bind_some] at h
  obtain ⟨d, backing⟩ := x
  cases hb
  cases d with
  | null => exact absurd rfl hnull
  | other name =>
    cases h
    exact ⟨_, rfl⟩
  | stdout | stderr | pipe => rcases hl with rfl | ⟨g, rfl, -⟩ <;> cases h

/-- Whether services are those of a pipe, which has accepted what the writes have written. -/
structure Accepts (p : Nat) (vs : List Service) (es : List Ending) : Prop where
  place : ∀ v ∈ vs, v.place = p
  eq : accepted vs = piecesOf es
  takes : ∀ e ∈ es, e.TakesSome

theorem Accepts.nil (p : Nat) : Accepts p [] [] :=
  ⟨fun _ hv => absurd hv List.not_mem_nil, rfl, fun _ he => absurd he List.not_mem_nil⟩

theorem Accepts.append {vs ws : List Service} {es' : List Ending} (h : Accepts p vs es)
    (h' : Accepts p ws es') : Accepts p (vs ++ ws) (es ++ es') := by
  refine ⟨fun v hv => ?_, by rw [accepted_append, h.eq, h'.eq, piecesOf_append], fun e he => ?_⟩
  · rcases List.mem_append.1 hv with hv | hv
    · exact h.place v hv
    · exact h'.place v hv
  · rcases List.mem_append.1 he with he | he
    · exact h.takes e he
    · exact h'.takes e he

/-- In a turn of a task that writes all of some data through an outlet before a pipe, the pipe accepts what
the write has written, if it ends. -/
theorem accepts_turn (hs : Sound s none none) (hr : s.ready = .task t :: rest)
    (hk : s.tasks[t]? = some task) {left : Bytes} (hcall : task.call = .writeAll o left) {x : Outlet}
    (hx : s.outlets[o]? = some x) {b : Backing} (hb : x.backing = some b) (hl : s.LeadsTo b p) :
    Accepts p (servicesOf t [s]) (endingsOf t [s]) := by
  cases hv : s.service? with
  | none =>
    have hfails : ∀ e ∈ endingsOf t [s], ∃ f, e.outcome = .error f ∧ ∀ d m, f ≠ .stalled d m := by
      intro e he
      obtain ⟨u, hu, he, rfl⟩ := mem_endingsOf.1 he
      cases List.mem_singleton.1 hu
      obtain ⟨-, task', -, hk', hop, ho, -⟩ := ending?_eq_some he
      rw [hk] at hk'
      cases hk'
      obtain ⟨-, hcan⟩ | ⟨v, hv', -⟩ | ⟨-, hans⟩ := outcome?_cases ho
      · exact ⟨_, hcan, nofun⟩
      · rw [hv] at hv'
        cases hv'
      · have houtlet := Call.outlet?_of_operation hop
        rw [hcall] at houtlet
        cases houtlet
        rw [hop] at hans
        obtain ⟨name, hun⟩ := answer?_of_leadsTo hs hx hb hl hans
        exact ⟨_, hun, nofun⟩
    rw [servicesOf_of_no_service hv]
    refine ⟨fun v hv => absurd hv List.not_mem_nil, ?_, fun e he => ?_⟩
    · refine (List.flatMap_eq_nil_iff.2 fun e he => ?_).symm
      obtain ⟨f, hf, -⟩ := hfails e he
      exact Ending.piece_of_error hf
    · obtain ⟨f, hf, hne⟩ := hfails e he
      refine ⟨by rw [hf]; nofun, fun d m h => hne d m ?_⟩
      rw [hf] at h
      cases h
      rfl
  | some v =>
    have hne : left ≠ [] := by
      rintro rfl
      obtain ⟨task', hk', -, hpur⟩ := pursues_of_service hs hv
      rw [task_of_service? hr hv, hk] at hk'
      cases hk'
      exact hpur.operation_ne_answered (.ok .nothing) (by rw [hcall]; rfl)
    have hop : task.call.operation = .onOutlet o (.write left) := by
      rw [hcall, Call.operation_writeAll o hne]
    obtain ⟨ht, hreq, hpur⟩ := request_of_service hs hr hk hop hv
    have hplace : v.place = p := (hpur.of_aims (.inr ⟨o, x, hop, hx, hb⟩)).2.1.unique hl
    have hlive : task.cancelling = false := by
      obtain ⟨-, task', -, hk', hlive, -⟩ := service?_eq_some hv
      rw [ht, hk] at hk'
      cases hk'
      exact hlive
    have ho : s.outcome? task = v.answer? := by rw [outcome?, if_neg (by simp [hlive]), hv]
    have hall : ∀ w ∈ [v], w.place = p := fun w hw => by rw [List.mem_singleton.1 hw, hplace]
    rw [servicesOf_singleton hv ht]
    cases hrep : (v.before.serve v.request).reply with
    | wait again =>
      have hans : v.answer? = none := by rw [Service.answer?, hrep]
      have hnone : v.accepted = [] := by
        rw [hreq] at hrep
        rw [Service.accepted, hreq, Pipe.accepted_write, hrep]
      rw [endingsOf_of_outcome?_none hk (ho.trans hans)]
      exact ⟨hall, by rw [accepted_singleton, hnone]; rfl, fun w hw => absurd hw List.not_mem_nil⟩
    | done outcome =>
      have hans : v.answer? = some outcome := by rw [Service.answer?, hrep]
      obtain ⟨e, hone, -, hreq', hout, -⟩ := endingsOf_of_write hr hk hop (ho.trans hans)
      rw [hreq] at hrep
      have hpiece : v.accepted = e.piece := by
        rw [Service.accepted, hreq, Pipe.accepted_of_answer hrep, e.piece_of_write hreq', hout]
      rw [hone]
      refine ⟨hall, by rw [accepted_singleton, piecesOf_singleton, hpiece], fun w hw => ?_⟩
      rw [List.mem_singleton.1 hw, Ending.TakesSome, hout]
      obtain ⟨f, rfl, rfl | rfl⟩ | ⟨k, -, hk, rfl⟩ := Pipe.answer_of_write hrep
      · simp
      · simp
      · simp [hk hne]

/-- Only in a turn of its own a task has services and ends operations. -/
theorem accepts_turn_of_ne (p : Nat) (hr : ∀ rest, s.ready ≠ .task t :: rest) :
    Accepts p (servicesOf t [s]) (endingsOf t [s]) := by
  rw [endingsOf_of_not_ready hr, servicesOf_eq_nil]
  · exact .nil p
  · rintro v hv rfl
    obtain ⟨rest, task, hr', -⟩ := service?_eq_some hv
    exact hr rest hr'

/-- The pipe behind the outlet has accepted what the call has written. -/
theorem Run.accepts (h : Run (s₀.spawn (.writeAll o data)).1 past s)
    (hs₀ : Sound (s₀.spawn (.writeAll o data)).1 none none) {x₀ : Outlet} (ho : s₀.outlets[o]? = some x₀)
    {b : Backing} (hb : x₀.backing = some b) (hl : s₀.LeadsTo b p) :
    Accepts p (servicesOf s₀.tasks.length past) (endingsOf s₀.tasks.length past) := by
  induction h with
  | refl => exact .nil p
  | @turn past s h ih =>
    have hs := hs₀.run h
    rw [servicesOf_append, endingsOf_append]
    refine ih.append ?_
    by_cases hr : ∃ rest, s.ready = .task s₀.tasks.length :: rest
    · obtain ⟨rest, hr⟩ := hr
      obtain ⟨task, hk, hw⟩ := h.written hs₀
      obtain ⟨left, hcall⟩ := hw.call (isUnfinished_of_ready hs hr hk)
      have hext := h.extends hs₀
      obtain ⟨x, hx, hxb⟩ := hext.outlet o x₀ ho
      exact accepts_turn hs hr hk hcall hx (hxb.trans hb) (hext.leadsTo hl)
    · exact accepts_turn_of_ne p fun rest he => hr ⟨rest, he⟩
  | move _ _ ih => exact ih

/-- The services of a task that only comes to one pipe are those that it has in the history of the pipe. -/
theorem filter_history (h : ∀ v ∈ servicesOf t past, v.place = p) :
    (history p past).filter (fun v => v.task == t) = servicesOf t past := by
  rw [history, List.filter_comm]
  exact List.filter_eq_self.2 fun v hv => by simpa using h v hv

/-! ### Streams that keep what is written -/

theorem backing_of_forwards? {x : Outlet} {b : Backing} (h : x.forwards? = some b) : x.backing = some b := by
  unfold Outlet.forwards? at h
  split at h
  · cases h
  · cases h
  · exact h

/-- Whoever asks for something at an outlet for a standard stream comes to no pipe and to no gate. -/
theorem stage_of_forwards? (hs : Sound s none none) (hk : s.tasks[t]? = some task)
    (hu : task.isUnfinished = true) {q : Sink.Request} (hop : task.call.operation = .onOutlet o q)
    {x : Outlet} (hx : s.outlets[o]? = some x) {n : StreamName} (hb : x.backing = some (.stream n)) :
    task.stage = .fresh := by
  have haims : ∀ b q', s.Aims task.call b q' → b = .stream n := by
    rintro b q' haim
    exact (haim.unique (.inr ⟨o, x, hop, hx, hb⟩)).1.symm
  have hpur := hs.employed.pursues t task hk (by simp)
  cases hst : task.stage with
  | fresh => rfl
  | ended outcome => exact absurd hst (Task.isUnfinished_iff.1 hu _)
  | atGate g r =>
    rw [hst] at hpur
    obtain ⟨q', -, haim, -⟩ := hpur
    cases haims _ q' haim
  | inPipe gate p r =>
    rw [hst] at hpur
    cases gate with
    | some g =>
      obtain ⟨q', -, haim, -⟩ := hpur
      cases haims _ q' haim
    | none =>
      obtain ⟨-, ⟨q', -, haim⟩ | ⟨r₀, hop', -⟩⟩ := hpur
      · cases haims _ q' haim
      · rw [hop] at hop'
        cases hop'

/-- What a standard stream answers to an outlet is the outcome. -/
theorem outcome?_of_stream (hr : s.ready = .task t :: rest) (hk : s.tasks[t]? = some task)
    (hc : task.cancelling = false) (hst : task.stage = .fresh) {q : Sink.Request}
    (hop : task.call.operation = .onOutlet o q) {x : Outlet} (hx : s.outlets[o]? = some x) {n : StreamName}
    (hn : x.forwards? = some (.stream n)) : s.outcome? task = some (s.stdio.perform n q).2 := by
  have hv : s.service? = s.serviceOf? t (s.opening? (.onOutlet o q)) := by
    rw [service?_eq hr hk hc, errand?, hst, hop]
  rw [opening?, hx] at hv
  rw [outcome?, if_neg (by simp [hc]), hop, answer?, hx]
  obtain ⟨d, backing⟩ := x
  cases d with
  | null => cases hn
  | other name => cases hn
  | stdout | stderr | pipe =>
    cases hn
    rw [hv]
    rfl

/-- When a write through an outlet for a standard stream that tells how much it takes ends, the stream has what was
written in its output, after what it had. -/
theorem output_turn_of_ending? (hs : Sound s none none) {e : Ending} (he : s.ending? = some e) {left : Bytes}
    (hreq : e.request = .write left) {x : Outlet} (hx : s.outlets[e.outlet]? = some x) {n : StreamName}
    (hn : x.forwards? = some (.stream n)) {stream : Stream} (hin : s.stdio.inUse? n = some stream) :
    ∃ stream', s.turn.stdio.inUse? n = some stream' ∧ (stream.traits.Tells →
      stream'.output = stream.output ++ stream.rendered e.piece) := by
  obtain ⟨rest, task, hr, hk, hop, hout, -⟩ := ending?_eq_some he
  rw [hreq] at hop
  cases hc : task.cancelling with
  | true =>
    rw [outcome?, if_pos hc, Option.some.injEq] at hout
    rw [stdio_turn_of_cancelling hr hk hc, Ending.piece_of_error hout.symm, stream.rendered_nil, List.append_nil]
    exact ⟨stream, hin, fun _ => rfl⟩
  | false =>
    have hst := stage_of_forwards? hs hk (isUnfinished_of_ready hs hr hk) hop hx (backing_of_forwards? hn)
    obtain ⟨hans, hin'⟩ := Stdio.perform_eq hin (.write left)
    have hpiece : e.piece = (stream.perform (.write left)).2.counted left := by
      rw [outcome?_of_stream hr hk hc hst hop hx hn, Option.some.injEq] at hout
      rw [e.piece_of_write hreq, ← hout, hans]
    rw [stdio_turn_of_stream hr hk hc hst hop hx hn, hpiece]
    refine ⟨_, hin', fun htells => ?_⟩
    rw [stream.output_perform, stream.gained_of_tells htells]

theorem stage?_eq_ended (hk : s.tasks[t]? = some task) {outcome : Outcome} :
    s.stage? t = some (.ended outcome) ↔ task.stage = .ended outcome := by
  rw [stage?_of_task hk, Option.some.injEq]

/-- How a call that writes all of some data through an outlet has gone, with the writes it has made. -/
structure WritesAll (s : Session) (t o : Nat) (data : Bytes) (es : List Ending) : Prop where
  /-- Each write offers what those before it have left, which is not nothing. -/
  offers : ∀ us e vs, es = us ++ e :: vs →
    e.request = .write (data.drop (piecesOf us).length) ∧ piecesOf us ≠ data
  /-- What is to be offered next is what is left. -/
  goesOn : ∀ task, s.tasks[t]? = some task → task.isUnfinished = true →
    task.call = .writeAll o (data.drop (piecesOf es).length) ∧ (data ≠ [] → es.length < data.length)
  /-- The pieces that were written are a beginning of the data. -/
  beginning : piecesOf es <+: data
  length_le : es.length ≤ data.length
  /-- The call returns nothing if it succeeds. -/
  returns : ∀ a, s.stage? t = some (.ended (.ok a)) → a = .nothing
  /-- It succeeds just if all was written. -/
  succeeds : data ≠ [] → (s.stage? t = some (.ended (.ok .nothing)) ↔ piecesOf es = data)
  /-- An answer of what stands behind the outlet is the outcome of the write, as it is. -/
  answered : ∀ e ∈ es, ∀ a, e.answer = some a → e.outcome = a
  /-- The fault of a write ends the call, unchanged. -/
  raises : ∀ us e vs f, es = us ++ e :: vs → e.outcome = .error f →
    vs = [] ∧ s.stage? t = some (.ended (.error f))
  /-- A write that takes nothing ends the call, with a fault that tells how much is left. -/
  stalls : ∀ us e vs, es = us ++ e :: vs → e.outcome = .ok (.count 0) → vs = [] ∧
    s.stage? t = some (.ended (.error (.stalled e.now.name (data.length - (piecesOf us).length))))
  /-- Nothing else makes the call fail, except that it may be cancelled with nothing to write. -/
  fails : ∀ f, s.stage? t = some (.ended (.error f)) →
    (∃ us e, es = us ++ [e] ∧ (e.outcome = .error f ∨ e.outcome = .ok (.count 0))) ∨
      (data = [] ∧ f = .cancelled ∧ s.isCancelling t = true)

theorem Written.writesAll (h : Written o data task es) (hk : s.tasks[t]? = some task)
    (hc : ∀ e ∈ es, e.Counts) (ha : ∀ e ∈ es, ∀ a, e.answer = some a → e.outcome = a) :
    s.WritesAll t o data es := by
  obtain ⟨left, hdata, hlen, hgo, hok, hall⟩ := h.exists_left hc
  have hdrop : ∀ {us : List Ending} {rest : Bytes}, piecesOf us ++ rest = data →
      rest = data.drop (piecesOf us).length := by
    rintro us rest rfl
    rw [List.drop_left]
  have hwrite : ∀ us e vs, es = us ++ e :: vs → ∃ rest, piecesOf us ++ rest = data ∧ rest ≠ [] ∧
      e.request = .write rest ∧ ∀ f, Call.leftAfter e.now rest e.outcome = .error f →
        vs = [] ∧ task.stage = .ended (.error f) := by
    rintro us e vs rfl
    obtain ⟨rest, hoff, hne, hreq, hlast⟩ := h.write
    exact ⟨rest, (hoff.piecesOf_append_rest fun u hu => hc u (List.mem_append_left _ hu)).1, hne, hreq, hlast⟩
  constructor
  case offers =>
    intro us e vs he
    obtain ⟨rest, hrest, hne, hreq, -⟩ := hwrite us e vs he
    refine ⟨by rw [hreq, hdrop hrest], fun hus => hne ?_⟩
    rwa [hus, List.append_right_eq_self] at hrest
  case goesOn =>
    intro task' hk' hu
    rw [hk] at hk'
    cases hk'
    obtain ⟨hcall, hlt⟩ := hgo hu
    exact ⟨by rw [hcall, hdrop hdata], fun hne => (hlt hne).2⟩
  case beginning => exact ⟨left, hdata⟩
  case length_le => exact hlen
  case returns =>
    intro a ha
    exact (hok a ((stage?_eq_ended hk).1 ha)).1
  case succeeds =>
    intro hne
    rw [stage?_eq_ended hk]
    constructor
    · intro hend
      rw [(hok _ hend).2, List.append_nil] at hdata
      exact hdata
    · intro heq
      rw [heq, List.append_right_eq_self] at hdata
      exact hall hne hdata
  case answered => exact ha
  case raises =>
    intro us e vs f he hf
    obtain ⟨rest, -, -, -, hlast⟩ := hwrite us e vs he
    rw [stage?_eq_ended hk]
    exact hlast f (by rw [hf]; rfl)
  case stalls =>
    intro us e vs he hzero
    obtain ⟨rest, hrest, -, -, hlast⟩ := hwrite us e vs he
    rw [stage?_eq_ended hk]
    have hlength : data.length - (piecesOf us).length = rest.length := by
      rw [hdrop hrest, List.length_drop]
    rw [hlength]
    exact hlast _ (by rw [hzero]; rfl)
  case fails =>
    intro f hf
    rw [isCancelling, hk]
    exact h.error ((stage?_eq_ended hk).1 hf)

/-- On every run, whatever stands behind the outlet and whatever it takes or fails with, whoever else uses it,
and whenever the call is cancelled: writing all of some data offers what is left, as long as something was taken,
makes no more writes than there are bytes, and writes a beginning of the data, which is all of it just if the
call succeeds; a fault of a write ends the call, unchanged, and a write that takes nothing ends it with a fault
that tells how much is left.

A pipe behind the outlet never takes nothing.  It has accepted what was written, and holds it until it is
removed.  A standard stream has it in its output, if it tells how much it takes, and no turn and no cancellation
takes back any output. -/
theorem write_all_exact (h₀ : Reachable s₀) {x₀ : Outlet} (hx₀ : s₀.outlets[o]? = some x₀)
    (h : Run (s₀.spawn (.writeAll o data)).1 past s) (hio : ∀ u ∈ past, u.HasStreams) :
    s.WritesAll s₀.tasks.length o data (endingsOf s₀.tasks.length past) ∧
      (∀ b p, x₀.backing = some b → s₀.LeadsTo b p →
        (∀ d m, s.stage? s₀.tasks.length ≠ some (.ended (.error (.stalled d m)))) ∧
        accepted ((history p past).filter fun v => v.task == s₀.tasks.length) =
          piecesOf (endingsOf s₀.tasks.length past) ∧
        ∃ c₀ c, s₀.pipe? p = some c₀ ∧ s.pipe? p = some c ∧ (c.readClosed = false →
          c₀.buffer ++ accepted (history p past) = removed (history p past) ++ c.buffer)) ∧
      (∀ u ∈ past, u.stdio.Grows u.turn.stdio ∧ ∀ e ∈ endingsOf s₀.tasks.length [u], ∀ x n stream,
        u.outlets[o]? = some x → x.forwards? = some (.stream n) → u.stdio.inUse? n = some stream →
          ∃ stream', u.turn.stdio.inUse? n = some stream' ∧ (stream.traits.Tells →
            stream'.output = stream.output ++ stream.rendered e.piece)) ∧
      ∀ u, (s.cancel u).1.stdio = s.stdio := by
  have hsound₀ := h₀.sound
  have hmove : Move s₀ (s₀.spawn (.writeAll o data)).1 := .spawn ⟨x₀, hx₀⟩
  have hs₀ := hsound₀.move hmove
  obtain ⟨task, hk, hw⟩ := h.written hs₀
  have hsound : ∀ u ∈ past, Sound u none none := by
    intro u hu
    obtain ⟨us, vs, -, hus, -⟩ := h.through (List.mem_append_left _ hu)
    exact hs₀.run hus
  have hall : s.WritesAll s₀.tasks.length o data (endingsOf s₀.tasks.length past) := by
    refine hw.writesAll hk (fun e he => ?_) fun e he a ha => ?_
    · obtain ⟨u, hu, he, -⟩ := mem_endingsOf.1 he
      exact counts_of_ending? (hsound u hu) (hio u hu) he
    · obtain ⟨u, hu, he, -⟩ := mem_endingsOf.1 he
      obtain hans | ⟨hnone, -⟩ := answer_of_ending? he
      · rw [ha] at hans
        exact (Option.some.inj hans).symm
      · rw [ha] at hnone
        cases hnone
  refine ⟨hall, fun b p hb hl => ?_, fun u hu => ⟨u.grows_turn, fun e he x n stream hx hn hin => ?_⟩,
    stdio_cancel _⟩
  · have hacc := h.accepts hs₀ hx₀ hb hl
    refine ⟨fun d m hst => ?_, by rw [filter_history hacc.place, hacc.eq], ?_⟩
    · obtain ⟨us, e, hes, hout | hout⟩ | ⟨-, hcan, -⟩ := hall.fails _ hst
      · exact (hacc.takes e (by simp [hes])).2 d m hout
      · exact (hacc.takes e (by simp [hes])).1 hout
      · cases hcan
    · obtain ⟨c₀, hc₀⟩ : s₀.Has (.pipe p) := by
        rcases hl with rfl | ⟨g, rfl, hg⟩
        · exact (hsound₀.housed.backing x₀ (List.mem_of_getElem? hx₀) _ hb).1
        · exact hsound₀.housed.gatePipe g p hg
      obtain ⟨c, hc, hserves⟩ := h.serves hs₀ (p := p) hc₀
      exact ⟨c₀, c, hc₀, hc, hserves.conserved⟩
  · obtain ⟨u', hu', he, ht⟩ := mem_endingsOf.1 he
    cases List.mem_singleton.1 hu'
    obtain ⟨us, vs, -, hus, -⟩ := h.through (List.mem_append_left _ hu)
    obtain ⟨left, houtlet, hreq⟩ := hus.request_of_ending? hs₀ he ht
    rw [← houtlet] at hx
    exact output_turn_of_ending? (hsound u hu) he hreq hx hn hin

/-- A pipe for two bytes, an outlet for it, and a task that is to read two bytes. -/
def slowPipe : Session :=
  let s := ((start .plain .plain).addPipe (.empty 2)).1
  let s := (s.addGate 0).1
  let s := (s.addOutlet (.ofGate 0)).1
  (s.spawn (.read 0 2)).1

theorem run_slowPipe : Run (start .plain .plain) [] slowPipe := by
  have h₀ : Run (start .plain .plain) [] (start .plain .plain) := .refl
  have h₁ := h₀.move (@Move.addPipe _ 2 _ rfl)
  have h₂ := h₁.move (@Move.addGate _ 0 ⟨_, rfl⟩)
  have h₃ := h₂.move (@Move.addOutlet _ (.ofGate 0) fun b hb => by
    cases hb
    exact ⟨⟨_, rfl⟩, by simp [Outlet.ofGate]⟩)
  exact h₃.move (@Move.spawn _ (.read 0 2) ⟨_, rfl⟩)

/-- Three bytes are written to it in two pieces, and it has accepted them. -/
theorem slowPipe_exact : ∃ past s, Run (slowPipe.spawn (.writeAll 0 [1, 2, 3])).1 past s ∧
    s.stage? 1 = some (.ended (.ok .nothing)) ∧ (endingsOf 1 past).map Ending.piece = [[1, 2], [3]] ∧
      piecesOf (endingsOf 1 past) = [1, 2, 3] ∧
        accepted ((history 0 past).filter fun v => v.task == 1) = [1, 2, 3] := by
  have hrun : Run (slowPipe.spawn (.writeAll 0 [1, 2, 3])).1
      (List.iterate turn (slowPipe.spawn (.writeAll 0 [1, 2, 3])).1 5)
      (turn^[5] (slowPipe.spawn (.writeAll 0 [1, 2, 3])).1) := Run.refl.iterate 5
  have hio : (slowPipe.spawn (.writeAll 0 [1, 2, 3])).1.HasStreams := hasStreams_start .plain .plain
  have hx : slowPipe.outlets[0]? = some (.ofGate 0) := rfl
  obtain ⟨hall, hpipe, -⟩ := write_all_exact ⟨_, _, _, run_slowPipe⟩ hx hrun (hio.iterate 5)
  have hpieces := (hall.succeeds (by decide)).1 rfl
  obtain ⟨-, hacc, -⟩ := hpipe (.gate 0) 0 rfl (.inr ⟨0, rfl, rfl⟩)
  exact ⟨_, _, hrun, rfl, rfl, hpieces, hacc.trans hpieces⟩

/-! ### What is noticed -/

/-- The notices of a write. -/
theorem notices_of_write {e : Ending} (he : s.ending? = some e) {left : Bytes} (hreq : e.request = .write left) :
    e.notices = match e.outcome with
      | .error f => if f.isSystem then
          [.failed (codesOf e.now.name) (codesOf "write") (codesOf f.message) (codesOf f.label)] else []
      | .ok _ => [] := by
  rw [notices_of_ending? he, hreq]
  cases e.outcome with
  | ok a => rfl
  | error f =>
    simp only [Notice.about?]
    split <;> rfl

/-- Nothing is noticed about writes after which the call goes on. -/
theorem notices_of_offered {left : Bytes} (h : Offered data es left)
    (hes : ∀ e ∈ es, ∃ u : Session, u.ending? = some e) : es.flatMap Ending.notices = [] := by
  induction h with
  | nil => rfl
  | @snoc us e rest left h hne hreq hleft ih =>
    obtain ⟨u, hu⟩ := hes e (by simp)
    have hnone : e.notices = [] := by
      rw [notices_of_write hu hreq]
      cases ho : e.outcome with
      | ok a => rfl
      | error f =>
        rw [ho] at hleft
        cases hleft
    rw [List.flatMap_append, ih fun e he => hes e (List.mem_append_left _ he), List.flatMap_singleton, hnone]
    rfl

/-- What is noticed about the writes of a call that writes all of some data: nothing if it goes on or succeeds,
nor if it fails for having taken nothing; a failure of the system, just once, if that is what made the call
fail. -/
theorem Written.notices (h : Written o data task es)
    (hes : ∀ e ∈ es, ∃ u : Session, u.ending? = some e) :
    ((∀ f, task.stage ≠ .ended (.error f)) → es.flatMap Ending.notices = []) ∧
      ∀ f, task.stage = .ended (.error f) →
        (f.isSystem = false ∧ es.flatMap Ending.notices = []) ∨ ∃ us e, es = us ++ [e] ∧
          ((e.outcome = .error f ∧ es.flatMap Ending.notices =
              [.failed (codesOf e.now.name) (codesOf "write") (codesOf f.message) (codesOf f.label)]) ∨
            (e.outcome = .ok (.count 0) ∧ (∃ m, f = .stalled e.now.name m) ∧ es.flatMap Ending.notices = [])) := by
  cases h with
  | going h hcall hu hrest =>
    exact ⟨fun _ => notices_of_offered h hes, fun f hf => absurd hf (Task.isUnfinished_iff.1 hu _)⟩
  | done h hst =>
    refine ⟨fun _ => notices_of_offered h hes, fun f hf => ?_⟩
    rw [hst] at hf
    cases hf
  | unbegun hd hst hc =>
    refine ⟨fun _ => rfl, fun f hf => ?_⟩
    rw [hst] at hf
    cases hf
    exact .inl ⟨rfl, rfl⟩
  | @failed us e rest f h hne hreq hleft hst =>
    refine ⟨fun hno => absurd hst (hno f), fun f' hf => ?_⟩
    rw [hst] at hf
    cases hf
    obtain ⟨u, hu⟩ := hes e (by simp)
    have hlast : (us ++ [e]).flatMap Ending.notices = e.notices := by
      rw [List.flatMap_append, List.flatMap_singleton,
        notices_of_offered h fun e he => hes e (List.mem_append_left _ he), List.nil_append]
    rw [hlast, notices_of_write hu hreq]
    rcases Call.leftAfter_eq_error hleft with hf | ⟨hzero, rfl⟩
    · simp only [hf]
      cases hsys : f.isSystem with
      | false => exact .inl ⟨rfl, rfl⟩
      | true => exact .inr ⟨us, e, rfl, .inl ⟨hf, rfl⟩⟩
    · simp only [hzero]
      exact .inr ⟨us, e, rfl, .inr ⟨hzero, ⟨_, rfl⟩, trivial⟩⟩

/-- On every run, whatever stands behind the outlet and whoever else uses it.  As long as writing all of some data
has not failed, nothing is noticed about its writes.  If it failed, the failure is noticed just once, as that of a
write through what the outlet is for, if it is one of the system and a write has failed with it.  Nothing is
noticed if the failure is not one of the system, nor if the last write has taken nothing. -/
theorem failure_of_write_all {out err : Stream.Traits} {past₀ : List Session} (h₀ : Run (start out err) past₀ s₀)
    {x₀ : Outlet} (hx₀ : s₀.outlets[o]? = some x₀) (h : Run (s₀.spawn (.writeAll o data)).1 past s) :
    s.notices = s₀.notices ++ (past.filterMap ending?).flatMap Ending.notices ∧
      ((∀ f, s.stage? s₀.tasks.length ≠ some (.ended (.error f))) →
        (endingsOf s₀.tasks.length past).flatMap Ending.notices = []) ∧
      ∀ f, s.stage? s₀.tasks.length = some (.ended (.error f)) →
        (f.isSystem = false ∧ (endingsOf s₀.tasks.length past).flatMap Ending.notices = []) ∨
          ∃ us e, endingsOf s₀.tasks.length past = us ++ [e] ∧
            ((e.outcome = .error f ∧ (endingsOf s₀.tasks.length past).flatMap Ending.notices =
                [.failed (codesOf e.now.name) (codesOf "write") (codesOf f.message) (codesOf f.label)]) ∨
              (e.outcome = .ok (.count 0) ∧ (∃ m, f = .stalled e.now.name m) ∧
                (endingsOf s₀.tasks.length past).flatMap Ending.notices = [])) := by
  have hmove : Move s₀ (s₀.spawn (.writeAll o data)).1 := .spawn ⟨x₀, hx₀⟩
  have hs₀ := ((sound_start out err).run h₀).move hmove
  obtain ⟨task, hk, hw⟩ := h.written hs₀
  have hes : ∀ e ∈ endingsOf s₀.tasks.length past, ∃ u : Session, u.ending? = some e := by
    intro e he
    obtain ⟨u, -, he, -⟩ := mem_endingsOf.1 he
    exact ⟨u, he⟩
  obtain ⟨hquiet, hfail⟩ := hw.notices hes
  refine ⟨?_, ?_, ?_⟩
  · have hall := ((h₀.move hmove).trans h).notices
    rw [List.filterMap_append, List.flatMap_append, ← h₀.notices] at hall
    exact hall
  · simp only [ne_eq, stage?_eq_ended hk]
    exact hquiet
  · simp only [stage?_eq_ended hk]
    exact hfail

/-- A pipe for one byte, and an outlet for it. -/
def narrowPipe : Session :=
  let s := ((start .plain .plain).addPipe (.empty 1)).1
  let s := (s.addGate 0).1
  (s.addOutlet (.ofGate 0)).1

theorem run_narrowPipe : Run (start .plain .plain) [] narrowPipe := by
  have h₀ : Run (start .plain .plain) [] (start .plain .plain) := .refl
  have h₁ := h₀.move (@Move.addPipe _ 1 _ rfl)
  have h₂ := h₁.move (@Move.addGate _ 0 ⟨_, rfl⟩)
  exact h₂.move (@Move.addOutlet _ (.ofGate 0) fun b hb => by
    cases hb
    exact ⟨⟨_, rfl⟩, by simp [Outlet.ofGate]⟩)

/-- The read end is closed when one of two bytes was written to it; this is noticed once. -/
theorem notice_of_narrowPipe : ∃ past s, Run (narrowPipe.spawn (.writeAll 0 [1, 2])).1 past s ∧
    s.stage? 0 = some (.ended (.error .readerClosed)) ∧ piecesOf (endingsOf 0 past) = [1] ∧
      ∃ d, (endingsOf 0 past).flatMap Ending.notices =
        [.failed d (codesOf "write") (codesOf "pipe reader is closed") (codesOf "BrokenPipeError")] := by
  have h₁ : Run (narrowPipe.spawn (.writeAll 0 [1, 2])).1 _ _ := Run.refl.turn.turn
  have hrun := (h₁.move (@Move.spawn _ (.close 0) ⟨_, rfl⟩)).turn.turn
  have hx : narrowPipe.outlets[0]? = some (.ofGate 0) := rfl
  obtain ⟨-, -, hfail⟩ := failure_of_write_all run_narrowPipe hx hrun
  refine ⟨_, _, hrun, rfl, rfl, ?_⟩
  obtain ⟨hsys, -⟩ | ⟨us, e, -, ⟨-, hone⟩ | ⟨-, ⟨m, hm⟩, -⟩⟩ := hfail .readerClosed rfl
  · cases hsys
  · exact ⟨_, hone⟩
  · cases hm

/-- An output stream that takes nothing, and an outlet for it. -/
def stuck : Session :=
  ((start { Stream.Traits.plain with accept := some 0 } .plain).addOutlet (.ofStream .stdout)).1

/-- Nothing of one byte is taken.  Writing all of it fails in the system, and nothing is noticed. -/
theorem unnoticed_failure : ∃ s f, Run (start { Stream.Traits.plain with accept := some 0 } .plain)
    [(stuck.spawn (.writeAll 0 [1])).1] s ∧ s.stage? 0 = some (.ended (.error f)) ∧ f.isSystem = true ∧
      f.message = "stdout writer accepted 0 of 1 bytes" ∧ s.notices = [] := by
  have h₀ : Run (start { Stream.Traits.plain with accept := some 0 } .plain) [] stuck :=
    Run.refl.move (@Move.addOutlet _ (.ofStream .stdout) fun b hb => by
      cases hb
      exact ⟨trivial, by simp [Outlet.ofStream, Destination.ofStream]⟩)
  have h₁ := h₀.move (@Move.spawn _ (.writeAll 0 [1]) ⟨_, rfl⟩)
  exact ⟨_, .stalled "stdout" 1, h₁.turn, rfl, rfl, by decide, rfl⟩

end Outflow.Session
