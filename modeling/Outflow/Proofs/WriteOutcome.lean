import Outflow.Proofs.Conservation
import Outflow.Proofs.WriteAll

/-!
# How every write ends

Between the moment in which a write is woken and its turn, other writes may have filled the pipe again, or an
end of it may have been closed.  What decides is the pipe at the turn in which the write ends.

* `Pipe.WriteEnds`: how a write ends at a pipe, and what it leaves;
* `Pipe.writeEnds_of_reply`, `full_of_wait_write`: a write ends so, and it is put off only for want of room;
* `Session.WritesTo`, `Session.WriteTurn`: an operation that writes to a pipe, and what becomes of it in a turn;
* `WritesTo.turn`: it becomes one of these;
* `Run.turn_of_ended`: a task that has ended on a run did so in one of its turns;
* `outcome_of_write`: all this on every run, and what it means once an end is closed.
-/

namespace Outflow

namespace Pipe

variable {p q : Pipe} {data : Bytes} {o : Outcome}

/-- How a write of `data` to a pipe ends: it fails just if an end is closed, and then the pipe stays as it is;
or else it adds what fits, which is something if there is anything to write. -/
structure WriteEnds (p : Pipe) (data : Bytes) (o : Outcome) (q : Pipe) : Prop where
  fails_iff : (∃ f : Fault, o = .error f ∧ f.label = "BrokenPipeError") ↔ p.isClosing = true
  readerClosed : p.readClosed = true →
    ∃ f : Fault, o = .error f ∧ f.message = "pipe reader is closed"
  writerShutDown : p.readClosed = false → p.writeClosed = true →
    ∃ f : Fault, o = .error f ∧ f.message = "write after pipe shutdown"
  unchanged : p.isClosing = true → q = p
  counts : p.isClosing = false → o = .ok (.count (min data.length (p.capacity - p.buffer.length)))
  appends : p.isClosing = false →
    q = { p with buffer := p.buffer ++ data.take (min data.length (p.capacity - p.buffer.length)) }
  takesSome : p.isClosing = false → data ≠ [] →
    1 ≤ min data.length (p.capacity - p.buffer.length)

/-- A write is put off only while the pipe is open and full, and never if there is nothing to write. -/
theorem full_of_wait_write {again : Request} (h : (p.serve (.write data)).reply = .wait again) :
    (p.serve (.write data)).pipe = p ∧ p.isClosing = false ∧ data ≠ [] ∧
      p.capacity ≤ p.buffer.length := by
  obtain ⟨hadm, ⟨rfl, hsame⟩ | ⟨got, hreq, -⟩⟩ := wait_cases h
  · rw [hsame] at hadm
    obtain ⟨hw, hr, ⟨data', hd, hne, hfull⟩ | ⟨⟨n, hreq⟩ | ⟨got, hreq⟩, -⟩ | ⟨hreq, -⟩⟩ :=
      not_admits_iff.1 hadm
    · cases hd
      exact ⟨hsame, by rw [isClosing, hw, hr]; rfl, hne, hfull⟩
    · cases hreq
    · cases hreq
    · cases hreq
  · cases hreq

/-- A write that a pipe answers ends as the ends and the room of the pipe say. -/
theorem writeEnds_of_reply (h : (p.serve (.write data)).reply = .done o) :
    p.WriteEnds data o (p.serve (.write data)).pipe := by
  obtain ⟨-, hs⟩ | ⟨hadm, hs⟩ := serve_cases p (.write data)
  · rw [hs] at h
    cases h
  rw [hs] at h ⊢
  cases hc : p.isClosing with
  | true =>
    rw [perform_write_of_isClosing hc] at h ⊢
    cases h
    refine ⟨iff_of_true ⟨_, rfl, ?_⟩ hc, fun hr => ⟨_, rfl, ?_⟩, fun hr _ => ⟨_, rfl, ?_⟩, fun _ => rfl,
      ?_, ?_, ?_⟩
    · split <;> rfl
    · rw [hr]
      rfl
    · rw [hr]
      rfl
    all_goals
      rw [hc]
      intro hopen
      cases hopen
  | false =>
    obtain ⟨hw, hr⟩ := Bool.or_eq_false_iff.1 hc
    rw [perform_write_of_open hr hw] at h ⊢
    cases h
    refine ⟨iff_of_false ?_ (by simp [hc]), fun hr' => ?_, fun _ hw' => ?_, fun hc' => ?_, fun _ => rfl,
      fun _ => rfl, fun _ hne => ?_⟩
    · rintro ⟨f, hf, -⟩
      cases hf
    · rw [hr] at hr'
      cases hr'
    · rw [hw] at hw'
      cases hw'
    · rw [hc] at hc'
      cases hc'
    · -- the pipe has admitted the write, so that it is not full
      have hroom : p.buffer.length < p.capacity := by simpa [admits, hw, hr, hne] using hadm
      have hlen := List.length_pos_iff.2 hne
      omega

end Pipe

/-- A write that a service answers ends as the pipe says that the service finds. -/
theorem Service.writeEnds {v : Service} {data : Bytes} {o : Outcome} (hr : v.request = .write data)
    (hans : v.answer? = some o) : v.before.WriteEnds data o v.after := by
  have hrep := reply_of_answer hans
  rw [after]
  rw [hr] at hrep ⊢
  exact Pipe.writeEnds_of_reply hrep

namespace Session

variable {s s' s₀ : Session} {past : List Session} {t p : Nat} {task : Task} {rest : List Job}
  {data : Bytes} {o : Outcome} {b : Pipe}

/-- Whether the present operation of a call writes some data to a pipe, raw, through a gate or through an
outlet. -/
def WritesTo (s : Session) (c : Call) (p : Nat) (data : Bytes) : Prop :=
  ∃ b, s.Aims c b (.write data) ∧ s.LeadsTo b p

/-- Whether the present operation of a task ends with an outcome in the next turn; its call ends or goes on
with that. -/
def EndsWith (s : Session) (t : Nat) (task : Task) (o : Outcome) : Prop :=
  ∃ entry d, s.turn.tasks[t]? = some (Task.after { task with entry } d o)

/-- What becomes of a write of `data` to the pipe `p`, which is `b`, in the turn of its task. -/
inductive WriteTurn (s : Session) (t : Nat) (task : Task) (p : Nat) (b : Pipe) (data : Bytes) : Prop
  /-- It has just begun and queues for its gate. -/
  | queues (g : Nat) (hst : task.stage = .fresh) (hpl : s.turn.place? t = some (.gate g))
    (hb : s.turn.pipe? p = some b)
  /-- There is something to write and no room for it. -/
  | waits (hpl : s.turn.place? t = some (.pipe p)) (hb : s.turn.pipe? p = some b)
    (hopen : b.isClosing = false) (hne : data ≠ []) (hfull : b.capacity ≤ b.buffer.length)
  | cancelled (hc : task.cancelling = true) (ho : s.EndsWith t task (.error .cancelled))
    (hb : s.turn.pipe? p = some b)
  /-- The outlet was given an unknown destination, so that no pipe is asked. -/
  | unhandled (name : Text.Codes) (hst : task.stage = .fresh)
    (ho : s.EndsWith t task (.error (.unhandled name))) (hb : s.turn.pipe? p = some b)
  | ends (o : Outcome) (b' : Pipe) (ho : s.EndsWith t task o) (hb : s.turn.pipe? p = some b')
    (hends : b.WriteEnds data o b')

theorem WritesOnce.writesTo {c : Call} (h : s.WritesOnce c p data) : s.WritesTo c p data := h.2

/-- What a call asks is there. -/
theorem Aims.has {c : Call} {x : Backing} {q : Sink.Request} (h : s.Aims c x q) (hh : Housed s)
    (hf : s.Fits c) : s.Has x := by
  rcases h with hop | ⟨o, y, -, hy, hx⟩
  · exact hf.onBacking hop
  · exact (hh.backing y (List.mem_of_getElem? hy) x hx).1

/-- The pipe to which a call writes is there. -/
theorem WritesTo.has {c : Call} (h : s.WritesTo c p data) (hh : Housed s) (hf : s.Fits c) :
    ∃ b, s.pipe? p = some b := by
  obtain ⟨x, haim, rfl | ⟨g, rfl, hg⟩⟩ := h
  · exact haim.has hh hf
  · exact hh.gatePipe g p hg

/-- A call that writes to a pipe did so before, if it was there. -/
theorem WritesTo.of_extends {c : Call} (h : s'.WritesTo c p data) (he : Extends s s') (hh : Housed s)
    (hf : s.Fits c) : s.WritesTo c p data := by
  obtain ⟨x, haim, hl⟩ := h
  have haim₀ := (he.aims_iff hf).1 haim
  refine ⟨x, haim₀, ?_⟩
  rcases hl with rfl | ⟨g, rfl, hg⟩
  · exact .inl rfl
  · obtain ⟨p', hp'⟩ : s.Has (.gate g) := haim₀.has hh hf
    rw [he.gatePipe g p' hp'] at hg
    cases hg
    exact .inr ⟨g, rfl, hp'⟩

/-- What becomes of a write in the turn of its task. -/
theorem WritesTo.turn (hw : s.WritesTo task.call p data) (h : Sound s none none)
    (hr : s.ready = .task t :: rest) (hk : s.tasks[t]? = some task) (hb : s.pipe? p = some b) :
    s.WriteTurn t task p b data := by
  obtain ⟨x, haim, hl⟩ := hw
  have hidle : s.service? = none → s.turn.pipe? p = some b := fun hv => by
    rw [pipe?_turn h, pipesAfter_of_none hv, hb]
  -- the service of the task, if there is one, is the write at this pipe
  have hserved : ∀ v, s.service? = some v →
      s.Pursues task.call (.inPipe v.gate v.place v.request) →
        v.place = p ∧ v.request = .write data ∧ v.before = b ∧ s.turn.pipe? p = some v.after := by
    intro v hv hpur
    obtain ⟨hreq, hleads, -⟩ := hpur.of_aims haim
    obtain rfl := hleads.unique hl
    refine ⟨rfl, hreq, Option.some.inj ((before_of_service? hv).symm.trans hb), ?_⟩
    rw [pipe?_turn h, pipesAfter_of_service hv, Function.update_self]
  obtain ⟨task', hk', hf⟩ := (turn_course h hr hk).fate
  cases hf with
  | cancelled entry hc hv =>
    exact .cancelled hc ⟨entry, .null, by rw [hk', Task.after_error]⟩ (hidle hv)
  | @answered entry d outcome hv hst hop hout hc hans =>
    rcases haim with hcall | ⟨place, y, hcall, hy, hx⟩
    · rw [hcall] at hans
      rcases hl with rfl | ⟨g, rfl, -⟩ <;> cases hans
    · rw [hcall] at hans
      obtain ⟨name, rfl⟩ := answer?_of_leadsTo h hy hx hl hans
      exact .unhandled name hst ⟨entry, d, hk'⟩ (hidle hv)
  | @queued entry g q hv hst haim' =>
    exact .queues g hst (by rw [place?_of_task hk']; rfl) (hidle hv)
  | @waits entry v again hv ht hpur hrep =>
    obtain ⟨rfl, hreq, rfl, hafter⟩ := hserved v hv hpur
    rw [hreq] at hrep
    obtain ⟨hsame, hopen, hne, hfull⟩ := Pipe.full_of_wait_write hrep
    refine .waits (by rw [place?_of_task hk']; rfl) ?_ hopen hne hfull
    rw [hafter, Service.after, hreq, hsame]
  | @served entry d v outcome hv ht hpur hans =>
    obtain ⟨rfl, hreq, rfl, hafter⟩ := hserved v hv hpur
    exact .ends outcome v.after ⟨entry, d, hk'⟩ hafter (Service.writeEnds hreq hans)

/-- An operation whose call is of no other ends the task. -/
theorem EndsWith.stage? (h : s.EndsWith t task o) (hc : task.call.isSingle = true) :
    s.turn.stage? t = some (.ended o) := by
  obtain ⟨entry, d, hk⟩ := h
  rw [stage?_of_task hk, Task.after_of_isSingle (show ({ task with entry } : Task).call.isSingle = true from hc)]

/-- A write that is the only operation of its call, and ends the task, has failed without asking the pipe, as
it was cancelled or its outlet was for nothing known, or it ends as the pipe says. -/
theorem WriteTurn.of_stage (h : s.WriteTurn t task p b data) (hc : task.call.isSingle = true)
    (ho : s.turn.stage? t = some (.ended o)) :
    o = .error .cancelled ∨ (∃ name, o = .error (.unhandled name)) ∨
      ∃ b', s.turn.pipe? p = some b' ∧ b.WriteEnds data o b' := by
  have hsame : ∀ {o'}, s.EndsWith t task o' → o = o' := by
    intro o' hends
    have hst := hends.stage? hc
    rw [ho] at hst
    cases hst
    rfl
  have hplace : ∀ {a : Place}, s.turn.place? t ≠ some a := by
    intro a
    rw [place?_of_stage ho]
    exact nofun
  cases h with
  | queues g hst hpl => exact absurd hpl hplace
  | waits hpl => exact absurd hpl hplace
  | cancelled hcan hends => exact .inl (hsame hends)
  | unhandled name hst hends => exact .inr (.inl ⟨name, hsame hends⟩)
  | ends o' b' hends hb hw =>
    rw [hsame hends]
    exact .inr (.inr ⟨b', hb, hw⟩)

/-! ### Runs -/

/-- A task that has ended on a run did so in one of its turns. -/
theorem Run.turn_of_ended (h : Run s₀ past s) (hs : Sound s₀ none none) (hk : s.tasks[t]? = some task)
    (hst : task.stage = .ended o) (hnew : s₀.stage? t ≠ some (.ended o)) :
    ∃ us u vs rest task₀ task₁, past = us ++ u :: vs ∧ u.ready = .task t :: rest ∧
      u.tasks[t]? = some task₀ ∧ u.turn.tasks[t]? = some task₁ ∧ Fate u t task₀ task₁ ∧
        task₁.stage = .ended o ∧ task₁.call = task.call := by
  induction h generalizing task with
  | refl => exact absurd (by rw [stage?_of_task hk, hst]) hnew
  | @turn past s h ih =>
    obtain ⟨task₀, hk₀⟩ := task_before_turn (hs.run h) hk
    rcases task_turn (hs.run h) hk₀ with ⟨rest, task₁, hr, hk₁, hf⟩ | ⟨hsame, -⟩
    · rw [hk] at hk₁
      cases hk₁
      exact ⟨past, s, [], rest, task₀, task, rfl, hr, hk₀, hk, hf, hst, rfl⟩
    · rw [hk] at hsame
      cases hsame
      obtain ⟨us, u, vs, rest, hrest⟩ := ih hk₀ hst
      obtain ⟨task₂, task₁, rfl, hturn⟩ := hrest
      exact ⟨us, u, vs ++ [s], rest, task₂, task₁, by simp, hturn⟩
  | @move past s s' h hm ih =>
    rcases hm.task (hs.run h) hk with ⟨task₀, hk₀, hcall, hstage, -⟩ | ⟨-, hfresh⟩
    · rw [hcall]
      exact ih hk₀ (hstage.symm.trans hst)
    · rw [hst] at hfresh
      cases hfresh

/-- A call that writes once, and has ended on a run with an answer of its pipe, did so in one of its turns, as
the pipe was then. -/
theorem Run.write_ended (h : Run s₀ past s) (hs : Sound s₀ none none) (hk : s.tasks[t]? = some task)
    (hw : s.WritesOnce task.call p data) (hst : task.stage = .ended o)
    (hnew : s₀.stage? t ≠ some (.ended o)) (hcan : o ≠ .error .cancelled)
    (hknown : ∀ name, o ≠ .error (.unhandled name)) :
    ∃ us u vs b b', past = us ++ u :: vs ∧ (∃ rest, u.ready = .task t :: rest) ∧
      u.turn.stage? t = some (.ended o) ∧ u.pipe? p = some b ∧ u.turn.pipe? p = some b' ∧
        b.WriteEnds data o b' := by
  obtain ⟨us, u, vs, rest, task₀, task₁, rfl, hr, hk₀, hk₁, hf, hst₁, hcall₁⟩ :=
    h.turn_of_ended hs hk hst hnew
  obtain ⟨hrun, hrun'⟩ := h.split rfl
  have hu := hs.run hrun
  have hsingle : task₁.call.isSingle = true := by
    rw [hcall₁]
    exact hw.1
  have hcall₀ : task.call = task₀.call := hcall₁.symm.trans (hf.call hsingle)
  rw [hcall₀] at hw
  have hfits := hu.employed.fits t task₀ hk₀
  have hw₀ : u.WritesTo task₀.call p data :=
    hw.writesTo.of_extends ((extends_turn hu).trans (hrun'.extends hu.turn)) hu.housed hfits
  obtain ⟨b, hb⟩ := hw₀.has hu.housed hfits
  have ho : u.turn.stage? t = some (.ended o) := by rw [stage?_of_task hk₁, hst₁]
  rcases (hw₀.turn hu hr hk₀ hb).of_stage hw.1 ho with rfl | ⟨name, rfl⟩ | ⟨b', hb', hends⟩
  · exact absurd rfl hcan
  · exact absurd rfl (hknown name)
  · exact ⟨us, u, vs, b, b', rfl, ⟨rest, hr⟩, ho, hb, hb', hends⟩

/-- Once an end of a pipe is closed, no write that it answers succeeds or changes it. -/
theorem Run.write_fails (h : Run s₀ past s) (hs : Sound s₀ none none) (hb : s₀.pipe? p = some b)
    (hc : b.isClosing = true) {v : Service} (hv : v ∈ Session.history p past)
    (hr : v.request = .write data) (hans : v.answer? = some o) : (∃ f, o = .error f) ∧ v.after = v.before := by
  obtain ⟨us, vs, he⟩ := List.append_of_mem hv
  obtain ⟨b', -, hserves⟩ := h.serves hs hb
  rw [he] at hserves
  have hclosing := hserves.of_append_cons.1.isClosing hc
  have hends := Service.writeEnds hr hans
  obtain ⟨f, hf, -⟩ := hends.fails_iff.2 hclosing
  exact ⟨⟨f, hf⟩, hends.unchanged hclosing⟩

/-- Once an end of a pipe is closed, no call that writes to it succeeds any more. -/
theorem Run.not_written (h : Run s₀ past s) (hs : Sound s₀ none none) (hb : s₀.pipe? p = some b)
    (hc : b.isClosing = true) (hk : s.tasks[t]? = some task) (hw : s.WritesOnce task.call p data)
    {a : Answer} (hst : task.stage = .ended (.ok a)) : s₀.stage? t = some (.ended (.ok a)) := by
  by_contra hnew
  obtain ⟨us, u, vs, b₁, b₂, rfl, -, -, hb₁, -, hends⟩ := h.write_ended hs hk hw hst hnew nofun nofun
  obtain ⟨b', hb', hserves⟩ := (h.split rfl).1.serves hs hb
  rw [hb₁] at hb'
  cases hb'
  obtain ⟨f, hf, -⟩ := hends.fails_iff.2 (hserves.isClosing hc)
  cases hf

/-- On every run, whoever writes, reads, shuts down, closes or is cancelled.  Every write that a pipe answers,
whether of a call that only writes or of a part of one, ends as the ends and the room of the pipe say at
that moment.  In the turn of its task a write queues for its gate, or waits for room, which an empty one never
does, or is cancelled, or ends so; and a call that writes once, if it has ended and was not cancelled, had
such a turn.  Once an end is closed no write succeeds, also none that was woken before. -/
theorem outcome_of_write {out err : Stream.Traits} (h : Run (start out err) past s)
    (hb : s.pipe? p = some b) :
    (∀ v ∈ history p past, ∀ data o, v.request = .write data → v.answer? = some o →
      v.before.WriteEnds data o v.after) ∧
    (∀ t rest task data, s.ready = .task t :: rest → s.tasks[t]? = some task →
      s.WritesTo task.call p data → s.WriteTurn t task p b data) ∧
    (∀ t task data o, s.tasks[t]? = some task → s.WritesOnce task.call p data →
      task.stage = .ended o → o ≠ .error .cancelled → (∀ name, o ≠ .error (.unhandled name)) →
        ∃ us u vs b₁ b₂, past = us ++ u :: vs ∧ (∃ rest, u.ready = .task t :: rest) ∧
          u.turn.stage? t = some (.ended o) ∧ u.pipe? p = some b₁ ∧ u.turn.pipe? p = some b₂ ∧
            b₁.WriteEnds data o b₂) ∧
    (b.isClosing = true → ∀ past' s', Run s past' s' →
      (∀ v ∈ history p past', ∀ data o, v.request = .write data → v.answer? = some o →
        (∃ f, o = .error f) ∧ v.after = v.before) ∧
      ∀ t task data a, s'.tasks[t]? = some task → s'.WritesOnce task.call p data →
        task.stage = .ended (.ok a) → s.stage? t = some (.ended (.ok a))) := by
  have hs₀ := sound_start out err
  have hs := hs₀.run h
  refine ⟨fun v _ data o => Service.writeEnds, fun t rest task data hr hk hw => hw.turn hs hr hk hb,
    fun t task data o hk hw hst hcan hknown => h.write_ended hs₀ hk hw hst ?_ hcan hknown,
    fun hc past' s' h' => ⟨fun v hv data o => h'.write_fails hs hb hc hv,
      fun t task data a hk hw hst => h'.not_written hs hb hc hk hw hst⟩⟩
  -- no task has ended at the start
  exact nofun

/-- A byte was read from the contended pipe, which woke the second write, and then the read end was closed. -/
def overtaken : Session := (contendedRead.spawn (.close 0)).1.turn.turn

theorem run_overtaken : Run (start .plain .plain)
    ([threeWriters, threeWriters.turn, threeWriters.turn.turn] ++
      [(contendedRead.spawn (.close 0)).1, (contendedRead.spawn (.close 0)).1.turn]) overtaken := by
  have h₀ : Run contended [] contendedRead := Run.refl.move (@Move.spawn _ (.read 0 1) ⟨_, rfl⟩)
  have h₁ := h₀.move (@Move.spawn _ (.close 0) ⟨_, rfl⟩)
  exact run_contended.trans h₁.turn.turn

/-- The second write has been woken, and fails in its turn. -/
theorem overtaken_fails : overtaken.ready = [.task 1] ∧
    overtaken.stage? 1 = some (.inPipe (some 0) 0 (.write [2])) ∧
      overtaken.pipe? 0 = some ⟨[], 1, false, true⟩ ∧
        ∃ o b', overtaken.turn.stage? 1 = some (.ended o) ∧ overtaken.turn.pipe? 0 = some b' ∧
          (⟨[], 1, false, true⟩ : Pipe).WriteEnds [2] o b' := by
  have hb : overtaken.pipe? 0 = some ⟨[], 1, false, true⟩ := rfl
  have hw : overtaken.WritesTo (.backing (.gate 0) (.write [2])) 0 [2] :=
    ⟨.gate 0, .inl rfl, .inr ⟨0, rfl, rfl⟩⟩
  have ho : overtaken.turn.stage? 1 = some (.ended (.error .readerClosed)) := rfl
  have hturn := (outcome_of_write run_overtaken hb).2.1 1 []
    ⟨.backing (.gate 0) (.write [2]), .inPipe (some 0) 0 (.write [2]), .null, false⟩ [2] rfl rfl hw
  obtain hcan | ⟨name, hname⟩ | ⟨b', hb', hends⟩ := hturn.of_stage rfl ho
  · cases hcan
  · cases hname
  · exact ⟨rfl, rfl, hb, _, b', ho, hb', hends⟩

end Session

end Outflow
