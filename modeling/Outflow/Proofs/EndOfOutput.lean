import Outflow.Proofs.Lines
import Outflow.Proofs.Session.Order

/-!
# The end of the output is exact and permanent

Reading some bytes, or a line, returns nothing only when nothing will ever come: the read end is closed, or
the write end was shut down and the buffer is empty.  From then on every call that reads ends at once.

* `Pipe.isExhausted`: nothing will ever come;
* `Pipe.Request.IsChunk`: reading at least one byte, or a line; `reply_of_isChunk`: what it is answered;
* `Serves.atEof`, `Serves.isExhausted`: the end is permanent;
* `NothingLeft`: how a call ends that reads when nothing is left;
* `end_of_output`: all this on every run.
-/

namespace Outflow

namespace Pipe

/-- Whether nothing will ever come from a pipe. -/
def isExhausted (p : Pipe) : Bool := p.readClosed || p.atEof

/-- Whether a request reads at least one byte, or a line. -/
def Request.IsChunk (r : Request) : Prop := (∃ n, 0 < n ∧ r = .read n) ∨ r = .readLine

variable {p : Pipe} {r : Request} {x : Bytes}

theorem isExhausted_iff_of_open (h : p.readClosed = false) :
    p.isExhausted = true ↔ p.writeClosed = true ∧ p.buffer = [] := by
  simp [isExhausted, atEof, h]

/-- Nothing is left in an exhausted pipe. -/
theorem Valid.buffer_of_isExhausted (hv : p.Valid) (h : p.isExhausted = true) : p.buffer = [] := by
  by_cases hr : p.readClosed = true
  · exact hv.buffer_eq_nil hr
  · exact ((isExhausted_iff_of_open (by simpa using hr)).1 h).2

/-- The number of bytes that a request for a chunk takes, if the buffer is not empty. -/
theorem Request.IsChunk.perform (h : r.IsChunk) (p : Pipe) : ∃ n,
    p.perform r = ⟨(p.take n).2.1, (p.take n).2.2, .done (.ok (.bytes (p.take n).1))⟩ ∧
      (p.buffer.take n = [] ↔ p.buffer = []) ∧ ∀ k, r = .read k → n = k := by
  rcases h with ⟨n, hn, rfl⟩ | rfl
  · refine ⟨n, rfl, ?_, fun k hk => by cases hk; rfl⟩
    rw [List.take_eq_nil_iff, or_iff_right (Nat.pos_iff_ne_zero.1 hn)]
  · refine ⟨throughNewline p.buffer, rfl, ?_, fun k hk => by cases hk⟩
    rcases take_throughNewline p.buffer with ⟨l, rest, -, hb, htake, -⟩ | ⟨-, htake, -⟩
    · rw [htake, hb]
      simp
    · rw [htake]

theorem Request.IsChunk.isRead (h : r.IsChunk) : r.isRead = true := by
  rcases h with ⟨n, -, rfl⟩ | rfl <;> rfl

/-- A request for a chunk is put off while the buffer is empty and may still be filled. -/
theorem admits_of_isChunk (hv : p.Valid) (hr : r.IsChunk) (h : p.isExhausted = false)
    (hb : p.buffer = []) : p.admits r = false := by
  have hpos := hv.capacity_pos
  simp only [isExhausted, atEof, hb, List.isEmpty_nil, Bool.and_true, Bool.or_eq_false_iff] at h
  refine not_admits_iff.2 ⟨h.2, h.1, .inr ?_⟩
  rcases hr with ⟨n, -, rfl⟩ | rfl
  · exact .inl ⟨.inl ⟨n, rfl⟩, hb⟩
  · exact .inr ⟨rfl, by simp [hb], by rw [hb]; exact hpos⟩

/-- Reading a chunk returns nothing just when the pipe is exhausted, and never more than was asked. -/
theorem reply_of_isChunk (hv : p.Valid) (hr : r.IsChunk)
    (h : (p.serve r).reply = .done (.ok (.bytes x))) :
    (x = [] ↔ p.isExhausted = true) ∧ ∀ n, r = .read n → x.length ≤ n := by
  obtain ⟨n, hp, hnil, hn⟩ := hr.perform p
  obtain ⟨-, hs⟩ | ⟨ha, hs⟩ := serve_cases p r
  · rw [hs] at h
    cases h
  · by_cases hc : p.readClosed = true
    · rw [hs, hp, take_of_readClosed hc] at h
      cases h
      simp [isExhausted, hc]
    · rw [Bool.not_eq_true] at hc
      obtain ⟨-, -, hrep⟩ := removed_of_perform hc hr.isRead ha hp
      rw [hrep] at h
      cases h
      refine ⟨?_, fun k hk => ?_⟩
      · rw [hnil, isExhausted_iff_of_open hc]
        refine ⟨fun hb => ⟨?_, hb⟩, And.right⟩
        -- an empty buffer that may still be filled would have put the request off
        by_contra hw
        rw [admits_of_isChunk hv hr (by simp [isExhausted, atEof, hc, hw]) hb] at ha
        cases ha
      · rw [← hn k hk]
        exact List.length_take_le ..

/-- An exhausted pipe answers whoever begins to read, with nothing. -/
theorem reply_of_isExhausted (hv : p.Valid) (h : p.isExhausted = true)
    (hr : r.IsChunk ∨ r = .drain []) : (p.serve r).reply = .done (.ok (.bytes [])) := by
  have hb := hv.buffer_of_isExhausted h
  have hends : p.readClosed = true ∨ p.writeClosed = true := by
    by_cases hc : p.readClosed = true
    · exact .inl hc
    · exact .inr ((isExhausted_iff_of_open (by simpa using hc)).1 h).1
  have hadm : p.admits r = true := by
    by_contra hn
    obtain ⟨hw, hrc, -⟩ := not_admits_iff.1 (by simpa using hn)
    rcases hends with he | he
    · rw [hrc] at he
      cases he
    · rw [hw] at he
      cases he
  rw [serve_of_admits hadm]
  rcases hr with hr | rfl
  · obtain ⟨n, hp, -, -⟩ := hr.perform p
    rw [hp]
    by_cases hc : p.readClosed = true
    · rw [take_of_readClosed hc]
    · rw [take_eq (by simpa using hc), hb, List.take_nil]
  · by_cases hc : p.readClosed = true
    · simp [perform, drained, hc]
    · have hw := hends.resolve_left hc
      rw [perform_drain_of_open (by simpa using hc), hb, hw]
      rfl

end Pipe

namespace Serves

variable {b₀ b : Pipe} {vs : List Service}

/-- Once the output has ended and was read, this stays so. -/
theorem atEof (h : Serves b₀ vs b) (hend : b₀.atEof = true) : b.atEof = true := by
  simp only [Pipe.atEof, Bool.and_eq_true, List.isEmpty_iff] at hend ⊢
  exact ⟨h.writeClosed hend.1, (h.idle_of_atEof hend.1 hend.2).2.2⟩

/-- An exhausted pipe stays exhausted. -/
theorem isExhausted (h : Serves b₀ vs b) (hend : b₀.isExhausted = true) : b.isExhausted = true := by
  rw [Pipe.isExhausted, Bool.or_eq_true] at hend ⊢
  exact hend.imp h.readClosed h.atEof

/-- When reading returns nothing from an open pipe, its output has ended, and all bytes that were ever
accepted have been removed. -/
theorem read_to_end {us ws : List Service} {v : Service} (h : Serves b₀ (us ++ v :: ws) b)
    (hv : b₀.Valid) (hbuf : b₀.buffer = []) (hr : v.request.IsChunk)
    (hans : v.answer? = some (.ok (.bytes []))) (hopen : v.before.readClosed = false) :
    v.before.writeClosed = true ∧ Outflow.accepted us = Outflow.removed us ∧
      Outflow.accepted (v :: ws) = [] := by
  obtain ⟨hus, hws⟩ := h.of_append_cons
  have hex := (Pipe.reply_of_isChunk (hus.valid hv) hr (Service.reply_of_answer hans)).1.1 rfl
  obtain ⟨hw, hb⟩ := (Pipe.isExhausted_iff_of_open hopen).1 hex
  have hall := hus.conserved hopen
  rw [hbuf, List.nil_append, hb, List.append_nil] at hall
  -- what follows begins with an exhausted pipe
  have hrest : Serves v.before ([v] ++ ws) b := (Serves.singleton v).trans hws
  exact ⟨hw, hall, (hrest.idle_of_atEof hw hb).1⟩

end Serves

/-- How a call ends that reads from a pipe when nothing is left. -/
inductive NothingLeft (p : Nat) : Call → Outcome → Prop
  | read (limit : Int) : NothingLeft p (.read p limit) (.ok (.bytes []))
  | readLine : NothingLeft p (.readLine p) (.ok (.bytes []))
  | nextLine : NothingLeft p (.nextLine p) (.error .endOfLines)
  | lines (got : List Bytes) : NothingLeft p (.lines p got) (.ok (.lines got))

/-- What a call reads that can be told that nothing is left: nothing at all, a chunk, or all to the end. -/
theorem NothingLeft.operation {p : Nat} {c : Call} {o : Outcome} (h : NothingLeft p c o) :
    c.operation = .answered (.ok (.bytes [])) ∨ (∃ r, c.operation = .onPipe p r ∧ r.IsChunk) ∨
      (c.operation = .onPipe p (.drain []) ∧ ∃ limit, c = .read p limit ∧ limit < 0) := by
  cases h with
  | read limit =>
    rw [Call.operation, Operation.read]
    rcases lt_trichotomy limit 0 with hneg | rfl | hpos
    · rw [if_neg (by omega), if_neg (by omega)]
      exact .inr (.inr ⟨rfl, limit, rfl, hneg⟩)
    · exact .inl rfl
    · rw [if_neg (by omega), if_pos hpos]
      exact .inr (.inl ⟨_, rfl, .inl ⟨limit.toNat, by omega, rfl⟩⟩)
  | readLine => exact .inr (.inl ⟨_, rfl, .inr rfl⟩)
  | nextLine => exact .inr (.inl ⟨_, rfl, .inr rfl⟩)
  | lines got => exact .inr (.inl ⟨_, rfl, .inr rfl⟩)

theorem NothingLeft.resume {p : Nat} {c : Call} {o : Outcome} (h : NothingLeft p c o) (d : Destination) :
    c.resume d (.ok (.bytes [])) = .done o := by
  cases h <;> rfl

/-- A task ends with an operation if its call does. -/
theorem Task.stage_after_eq_ended {task : Task} {d : Destination}
    {outcome o : Outcome} :
    (task.after d outcome).stage = .ended o ↔ task.call.resume d outcome = .done o := by
  unfold Task.after
  cases task.call.resume d outcome with
  | done o' => simp
  | more c => simp

namespace Session

variable {s s' : Session} {past : List Session} {t p : Nat} {task : Task} {rest : List Job} {b : Pipe}

/-! ### The turn in which a call that reads ends -/

/-- A call that has read a chunk `x` and ends for that: it ends as it does when nothing is left just if `x`
is empty. -/
theorem nothingLeft_of_chunk {c : Call} {r : Pipe.Request} {d : Destination} {x : Bytes} {o : Outcome}
    (hop : c.operation = .onPipe p r) (hr : r.IsChunk)
    (hres : c.resume d (.ok (.bytes x)) = .done o) :
    (NothingLeft p c o ↔ x = []) ∧ ∀ n : Nat, c = .read p n → o = .ok (.bytes x) := by
  have hread : ∀ {p' limit}, Operation.read p' limit = .onPipe p r → p' = p := by
    intro p' limit h
    unfold Operation.read at h
    grind
  cases c with
  | read p' limit =>
    cases hres
    rw [hread hop]
    refine ⟨⟨fun h => by cases h; rfl, fun h => ?_⟩, fun n _ => rfl⟩
    rw [h]
    exact .read limit
  | readLine p' =>
    cases hres
    cases hop
    refine ⟨⟨fun h => by cases h; rfl, fun h => ?_⟩, fun n hn => by cases hn⟩
    rw [h]
    exact .readLine
  | nextLine p' =>
    cases hop
    cases x with
    | nil =>
      cases hres
      exact ⟨iff_of_true .nextLine rfl, fun n hn => by cases hn⟩
    | cons y ys =>
      cases hres
      exact ⟨iff_of_false (fun h => by cases h) (by simp), fun n hn => by cases hn⟩
  | lines p' got =>
    cases hop
    cases x with
    | nil =>
      cases hres
      exact ⟨iff_of_true (.lines got) rfl, fun n hn => by cases hn⟩
    | cons y ys => cases hres
  | forward p' limit o' total leg =>
    cases leg with
    | read => cases x <;> cases hres
    | write rest size => cases hop
    | flush => cases hop
  | writeAll o' rest => cases rest <;> cases hop
  | close p' =>
    cases hop
    rcases hr with ⟨n, -, hr⟩ | hr <;> cases hr
  | idle => cases hop
  | backing => cases hop
  | outlet => cases hop

/-- The service of a task that reads a chunk is a request for this chunk. -/
theorem Pursues.isChunk {v : Service} {r : Pipe.Request} {c : Call}
    (h : s.Pursues c (.inPipe v.gate v.place v.request)) (hop : c.operation = .onPipe p r)
    (hr : r.IsChunk) : v.place = p ∧ v.request = r := by
  obtain ⟨-, hp, he | ⟨got, got', rfl, -⟩⟩ := h.of_onPipe hop
  · exact ⟨hp, he⟩
  · rcases hr with ⟨n, -, hr⟩ | hr <;> cases hr

/-- A call that is to read a chunk and ends in its turn was cancelled, or returns what it has read: nothing
just when the pipe is exhausted. -/
theorem ends_of_isChunk (h : Sound s none none) (hb : s.pipe? p = some b)
    (hr : s.ready = .task t :: rest) (hk : s.tasks[t]? = some task) {r : Pipe.Request} {o : Outcome}
    (hop : task.call.operation = .onPipe p r) (hc : r.IsChunk)
    (ho : s.turn.stage? t = some (.ended o)) :
    (task.cancelling = true ∧ o = .error .cancelled) ∨ (task.cancelling = false ∧
      ∃ d x, task.call.resume d (.ok (.bytes x)) = .done o ∧ (x = [] ↔ b.isExhausted = true) ∧
        (NothingLeft p task.call o ↔ b.isExhausted = true) ∧
          ∀ n : Nat, task.call = .read p n → o = .ok (.bytes x) ∧ x.length ≤ n) := by
  obtain ⟨task', hk', hf⟩ := (turn_course h hr hk).fate
  rw [stage?_of_task hk', Option.some.injEq] at ho
  cases hf with
  | cancelled entry hcan hv =>
    cases ho
    exact .inl ⟨hcan, rfl⟩
  | answered entry d outcome hv hst hno => exact absurd hop (hno p r)
  | queued entry hv hst haim => cases ho
  | waits entry hv ht hpur hrep => cases ho
  | @served entry d v outcome hv ht hpur hans =>
    obtain ⟨hp, hreq⟩ := hpur.isChunk hop hc
    obtain ⟨-, task₀, -, hk₀, hlive, hb₀⟩ := service?_eq_some hv
    rw [ht, hk] at hk₀
    cases hk₀
    rw [hp, hb] at hb₀
    cases hb₀
    have hrep := Service.reply_of_answer hans
    obtain ⟨x, rfl⟩ : ∃ x, outcome = .ok (.bytes x) := by
      rcases Service.answer?_of_chunk (v := v) (by rw [hreq]; exact hc.imp (fun ⟨n, _, h⟩ => ⟨n, h⟩) id)
        with ⟨hnone, -⟩ | hsome
      · rw [hans] at hnone
        cases hnone
      · rw [hans] at hsome
        exact ⟨_, Option.some.inj hsome⟩
    obtain ⟨hnil, hlen⟩ := Pipe.reply_of_isChunk (h.housed.valid p _ hb) (hreq ▸ hc) hrep
    have hres := Task.stage_after_eq_ended.1 ho
    change task.call.resume d (.ok (.bytes x)) = .done o at hres
    obtain ⟨hleft, hread⟩ := nothingLeft_of_chunk hop hc hres
    refine .inr ⟨hlive, d, x, hres, hnil, hleft.trans hnil, fun n hn => ⟨hread n hn, hlen n ?_⟩⟩
    have hread : Operation.read p n = .onPipe p r := by rw [← hop, hn]; rfl
    unfold Operation.read at hread
    rw [hreq]
    grind

/-! ### The end is permanent -/

/-- A call that is answered at once asks no backing. -/
theorem not_aims_of_answered {c : Call} {outcome : Outcome} (h : c.operation = .answered outcome)
    {b : Backing} {q : Sink.Request} : ¬ s.Aims c b q := by
  rintro (ha | ⟨o, x, ha, -, -⟩)
  · rw [h] at ha
    cases ha
  · rw [h] at ha
    cases ha

/-- A call that is answered at once comes to no pipe. -/
theorem not_pursues_of_answered {c : Call} {outcome : Outcome} (h : c.operation = .answered outcome)
    {gate : Option Nat} {r : Pipe.Request} : ¬ s.Pursues c (.inPipe gate p r) := by
  cases gate with
  | some g =>
    rintro ⟨q, -, ha, -⟩
    exact not_aims_of_answered h ha
  | none =>
    rintro ⟨-, ⟨q, -, ha⟩ | ⟨r₀, ha, -⟩⟩
    · exact not_aims_of_answered h ha
    · rw [h] at ha
      cases ha

/-- Whoever reads from an exhausted pipe is told in its turn that nothing is left; a call that reads to the
end must not have begun before. -/
theorem ends_of_isExhausted (h : Sound s none none) (hb : s.pipe? p = some b)
    (hend : b.isExhausted = true) (hr : s.ready = .task t :: rest) (hk : s.tasks[t]? = some task)
    (hlive : task.cancelling = false) {o : Outcome} (hleft : NothingLeft p task.call o)
    (hfresh : ∀ limit, task.call = .read p limit → limit < 0 → task.stage = .fresh) :
    s.turn.stage? t = some (.ended o) := by
  obtain ⟨task', hk', hf⟩ := (turn_course h hr hk).fate
  rw [stage?_of_task hk', Option.some.injEq]
  -- it is enough that the operation is answered with nothing
  have hafter : ∀ entry d outcome, outcome = .ok (.bytes []) →
      (Task.after { task with entry } d outcome).stage = .ended o := by
    rintro entry d outcome rfl
    exact Task.stage_after_eq_ended.2 (hleft.resume d)
  have hserved : ∀ v, s.service? = some v → v.task = t →
      s.Pursues task.call (.inPipe v.gate v.place v.request) →
        (v.before.serve v.request).reply = .done (.ok (.bytes [])) := by
    intro v hv ht hpur
    obtain ⟨-, -, -, -, -, hb₀⟩ := service?_eq_some hv
    rcases hleft.operation with hop | ⟨r, hop, hc⟩ | ⟨hop, limit, hcall, hneg⟩
    · exact absurd hpur (not_pursues_of_answered hop)
    · obtain ⟨rfl, hreq⟩ := hpur.isChunk hop hc
      rw [hb] at hb₀
      cases hb₀
      rw [hreq]
      exact Pipe.reply_of_isExhausted (h.housed.valid _ _ hb) hend (.inl hc)
    · rw [service?_eq hr hk hlive, errand?, hfresh limit hcall hneg] at hv
      simp only [hop, opening?] at hv
      rw [serviceOf?_some _ hb] at hv
      cases hv
      exact Pipe.reply_of_isExhausted (h.housed.valid _ _ hb) hend (.inr rfl)
  cases hf with
  | cancelled entry hcan => rw [hlive] at hcan; cases hcan
  | @answered entry d outcome hv hst hno hout hc hans =>
    refine hafter entry d outcome ?_
    rcases hleft.operation with hop | ⟨r, hop, -⟩ | ⟨hop, -⟩
    · rw [hop] at hans
      exact (Option.some.inj hans).symm
    · exact absurd hop (hno p r)
    · exact absurd hop (hno p _)
  | queued entry hv hst haim =>
    rcases hleft.operation with hop | ⟨r, hop, -⟩ | ⟨hop, -⟩
    · exact absurd haim (not_aims_of_answered hop)
    · exact absurd hop (operation_of_aims haim p r)
    · exact absurd hop (operation_of_aims haim p _)
  | waits entry hv ht hpur hrep =>
    rw [hserved _ hv ht hpur] at hrep
    cases hrep
  | @served entry d v outcome hv ht hpur hans =>
    have hrep := Service.reply_of_answer hans
    rw [hserved v hv ht hpur] at hrep
    cases hrep
    exact hafter entry d _ rfl

/-- On every run, whoever writes, reads, shuts down, closes or is cancelled.  Reading a chunk returns nothing
just when the pipe is exhausted at that moment, and never more than was asked; while the pipe is empty and may
still be filled it goes on waiting, whoever took the bytes.  A call that ends with reading a chunk was
cancelled or ends so.  When nothing is returned with the read end open, all bytes accepted were removed
before, and none is accepted later.  The end is permanent: from then on every call that reads is told in the
turn in which it runs that nothing is left. -/
theorem end_of_output {out err : Stream.Traits} (h : Run (start out err) past s)
    (hb : s.pipe? p = some b) :
    (∀ v ∈ history p past, v.request.IsChunk →
      (∀ x, v.answer? = some (.ok (.bytes x)) →
        (x = [] ↔ v.before.isExhausted = true) ∧ ∀ n, v.request = .read n → x.length ≤ n) ∧
      (v.before.isExhausted = false → v.before.buffer = [] → v.answer? = none)) ∧
    (∀ t rest task r o, s.ready = .task t :: rest → s.tasks[t]? = some task →
      task.call.operation = .onPipe p r → r.IsChunk → s.turn.stage? t = some (.ended o) →
        (task.cancelling = true ∧ o = .error .cancelled) ∨ (task.cancelling = false ∧
          ∃ d x, task.call.resume d (.ok (.bytes x)) = .done o ∧ (x = [] ↔ b.isExhausted = true) ∧
            (NothingLeft p task.call o ↔ b.isExhausted = true) ∧
              ∀ n : Nat, task.call = .read p n → o = .ok (.bytes x) ∧ x.length ≤ n)) ∧
    (∀ us v ws, history p past = us ++ v :: ws → v.request.IsChunk →
      v.answer? = some (.ok (.bytes [])) → v.before.readClosed = false →
        v.before.writeClosed = true ∧ accepted us = removed us ∧ accepted (v :: ws) = []) ∧
    (∀ past' s', Run s past' s' → ∃ b', s'.pipe? p = some b' ∧ (b.atEof = true → b'.atEof = true) ∧
      (b.readClosed = true → b'.readClosed = true) ∧
      (b.isExhausted = true → ∀ t rest task o, s'.ready = .task t :: rest →
        s'.tasks[t]? = some task → task.cancelling = false → NothingLeft p task.call o →
          (∀ limit, task.call = .read p limit → limit < 0 → task.stage = .fresh) →
            s'.turn.stage? t = some (.ended o))) := by
  have hs := (sound_start out err).run h
  obtain ⟨b₀, hv, hbuf, -, hserves⟩ := h.history hb
  refine ⟨fun v hmem hr => ?_, fun t rest task r o hready hk hop hr ho =>
    ends_of_isChunk hs hb hready hk hop hr ho, fun us v ws hus hr hans hopen => ?_,
    fun past' s' h' => ?_⟩
  · obtain ⟨us, ws, hus⟩ := List.append_of_mem hmem
    rw [hus] at hserves
    have hvalid := hserves.of_append_cons.1.valid hv
    refine ⟨fun x hans => Pipe.reply_of_isChunk hvalid hr (Service.reply_of_answer hans),
      fun hex hempty => ?_⟩
    rw [Service.answer?, Pipe.serve_of_not_admits (Pipe.admits_of_isChunk hvalid hr hex hempty)]
  · rw [hus] at hserves
    exact hserves.read_to_end hv hbuf hr hans hopen
  · obtain ⟨b', hb', hserves'⟩ := h'.serves hs hb
    exact ⟨b', hb', hserves'.atEof, hserves'.readClosed, fun hex t rest task o hr hk hlive hleft hfresh =>
      ends_of_isExhausted (hs.run h') hb' (hserves'.isExhausted hex) hr hk hlive hleft hfresh⟩

/-- A pipe, two tasks that are to read a byte each, and one that is to write a byte. -/
def twoReaders : Session :=
  let s := ((start .plain .plain).addPipe (.empty 4)).1
  let s := (s.spawn (.read 0 1)).1
  let s := (s.spawn (.read 0 1)).1
  (s.spawn (.backing (.pipe 0) (.write [7]))).1

/-- The byte woke both readers and went to the first; then the write end was shut down. -/
def outOfBytes : Session := ((turn^[5] twoReaders).spawn (.backing (.pipe 0) .shutdown)).1.turn

theorem run_outOfBytes : Run (start .plain .plain) (List.iterate turn twoReaders 5 ++
    [((turn^[5] twoReaders).spawn (.backing (.pipe 0) .shutdown)).1]) outOfBytes := by
  have h₀ : Run (start .plain .plain) [] (start .plain .plain) := .refl
  have h₁ := h₀.move (@Move.addPipe _ 4 _ rfl)
  have h₂ := h₁.move (@Move.spawn _ (.read 0 1) ⟨_, rfl⟩)
  have h₃ := h₂.move (@Move.spawn _ (.read 0 1) ⟨_, rfl⟩)
  have h₄ := h₃.move (@Move.spawn _ (.backing (.pipe 0) (.write [7])) ⟨_, rfl⟩)
  have h₅ := (h₄.iterate 5).move (@Move.spawn _ (.backing (.pipe 0) .shutdown) ⟨_, rfl⟩)
  exact h₅.turn

/-- The second reader had its turn when the byte was taken, and waited on; only after the shutdown it is told
that nothing is left. -/
theorem outOfBytes_ends : (turn^[5] twoReaders).stage? 0 = some (.ended (.ok (.bytes [7]))) ∧
    (turn^[5] twoReaders).stage? 1 = some (.inPipe none 0 (.read 1)) ∧
      outOfBytes.turn.stage? 1 = some (.ended (.ok (.bytes []))) := by
  refine ⟨rfl, rfl, ?_⟩
  have hb : outOfBytes.pipe? 0 = some ⟨[], 4, true, false⟩ := rfl
  obtain ⟨b', -, -, -, hends⟩ := (end_of_output run_outOfBytes hb).2.2.2 [] _ .refl
  exact hends rfl 1 [] ⟨.read 0 1, .inPipe none 0 (.read 1), .null, false⟩ _ rfl rfl rfl (.read 1) nofun

end Session

end Outflow
