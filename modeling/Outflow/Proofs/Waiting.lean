import Outflow.Proofs.Session.History

/-!
# Who waits when a session has settled

When the ready queue is empty, every task that has not ended waits for something that only a new call can
bring about: there is no lost wake-up, and no deadlock.

* `Session.AwaitsBytes`, `AwaitsLine`, `AwaitsRoom`, `AwaitsGate`: what a task may wait for;
* `Session.Situation`, `Session.Awaits`: the four situations;
* `Session.ReaderWaits`, `Session.WriterWaits`: the calls to the two ends of a pipe that have not ended;
* `settled_situations`: each task is in just one situation, and what follows for gates and pipes.
-/

namespace Outflow.Session

variable {s : Session} {past : List Session} {t p g : Nat} {held : Option Nat} {task : Task}

/-- A task that is not to end waits in an open pipe with a request. -/
structure WaitsIn (s : Session) (t : Nat) (gate : Option Nat) (p : Nat) (r : Pipe.Request)
    (task : Task) (b : Pipe) : Prop where
  there : s.tasks[t]? = some task
  live : task.cancelling = false
  stage : task.stage = .inPipe gate p r
  pipe : s.pipe? p = some b
  isOpen : b.isClosing = false

theorem WaitsIn.task_eq {gate : Option Nat} {r : Pipe.Request} {task' : Task} {b : Pipe}
    (h : s.WaitsIn t gate p r task' b) (hk : s.tasks[t]? = some task) : task = task' :=
  Option.some.inj (hk.symm.trans h.there)

/-- A task is to read some bytes, or all, and the pipe is empty. -/
def AwaitsBytes (s : Session) (t p : Nat) : Prop :=
  ∃ r task b limit, s.WaitsIn t none p r task b ∧ task.call.operation = .read p limit ∧ limit ≠ 0 ∧
    b.buffer = []

/-- A task is to read a line, and the pipe holds no newline and is not full. -/
def AwaitsLine (s : Session) (t p : Nat) : Prop :=
  ∃ task b, s.WaitsIn t none p .readLine task b ∧ task.call.operation = .onPipe p .readLine ∧
    newline ∉ b.buffer ∧ b.buffer.length < b.capacity

/-- A task is to write, through a gate or not, and the pipe is full. -/
def AwaitsRoom (s : Session) (t : Nat) (gate : Option Nat) (p : Nat) : Prop :=
  ∃ task b data, s.WaitsIn t gate p (.write data) task b ∧ data ≠ [] ∧
    b.buffer.length = b.capacity ∧
    match gate with
    | none => s.Aims task.call (.pipe p) (.write data)
    | some g => s.Aims task.call (.gate g) (.write data) ∧ s.gatePipe? g = some p

/-- A task queues for a gate, and the task that holds the gate waits for room in its pipe. -/
def AwaitsGate (s : Session) (t g : Nat) : Prop :=
  ∃ task q u p, s.tasks[t]? = some task ∧ task.cancelling = false ∧
    task.stage = .atGate g (.ofSink q) ∧ s.Aims task.call (.gate g) q ∧ s.gatePipe? g = some p ∧
    s.holder? g = some u ∧ s.AwaitsRoom u (some g) p

/-- What a task waits for. -/
inductive Situation
  | bytes
  | line
  | room
  | gate
  deriving DecidableEq

/-- Whether a task is in a situation. -/
def Awaits (s : Session) (t : Nat) : Situation → Prop
  | .bytes => ∃ p, s.AwaitsBytes t p
  | .line => ∃ p, s.AwaitsLine t p
  | .room => ∃ gate p, s.AwaitsRoom t gate p
  | .gate => ∃ g, s.AwaitsGate t g

/-- A call to the read end of a pipe has not ended. -/
def ReaderWaits (s : Session) (t p : Nat) : Prop :=
  ∃ task r, s.tasks[t]? = some task ∧ task.isUnfinished = true ∧ task.call.operation = .onPipe p r

/-- A call to the write end of a pipe, through a gate or not, has not ended. -/
def WriterWaits (s : Session) (t p : Nat) : Prop :=
  ∃ task b q, s.tasks[t]? = some task ∧ task.isUnfinished = true ∧ s.Aims task.call b q ∧
    s.LeadsTo b p

/-! ### Tasks in pipes -/

/-- In a settled session whoever waits is parked. -/
theorem parked_of_settled (h : Sound s none none) (hr : s.ready = []) {a : Place} {w : Waiter}
    (hw : w ∈ s.waiters a) : w.mark = .parked := by
  have hturn := h.placed.turnsOf_of_mem a w hw
  by_contra hm
  rw [if_neg hm, turnsOf, hr] at hturn
  cases hturn

/-- Nobody who is parked is to end. -/
theorem live_of_parked (h : Sound s none none) {a : Place} {w : Waiter} (hw : w ∈ s.waiters a)
    (hm : w.mark = .parked) (hk : s.tasks[w.task]? = some task) : task.cancelling = false := by
  have hc := h.placed.isCancelling_of_mem a w hw (by simp [hm])
  rw [isCancelling, hk, hm] at hc
  exact hc

/-- In a settled session a task in a pipe waits with a request that the open pipe refuses. -/
theorem waitsIn_of_settled (h : Sound s none none) (hr : s.ready = [])
    (hk : s.tasks[t]? = some task) {r : Pipe.Request} (hst : task.stage = .inPipe held p r) :
    ∃ b, s.WaitsIn t held p r task b ∧ b.Valid ∧ b.admits r = false := by
  have hs : s.stage? t = some (.inPipe held p r) := by rw [stage?, hk, Option.map_some, hst]
  have hpl : s.place? t = some (.pipe p) := by rw [place?, hs]; rfl
  obtain ⟨w, hw, rfl⟩ := List.mem_map.1 (h.placed.mem_of_place t _ (by simp) hpl)
  have hm := parked_of_settled h hr hw
  obtain ⟨gate, r', b, hst', hb, hrf⟩ := h.refused p w hw hm
  rw [hs] at hst'
  cases hst'
  refine ⟨b, ⟨hk, live_of_parked h hw hm hk, hst, hb, ?_⟩, h.housed.valid p b hb, hrf⟩
  obtain ⟨h₁, h₂, -⟩ := Pipe.not_admits_iff.1 hrf
  rw [Pipe.isClosing, h₁, h₂]
  rfl

/-- What is refused of a sink's requests is a write to a full pipe. -/
theorem write_of_refused {b : Pipe} (hb : b.Valid) {q : Sink.Request}
    (h : b.admits (.ofSink q) = false) :
    ∃ data, q = .write data ∧ data ≠ [] ∧ b.buffer.length = b.capacity := by
  obtain ⟨-, -, h⟩ := Pipe.not_admits_iff.1 h
  cases q with
  | flush => simp [Pipe.Request.ofSink] at h
  | shutdown => simp [Pipe.Request.ofSink] at h
  | write data =>
    rcases h with ⟨data', hd, hne, hfull⟩ | ⟨h | h, -⟩ | ⟨h, -⟩
    · cases hd
      exact ⟨data, rfl, hne, Nat.le_antisymm hb.length_le hfull⟩
    · obtain ⟨n, h⟩ := h
      cases h
    · obtain ⟨got, h⟩ := h
      cases h
    · cases h

/-- A call that asks for something at the read end reads a line, closes, or reads some or all bytes. -/
theorem operation_onPipe {c : Call} {r : Pipe.Request} (h : c.operation = .onPipe p r) :
    r = .readLine ∨ r = .close ∨ ∃ limit, limit ≠ 0 ∧ c.operation = .read p limit := by
  have hread : ∀ p' limit, Operation.read p' limit = .onPipe p r →
      ∃ limit', limit' ≠ 0 ∧ Operation.read p' limit = .read p limit' := by
    intro p' limit he
    by_cases hz : limit = 0
    · rw [Operation.read, if_pos hz] at he
      cases he
    · refine ⟨limit, hz, ?_⟩
      have hp : p' = p := by
        rw [Operation.read, if_neg hz] at he
        split at he <;> cases he <;> rfl
      rw [hp]
  cases c with
  | idle answer => cases h
  | backing b q => cases h
  | outlet o q => cases h
  | writeAll o rest => cases rest <;> cases h
  | read p' limit => exact .inr (.inr (hread p' limit h))
  | readLine p' => cases h; exact .inl rfl
  | close p' => cases h; exact .inr (.inl rfl)
  | nextLine p' => cases h; exact .inl rfl
  | lines p' got => cases h; exact .inl rfl
  | forward p' limit o total leg =>
    cases leg with
    | read => exact .inr (.inr (hread p' limit h))
    | write rest size => cases h
    | flush => cases h

/-- Reading some or all bytes goes on as such. -/
theorem reading_of_continues {limit : Int} {r₀ r : Pipe.Request}
    (h : Operation.read p limit = .onPipe p r₀) (hc : Continues r₀ r) :
    (∃ n, r = .read n) ∨ ∃ got, r = .drain got := by
  unfold Operation.read at h
  split at h
  · cases h
  · split at h
    · cases h
      rcases hc with rfl | ⟨got, got', hd, -⟩
      · exact .inl ⟨_, rfl⟩
      · cases hd
    · cases h
      rcases hc with rfl | ⟨got, got', -, rfl⟩
      · exact .inr ⟨_, rfl⟩
      · exact .inr ⟨_, rfl⟩

/-! ### Each task in its situation -/

theorem AwaitsRoom.gatePipe (h : s.AwaitsRoom t (some g) p) : s.gatePipe? g = some p := by
  obtain ⟨-, -, -, -, -, -, -, hg⟩ := h
  exact hg

theorem AwaitsRoom.full {gate : Option Nat} (h : s.AwaitsRoom t gate p) :
    ∃ b, s.pipe? p = some b ∧ b.isClosing = false ∧ b.buffer.length = b.capacity := by
  obtain ⟨task, b, data, hw, -, hfull, -⟩ := h
  exact ⟨b, hw.pipe, hw.isOpen, hfull⟩

/-- Whoever waits for room asks a backing that leads to the pipe for it. -/
theorem AwaitsRoom.aims {gate : Option Nat} (h : s.AwaitsRoom t gate p)
    (hk : s.tasks[t]? = some task) :
    ∃ b data, s.Aims task.call b (.write data) ∧ s.LeadsTo b p := by
  obtain ⟨task', b, data, hw, -, -, haim⟩ := h
  obtain rfl := hw.task_eq hk
  cases gate with
  | none => exact ⟨.pipe p, data, haim, .inl rfl⟩
  | some g => exact ⟨.gate g, data, haim.1, .inr ⟨g, rfl, haim.2⟩⟩

/-- The situation that the stage and the call of a waiting task show. -/
def situationOf (task : Task) : Situation :=
  match task.stage, task.call.operation with
  | .atGate _ _, _ => .gate
  | _, .onPipe _ .readLine => .line
  | _, .onPipe _ _ => .bytes
  | _, _ => .room

/-- A task is in no other situation than its stage and its call show. -/
theorem Awaits.eq_situationOf {k : Situation} (h : s.Awaits t k) (hk : s.tasks[t]? = some task) :
    k = situationOf task := by
  cases k with
  | bytes =>
    obtain ⟨p, r, task', b, limit, hw, hop, hne, -⟩ := h
    obtain rfl := hw.task_eq hk
    rw [situationOf, hw.stage, hop, Operation.read, if_neg hne]
    by_cases hpos : 0 < limit
    · rw [if_pos hpos]
    · rw [if_neg hpos]
  | line =>
    obtain ⟨p, task', b, hw, hop, -⟩ := h
    obtain rfl := hw.task_eq hk
    rw [situationOf, hw.stage, hop]
  | room =>
    obtain ⟨gate, p, hroom⟩ := h
    obtain ⟨a, _, haim, -⟩ := hroom.aims hk
    obtain ⟨task', b, data, hw, -⟩ := hroom
    obtain rfl := hw.task_eq hk
    rw [situationOf, hw.stage]
    cases ho : task.call.operation with
    | onPipe p r => exact absurd ho (operation_of_aims haim p r)
    | answered outcome => rfl
    | onBacking b q => rfl
    | onOutlet o q => rfl
  | gate =>
    obtain ⟨g, task', q, u, p, he, -, hst, -⟩ := h
    rw [hk] at he
    cases he
    rw [situationOf, hst]

/-- In a settled session the task in a pipe through a gate waits for room. -/
theorem awaitsRoom_of_gate (h : Sound s none none) (hr : s.ready = [])
    (hk : s.tasks[t]? = some task) {r : Pipe.Request} (hst : task.stage = .inPipe (some g) p r) :
    s.AwaitsRoom t (some g) p := by
  obtain ⟨b, hw, hb, hrf⟩ := waitsIn_of_settled h hr hk hst
  have hpur := h.employed.pursues t task hk (by simp)
  rw [hst] at hpur
  obtain ⟨q, rfl, haim, hg⟩ := hpur
  obtain ⟨data, rfl, hne, hfull⟩ := write_of_refused hb hrf
  exact ⟨task, b, data, hw, hne, hfull, haim, hg⟩

/-- In a settled session the task in a pipe without a gate reads, or waits for room. -/
theorem awaits_of_no_gate (h : Sound s none none) (hr : s.ready = [])
    (hk : s.tasks[t]? = some task) {r : Pipe.Request} (hst : task.stage = .inPipe none p r) :
    s.AwaitsBytes t p ∨ s.AwaitsLine t p ∨ s.AwaitsRoom t none p := by
  obtain ⟨b, hw, hb, hrf⟩ := waitsIn_of_settled h hr hk hst
  have hpur := h.employed.pursues t task hk (by simp)
  rw [hst] at hpur
  rcases hpur.2 with ⟨q, rfl, haim⟩ | ⟨r₀, hop, hcont⟩
  · obtain ⟨data, rfl, hne, hfull⟩ := write_of_refused hb hrf
    exact .inr (.inr ⟨task, b, data, hw, hne, hfull, haim⟩)
  · obtain ⟨-, -, hcase⟩ := Pipe.not_admits_iff.1 hrf
    rcases operation_onPipe hop with rfl | rfl | ⟨limit, hne, hread⟩
    · rcases hcont with rfl | ⟨got, got', hd, -⟩
      · rcases hcase with ⟨data, hd, -⟩ | ⟨⟨n, hd⟩ | ⟨got, hd⟩, -⟩ | ⟨-, hnl, hlt⟩
        · cases hd
        · cases hd
        · cases hd
        · exact .inr (.inl ⟨task, b, hw, hop, hnl, hlt⟩)
      · cases hd
    · rcases hcont with rfl | ⟨got, got', hd, -⟩
      · simp at hcase
      · cases hd
    · -- reading some bytes or all of them goes on as such
      have hr := reading_of_continues (hread ▸ hop) hcont
      rcases hcase with ⟨data, rfl, -⟩ | ⟨-, hempty⟩ | ⟨rfl, -⟩
      · simp at hr
      · exact .inl ⟨r, task, b, limit, hw, hread, hne, hempty⟩
      · simp at hr

/-- In a settled session a gate for which a task queues is held, by a task that waits for room. -/
theorem awaitsGate_of_settled (h : Sound s none none) (hr : s.ready = [])
    (hk : s.tasks[t]? = some task) {r : Pipe.Request} (hst : task.stage = .atGate g r) :
    s.AwaitsGate t g := by
  have hs : s.stage? t = some (.atGate g r) := by rw [stage?, hk, Option.map_some, hst]
  have hpl : s.place? t = some (.gate g) := by rw [place?, hs]; rfl
  obtain ⟨w, hw, rfl⟩ := List.mem_map.1 (h.placed.mem_of_place t _ (by simp) hpl)
  have hlive := live_of_parked h hw (parked_of_settled h hr hw) hk
  have hpur := h.employed.pursues _ task hk (by simp)
  rw [hst] at hpur
  obtain ⟨q, rfl, haim, p, hg⟩ := hpur
  cases hh : s.holder? g with
  | none =>
    -- the first in the queue of a free gate would be about to run
    have horder := h.ordered g
    rw [hh] at horder
    obtain ⟨v, ws, hq⟩ := List.exists_cons_of_ne_nil (List.ne_nil_of_mem hw)
    rw [hq, Option.isSome_none, Waiter.orderly_cons, if_neg (by simp)] at horder
    exact absurd (parked_of_settled h hr (by rw [hq]; exact List.mem_cons_self)) horder.1
  | some u =>
    obtain ⟨task', p', r, hk', hst'⟩ := h.guarded.inPipe hh
    have hroom := awaitsRoom_of_gate h hr hk' hst'
    have hg' := hroom.gatePipe
    rw [hg] at hg'
    cases hg'
    exact ⟨task, q, u, p, hk, hlive, hst, haim, hg, hh, hroom⟩

/-- In a settled session each task that has not ended is in one situation, and in no other. -/
theorem existsUnique_awaits (h : Sound s none none) (hr : s.ready = [])
    (hk : s.tasks[t]? = some task) (hu : task.isUnfinished = true) : ∃! k, s.Awaits t k := by
  have hex : ∃ k, s.Awaits t k := by
    cases hst : task.stage with
    | fresh =>
      -- a task that has not begun would stand in the ready queue
      have hs : s.stage? t = some .fresh := by rw [stage?, hk, Option.map_some, hst]
      have hturn := h.placed.turnsOf_of_place t (by simp) (by rw [place?, hs]; rfl)
      rw [hs, turnsOf, hr] at hturn
      cases hturn
    | ended o => exact absurd hst (Task.isUnfinished_iff.1 hu o)
    | atGate g r => exact ⟨.gate, g, awaitsGate_of_settled h hr hk hst⟩
    | inPipe gate p r =>
      cases gate with
      | some g => exact ⟨.room, some g, p, awaitsRoom_of_gate h hr hk hst⟩
      | none =>
        rcases awaits_of_no_gate h hr hk hst with hb | hl | hm
        · exact ⟨.bytes, p, hb⟩
        · exact ⟨.line, p, hl⟩
        · exact ⟨.room, none, p, hm⟩
  obtain ⟨k, hk'⟩ := hex
  exact ⟨k, hk', fun k' h' => by rw [h'.eq_situationOf hk, hk'.eq_situationOf hk]⟩

/-! ### The two ends of a pipe -/

/-- In a settled session a pipe with a call at its read end is open and has room. -/
theorem room_of_readerWaits (h : Sound s none none) (hr : s.ready = []) (ht : s.ReaderWaits t p) :
    ∃ b, s.pipe? p = some b ∧ b.isClosing = false ∧ b.buffer.length < b.capacity := by
  obtain ⟨task, r, hk, hu, hop⟩ := ht
  have hvalid := h.housed.valid
  obtain ⟨k, hk', -⟩ := existsUnique_awaits h hr hk hu
  cases k with
  | bytes =>
    obtain ⟨p', r', task', b, limit, hw, hop', hne, hempty⟩ := hk'
    obtain rfl := hw.task_eq hk
    have hp : p' = p := by
      rw [hop', Operation.read, if_neg hne] at hop
      split at hop <;> cases hop <;> rfl
    subst hp
    refine ⟨b, hw.pipe, hw.isOpen, ?_⟩
    rw [hempty]
    exact (hvalid p' b hw.pipe).capacity_pos
  | line =>
    obtain ⟨p', task', b, hw, hop', -, hlt⟩ := hk'
    obtain rfl := hw.task_eq hk
    rw [hop] at hop'
    cases hop'
    exact ⟨b, hw.pipe, hw.isOpen, hlt⟩
  | room =>
    obtain ⟨gate, p', hroom⟩ := hk'
    obtain ⟨a, _, haim, -⟩ := hroom.aims hk
    exact absurd hop (operation_of_aims haim p r)
  | gate =>
    obtain ⟨g, task', q, u, p', he, -, -, haim, -⟩ := hk'
    rw [hk] at he
    cases he
    exact absurd hop (operation_of_aims haim p r)

/-- In a settled session a pipe with a call at its write end is open and full. -/
theorem full_of_writerWaits (h : Sound s none none) (hr : s.ready = []) (ht : s.WriterWaits t p) :
    ∃ b, s.pipe? p = some b ∧ b.isClosing = false ∧ b.buffer.length = b.capacity := by
  obtain ⟨task, a, q, hk, hu, haim, ha⟩ := ht
  obtain ⟨k, hk', -⟩ := existsUnique_awaits h hr hk hu
  cases k with
  | bytes =>
    obtain ⟨p', r', task', b, limit, hw, hop, hne, -⟩ := hk'
    obtain rfl := hw.task_eq hk
    rw [Operation.read, if_neg hne] at hop
    split at hop
    · exact absurd hop (operation_of_aims haim _ _)
    · exact absurd hop (operation_of_aims haim _ _)
  | line =>
    obtain ⟨p', task', b, hw, hop, -⟩ := hk'
    obtain rfl := hw.task_eq hk
    exact absurd hop (operation_of_aims haim _ _)
  | room =>
    obtain ⟨gate, p', hroom⟩ := hk'
    obtain ⟨b, data, haim', hb⟩ := hroom.aims hk
    obtain ⟨rfl, -⟩ := haim'.unique haim
    obtain rfl := hb.unique ha
    exact hroom.full
  | gate =>
    obtain ⟨g, task', q', u, p', he, -, -, haim', hg', -, hroom⟩ := hk'
    rw [hk] at he
    cases he
    obtain ⟨rfl, -⟩ := haim'.unique haim
    obtain rfl := LeadsTo.unique (.inr ⟨g, rfl, hg'⟩) ha
    exact hroom.full

/-- When a session has settled no two calls wait at both ends of a pipe. -/
theorem not_writerWaits_of_readerWaits {u : Nat} (h : Sound s none none) (hr : s.ready = [])
    (ht : s.ReaderWaits t p) : ¬ s.WriterWaits u p := by
  intro hu
  obtain ⟨b, hb, -, hlt⟩ := room_of_readerWaits h hr ht
  obtain ⟨b', hb', -, hfull⟩ := full_of_writerWaits h hr hu
  rw [hb] at hb'
  cases hb'
  omega

/-- Once a call has closed the read end, or has shut the write end down, the pipe is never open again. -/
theorem isClosing_of_service {out err : Stream.Traits} (h : Run (start out err) past s) {v : Service}
    (hv : v ∈ services past) (hc : v.request = .close ∨ v.request = .shutdown) :
    ∃ b, s.pipe? v.place = some b ∧ b.isClosing = true := by
  have hmem : v ∈ history v.place past := List.mem_filter.2 ⟨hv, by simp⟩
  rcases h.history_of_none (p := v.place) (sound_start out err) rfl with
    ⟨-, hnil⟩ | ⟨b₀, b, -, -, -, hb, hserves⟩
  · rw [hnil] at hmem
    cases hmem
  · refine ⟨b, hb, ?_⟩
    obtain ⟨us, ws, hus⟩ := List.append_of_mem hmem
    rw [hus] at hserves
    refine hserves.of_append_cons.2.isClosing ?_
    rw [Service.after, Pipe.isClosing, Pipe.writeClosed_serve, Pipe.readClosed_serve]
    rcases hc with hc | hc <;> simp [hc]

/-- When a session has settled, whatever was done to it before, every task that has not ended is in just
one of the four situations.  So a gate is held only while its pipe is open and full, no two calls wait
at both ends of one pipe, and no call waits at a pipe that was closed or shut down. -/
theorem settled_situations {out err : Stream.Traits} (h : Run (start out err) past s)
    (hr : s.ready = []) :
    (∀ (t : Nat) task, s.tasks[t]? = some task → task.isUnfinished = true →
        ∃! k, s.Awaits t k) ∧
      (∀ (g : Nat) gate, s.gates[g]? = some gate → gate.isHeld = true →
        ∃ b, s.pipe? gate.pipe = some b ∧ b.isClosing = false ∧ b.buffer.length = b.capacity) ∧
      (∀ p t u, s.ReaderWaits t p → ¬ s.WriterWaits u p) ∧
      (∀ v ∈ services past, v.request = .close ∨ v.request = .shutdown →
        ∀ t, ¬ s.ReaderWaits t v.place ∧ ¬ s.WriterWaits t v.place) := by
  have hs := (sound_start out err).run h
  refine ⟨fun t task hk hu => existsUnique_awaits hs hr hk hu, fun g gate hg hheld => ?_,
    fun p t u ht hu => ?_, fun v hv hc t => ⟨fun ht => ?_, fun ht => ?_⟩⟩
  · rw [Gate.isHeld, Option.isSome_iff_exists] at hheld
    obtain ⟨u, hu⟩ := hheld
    have hh : s.holder? g = some u := by rw [holder?, hg, Option.bind_some, hu]
    obtain ⟨task, p, r, hk, hst⟩ := hs.guarded.inPipe hh
    have hroom := awaitsRoom_of_gate hs hr hk hst
    have hg' := hroom.gatePipe
    rw [gatePipe?, hg] at hg'
    cases hg'
    exact hroom.full
  · obtain ⟨b, hb, -, hlt⟩ := room_of_readerWaits hs hr ht
    obtain ⟨b', hb', -, hfull⟩ := full_of_writerWaits hs hr hu
    rw [hb] at hb'
    cases hb'
    omega
  · obtain ⟨b, hb, hclosing⟩ := isClosing_of_service h hv hc
    obtain ⟨b', hb', hopen, -⟩ := room_of_readerWaits hs hr ht
    rw [hb] at hb'
    cases hb'
    rw [hclosing] at hopen
    cases hopen
  · obtain ⟨b, hb, hclosing⟩ := isClosing_of_service h hv hc
    obtain ⟨b', hb', hopen, -⟩ := full_of_writerWaits hs hr ht
    rw [hb] at hb'
    cases hb'
    rw [hclosing] at hopen
    cases hopen

/-- In the contended session the second task waits for room and the third for the gate, and each of them
for nothing else. -/
theorem contended_situations : contended.ready = [] ∧ contended.Awaits 1 .room ∧
    contended.Awaits 2 .gate ∧ (∃! k, contended.Awaits 1 k) ∧ ∃! k, contended.Awaits 2 k := by
  obtain ⟨out, err, past, h⟩ := reachable_contended
  obtain ⟨hall, -⟩ := settled_situations h rfl
  have haim : ∀ d, contended.Aims (.backing (.gate 0) d) (.gate 0) d := fun _ => .inl rfl
  have hroom : contended.AwaitsRoom 1 (some 0) 0 :=
    ⟨_, _, [2], ⟨rfl, rfl, rfl, rfl, rfl⟩, by simp, rfl, haim _, rfl⟩
  refine ⟨rfl, ⟨some 0, 0, hroom⟩, ⟨0, _, .write [3], 1, 0, rfl, rfl, rfl, haim _, rfl, rfl, hroom⟩,
    hall 1 _ rfl rfl, hall 2 _ rfl rfl⟩

end Outflow.Session
