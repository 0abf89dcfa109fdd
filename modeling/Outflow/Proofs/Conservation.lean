import Outflow.Proofs.Session.Account

/-!
# No byte is lost, repeated or reordered

On every run the bytes that were accepted by a pipe are those that were removed from it, followed by those
that it holds.  The bytes accepted are the beginnings of the data written, as long as the answers say, and
the bytes removed by a call are those that it returns.

* `Service.accepted_of_write`: a write adds what its answer says;
* `Session.ReadsOnce`, `Session.WritesOnce`: the calls that read one chunk, or write once;
* `Session.ReturnsRemoved`, `Session.ReturnsAdded`: what such calls have done when they end;
* `closed_for_good`: what closing the read end means for the rest of a run;
* `bytes_conserved`: all this together.
-/

namespace Outflow

/-- A write that is not answered with a number of bytes adds none. -/
theorem Service.accepted_of_write {v : Service} {data : Bytes} (h : v.request = .write data) :
    (v.answer? = none ∧ v.accepted = []) ∨ (∃ k, v.answer? = some (.ok (.count k)) ∧
      v.accepted = data.take k) ∨ ∃ f, v.answer? = some (.error f) ∧ v.accepted = [] := by
  rw [accepted, h, Pipe.accepted_write, answer?, h]
  rcases Pipe.reply_of_write v.before data with hrep | ⟨k, hrep⟩ | ⟨f, hrep⟩
  · rw [hrep]
    exact .inl ⟨rfl, rfl⟩
  · rw [hrep]
    exact .inr (.inl ⟨k, rfl, rfl⟩)
  · rw [hrep]
    exact .inr (.inr ⟨f, rfl, rfl⟩)

namespace Session

variable {s : Session} {past : List Session} {t p : Nat} {task : Task} {data : Bytes}

/-- Whether a call reads at least one byte, or a line, and nothing else. -/
def ReadsOnce (c : Call) (p : Nat) : Prop := (∃ n, 0 < n ∧ c = .read p n) ∨ c = .readLine p

/-- Whether a call writes some data to a pipe, raw, through a gate or through an outlet, and does nothing
else. -/
def WritesOnce (s : Session) (c : Call) (p : Nat) (data : Bytes) : Prop :=
  c.isSingle = true ∧ ∃ b, s.Aims c b (.write data) ∧ s.LeadsTo b p

/-- A call that read once returned the one chunk that it removed, or it was cancelled and removed
none. -/
def ReturnsRemoved (vs : List Service) (p : Nat) (o : Outcome) : Prop :=
  (∃ us v, vs = us ++ [v] ∧ (∀ w ∈ us, w.removed = []) ∧ v.place = p ∧
      o = .ok (.bytes v.removed)) ∨
    (o = .error .cancelled ∧ ∀ v ∈ vs, v.removed = [])

/-- A call that wrote once returned how many bytes of its data it added, from the start, or it failed and
added none. -/
def ReturnsAdded (vs : List Service) (p : Nat) (data : Bytes) (o : Outcome) : Prop :=
  (∃ us v k, vs = us ++ [v] ∧ (∀ w ∈ us, w.accepted = []) ∧ v.place = p ∧
      o = .ok (.count k) ∧ v.accepted = data.take k) ∨
    ((∃ f, o = .error f) ∧ ∀ v ∈ vs, v.accepted = [])

/-- The services of a call that reads once are requests for some bytes, or a line, of its pipe. -/
theorem ReadsOnce.request (h : ReadsOnce task.call p) {v : Service}
    (hv : s.Pursues task.call (.inPipe v.gate v.place v.request)) :
    v.place = p ∧ ((∃ n, v.request = .read n) ∨ v.request = .readLine) := by
  have hop : ∃ r₀, task.call.operation = .onPipe p r₀ ∧ ((∃ n, r₀ = .read n) ∨ r₀ = .readLine) := by
    rcases h with ⟨n, hn, hc⟩ | hc
    · refine ⟨.read n.toNat, ?_, .inl ⟨_, rfl⟩⟩
      rw [hc, Call.operation, Operation.read, if_neg (by omega), if_pos hn]
    · exact ⟨.readLine, by rw [hc]; rfl, .inr rfl⟩
  obtain ⟨r₀, hop, hr₀⟩ := hop
  obtain ⟨-, hp, hr | ⟨got, got', rfl, -⟩⟩ := hv.of_onPipe hop
  · rw [hr]
    exact ⟨hp, hr₀⟩
  · simp at hr₀

/-- The services of a call that writes once are writes of its data to its pipe. -/
theorem WritesOnce.request (h : s.WritesOnce task.call p data) {v : Service}
    (hv : s.Pursues task.call (.inPipe v.gate v.place v.request)) :
    v.place = p ∧ v.request = .write data := by
  obtain ⟨-, b, haim, hb⟩ := h
  obtain ⟨hr, hleads, -⟩ := hv.of_aims haim
  exact ⟨hleads.unique hb, hr⟩

/-- What a call that reads once returns is the one chunk that it removed. -/
theorem Account.read {vs : List Service} (h : Account s task vs) (hc : ReadsOnce task.call p)
    {o : Outcome} (ho : task.stage = .ended o) : ReturnsRemoved vs p o := by
  have hchunk : ∀ v ∈ vs, (v.answer? = none ∧ v.removed = []) ∨
      v.answer? = some (.ok (.bytes v.removed)) :=
    fun v hv => Service.answer?_of_chunk (hc.request (h.pursues v hv)).2
  have hidle : ∀ v ∈ vs, v.answer? = none → v.removed = [] := by
    intro v hv hans
    rcases hchunk v hv with ⟨-, hrem⟩ | hans'
    · exact hrem
    · rw [hans] at hans'
      cases hans'
  rcases h.ended o ho with ⟨us, v, rfl, hus, hans⟩ | ⟨hnone, hcan | ⟨hop, -⟩⟩
  · have hv : v ∈ us ++ [v] := List.mem_append_right _ (List.mem_singleton.2 rfl)
    refine .inl ⟨us, v, rfl, fun w hw => hidle w (List.mem_append_left _ hw) (hus w hw),
      (hc.request (h.pursues v hv)).1, ?_⟩
    rcases hchunk v hv with ⟨hans', -⟩ | hans'
    · rw [hans] at hans'
      cases hans'
    · rw [hans] at hans'
      exact Option.some.inj hans'
  · exact .inr ⟨hcan, fun v hv => hidle v hv (hnone v hv)⟩
  · exfalso
    rcases hc with ⟨n, hn, hc⟩ | hc
    · refine hop p (.read n.toNat) ?_
      rw [hc, Call.operation, Operation.read, if_neg (by omega), if_pos hn]
    · exact hop p .readLine (by rw [hc]; rfl)

/-- What a call that writes once returns is the number of bytes that it added; failing, it added none. -/
theorem Account.write {vs : List Service} (h : Account s task vs)
    (hc : s.WritesOnce task.call p data) {o : Outcome} (ho : task.stage = .ended o) :
    ReturnsAdded vs p data o := by
  have hwrite : ∀ v ∈ vs, _ := fun v hv =>
    Service.accepted_of_write (hc.request (h.pursues v hv)).2
  have hidle : ∀ v ∈ vs, v.answer? = none → v.accepted = [] := by
    intro v hv hans
    rcases hwrite v hv with ⟨-, hacc⟩ | ⟨k, hans', -⟩ | ⟨f, -, hacc⟩
    · exact hacc
    · rw [hans] at hans'
      cases hans'
    · exact hacc
  rcases h.ended o ho with ⟨us, v, rfl, hus, hans⟩ | ⟨hnone, hcan | ⟨-, hout⟩⟩
  · have hv : v ∈ us ++ [v] := List.mem_append_right _ (List.mem_singleton.2 rfl)
    have hus' : ∀ w ∈ us, w.accepted = [] :=
      fun w hw => hidle w (List.mem_append_left _ hw) (hus w hw)
    rcases hwrite v hv with ⟨hans', -⟩ | ⟨k, hans', hacc⟩ | ⟨f, hans', hacc⟩
    · rw [hans] at hans'
      cases hans'
    · rw [hans] at hans'
      cases hans'
      exact .inl ⟨us, v, k, rfl, hus', (hc.request (h.pursues v hv)).1, rfl, hacc⟩
    · rw [hans] at hans'
      cases hans'
      refine .inr ⟨⟨f, rfl⟩, fun w hw => ?_⟩
      rcases List.mem_append.1 hw with hw | hw
      · exact hus' w hw
      · rw [List.mem_singleton.1 hw, hacc]
  · exact .inr ⟨⟨_, hcan⟩, fun v hv => hidle v hv (hnone v hv)⟩
  · refine .inr ⟨?_, fun v hv => hidle v hv (hnone v hv)⟩
    obtain ⟨-, b, haim, hb⟩ := hc
    rcases hout b _ haim with ⟨n, rfl⟩ | hf
    · rcases hb with hb | ⟨g, hb, -⟩ <;> cases hb
    · exact hf

/-- From when the read end is closed, nothing is buffered, accepted or removed any more. -/
theorem closed_for_good (hs : Sound s none none) {b : Pipe} (hb : s.pipe? p = some b) {v : Service}
    (hv : s.service? = some v) (hp : v.place = p) (hr : v.request = .close) {past' : List Session}
    {s' : Session} (h' : Run s.turn past' s') :
    accepted (history p (s :: past')) = [] ∧ removed (history p (s :: past')) = [] ∧
      ∃ b', s'.pipe? p = some b' ∧ b'.buffer = [] := by
  subst hp
  obtain ⟨b₁, hb₁, hserves⟩ := serves_turn hs hb
  rw [history_of_eq hv] at hserves
  obtain ⟨b', hb', hserves'⟩ := h'.serves hs.turn hb₁
  have hafter : b₁ = v.after := (Serves.snoc_iff.1 (show Serves b ([] ++ [v]) b₁ from hserves)).2
  have hclosed : b₁.readClosed = true := by
    rw [hafter, Service.after, Pipe.readClosed_serve, hr]
    simp
  obtain ⟨hacc, hrem, hbuf⟩ := hserves'.idle_of_readClosed (hs.turn.housed.valid _ _ hb₁) hclosed
  -- closing itself accepts nothing, and what it drops is not removed
  rw [← List.singleton_append, history_append, history_of_eq hv, accepted_append, removed_append,
    hacc, hrem]
  refine ⟨?_, ?_, b', hb', hbuf⟩
  · simp [Service.accepted, Pipe.accepted, hr]
  · simp [Service.removed, Pipe.removed, hr, Pipe.Request.isRead]

/-- On every run, whoever writes, reads, shuts down, closes or is cancelled, in any order: as long as the
read end is open, the bytes accepted are the bytes removed and then those in the buffer.  Closing the
read end drops the buffer, and nothing is accepted or removed after it.  Reading some bytes, or a line,
returns the one chunk that it removes; a call that writes returns how many bytes it added, and adds none
if it fails or is cancelled. -/
theorem bytes_conserved {out err : Stream.Traits} (h : Run (start out err) past s) {b : Pipe}
    (hb : s.pipe? p = some b) :
    (b.readClosed = false → accepted (history p past) = removed (history p past) ++ b.buffer) ∧
      (∀ v past' s', b.readClosed = false → s.service? = some v → v.place = p → v.request = .close →
        Run s.turn past' s' →
          accepted (history p (past ++ s :: past')) = accepted (history p past) ∧
          removed (history p (past ++ s :: past')) = removed (history p past) ∧
          accepted (history p (past ++ s :: past')) =
            removed (history p (past ++ s :: past')) ++ b.buffer ∧
          ∃ b', s'.pipe? p = some b' ∧ b'.buffer = []) ∧
      (∀ v ∈ history p past, (∃ n, v.request = .read n) ∨ v.request = .readLine →
        (v.answer? = none ∧ v.removed = []) ∨ v.answer? = some (.ok (.bytes v.removed))) ∧
      (∀ (t : Nat) task o, s.tasks[t]? = some task → ReadsOnce task.call p → task.stage = .ended o →
        ReturnsRemoved (servicesOf t past) p o) ∧
      (∀ (t : Nat) task data o, s.tasks[t]? = some task → s.WritesOnce task.call p data →
        task.stage = .ended o → ReturnsAdded (servicesOf t past) p data o) := by
  have hs₀ := sound_start out err
  have hconserved : b.readClosed = false →
      accepted (history p past) = removed (history p past) ++ b.buffer := by
    intro hopen
    obtain ⟨b₀, -, hbuf, -, hserves⟩ := h.history hb
    have hc := hserves.conserved hopen
    rwa [hbuf, List.nil_append] at hc
  refine ⟨hconserved, ?_, fun v _ hr => Service.answer?_of_chunk hr, ?_, ?_⟩
  · intro v past' s' hopen hv hp hr h'
    obtain ⟨hacc, hrem, hbuf⟩ := closed_for_good (hs₀.run h) hb hv hp hr h'
    rw [history_append, accepted_append, removed_append, hacc, hrem, List.append_nil, List.append_nil]
    exact ⟨rfl, rfl, hconserved hopen, hbuf⟩
  · intro t task o hk hc ho
    have hsingle : task.call.isSingle = true := by rcases hc with ⟨n, -, hc⟩ | hc <;> rw [hc] <;> rfl
    exact ((h.account hs₀ rfl).2 task hk hsingle).read hc ho
  · intro t task data o hk hc ho
    exact ((h.account hs₀ rfl).2 task hk hc.1).write hc ho

/-- Two bytes were accepted by the contended pipe, one was removed, and one is buffered. -/
theorem handedOver_conserved : ∃ past b, Run (start .plain .plain) past handedOver ∧
    handedOver.pipe? 0 = some b ∧ accepted (history 0 past) = [1, 2] ∧
      removed (history 0 past) = [1] ∧
        accepted (history 0 past) = removed (history 0 past) ++ b.buffer := by
  refine ⟨_, ⟨[2], 1, false, false⟩, run_handedOver, rfl, rfl, rfl, ?_⟩
  exact (bytes_conserved run_handedOver rfl).1 rfl

end Session

end Outflow
