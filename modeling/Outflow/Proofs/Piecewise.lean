import Outflow.Proofs.Cuts
import Outflow.Proofs.Truthful
import Outflow.Proofs.Session.Progress

/-!
# Writing in pieces

Bytes are written to a standard stream in pieces, one after the other, through any outlets for the stream.

* `Stream.Steady`, `Steady.perform`: a stream that does not fail takes something of whatever it is offered;
* `Session.Feeds`, `turn_of_feeds`: outlets for a standard stream;
* `Alone`, `turn_of_alone`, `run_of_alone`: a task that writes all of some data while nothing else is to run;
* `writeInTurn`, `completed_writeInTurn`: a session after all pieces;
* `output_of_pieces`: the output is that of one write of all bytes, except that a stream that reads them as UTF-8
  has it just if every cut falls between two characters.
-/

namespace Outflow

namespace Stream

variable {s s' : Stream}

/-- A stream that takes something at every write and tells how much, and does not fail. -/
structure Steady (s : Stream) : Prop where
  write : s.traits.writeFault = none
  flush : s.traits.flushFault = none
  accept : s.traits.accept ≠ some 0
  tells : s.traits.Tells

theorem Steady.of_traits (h : s.Steady) (ht : s'.traits = s.traits) : s'.Steady :=
  ⟨ht ▸ h.write, ht ▸ h.flush, ht ▸ h.accept, ht ▸ h.tells⟩

theorem rendered_of_traits (ht : s'.traits = s.traits) : s'.rendered = s.rendered := by
  funext data
  rw [rendered, rendered, ht]

/-- Such a stream answers every write with a number. -/
theorem Steady.answer (h : s.Steady) {data : Bytes} (hne : data ≠ []) :
    (s.perform (.write data)).2 = .ok (.count (s.traits.told data)) := by
  obtain ⟨⟨textOnly, _, accept, silent, writeFault, _, flushFault, _⟩, _, _, _, _, _⟩ := s
  obtain ⟨hwrite, hflush, -, -⟩ := h
  cases hwrite
  cases hflush
  obtain ⟨b, rest, rfl⟩ := List.exists_cons_of_ne_nil hne
  cases textOnly <;> cases silent <;> cases accept <;> rfl

/-- It takes something of what it is offered. -/
theorem Steady.told_ne_zero (h : s.Steady) {data : Bytes} (hne : data ≠ []) : s.traits.told data ≠ 0 := by
  have hlen := List.length_pos_of_ne_nil hne
  unfold Traits.told Traits.portion
  split
  · exact hlen.ne'
  · cases haccept : s.traits.accept with
    | none => exact hlen.ne'
    | some m =>
      have hm : m ≠ 0 := fun hzero => h.accept (by rw [haccept, hzero])
      rw [List.length_take]
      exact (lt_min (Nat.pos_of_ne_zero hm) hlen).ne'

/-- What it takes and what it leaves are rendered as they are together: a stream without a byte layer takes all. -/
theorem Steady.perform (h : s.Steady) {data : Bytes} (hne : data ≠ []) :
    ∃ k, (s.perform (.write data)).2 = .ok (.count k) ∧ k ≠ 0 ∧ k ≤ data.length ∧
      s.rendered (data.take k) ++ s.rendered (data.drop k) = s.rendered data := by
  refine ⟨_, h.answer hne, h.told_ne_zero hne, s.traits.told_le data, ?_⟩
  by_cases htext : s.traits.textOnly = true
  · have hall : s.traits.told data = data.length := if_pos (by rw [htext, Bool.true_or])
    rw [hall, List.take_length, List.drop_length, rendered_nil, List.append_nil]
  · have hrendered : ∀ bs, s.rendered bs = bs := fun bs => if_neg htext
    simp only [hrendered, List.take_append_drop]

end Stream

/-- The stream in use under a name is `stream`, with some more bytes in its output. -/
def Stdio.Adds (io : Stdio) (n : StreamName) (stream : Stream) (data : Bytes) : Prop :=
  ∃ stream', io.inUse? n = some stream' ∧ stream'.traits = stream.traits ∧ stream'.output = stream.output ++ data

theorem Stdio.Adds.trans {io io' : Stdio} {n : StreamName} {stream stream' : Stream} {data data' : Bytes}
    (h : io.Adds n stream data) (hin : io.inUse? n = some stream') (h' : io'.Adds n stream' data') :
    io'.Adds n stream (data ++ data') := by
  obtain ⟨u, hu, htraits, hout⟩ := h
  obtain ⟨u', hu', htraits', hout'⟩ := h'
  rw [hin] at hu
  cases hu
  exact ⟨u', hu', htraits'.trans htraits, by rw [hout', hout, List.append_assoc]⟩

namespace Session

variable {s s' : Session} {t o : Nat} {n : StreamName} {left : Bytes} {stream : Stream}

/-- Whether an outlet passes what it is asked for on to a standard stream. -/
def Feeds (s : Session) (o : Nat) (n : StreamName) : Prop :=
  (s.outlets[o]?).bind Outlet.forwards? = some (.stream n)

instance (s : Session) (o : Nat) (n : StreamName) : Decidable (s.Feeds o n) :=
  inferInstanceAs (Decidable ((s.outlets[o]?).bind Outlet.forwards? = some (.stream n)))

/-- A request through an outlet for a standard stream ends with what the stream answers. -/
theorem turn_of_feeds {task : Task} {rest : List Job} (hr : s.ready = .task t :: rest)
    (hk : s.tasks[t]? = some task) (hlive : task.cancelling = false) (hst : task.stage = .fresh)
    {q : Sink.Request} (hop : task.call.operation = .onOutlet o q) (hfeeds : s.Feeds o n) :
    ∃ entry, s.turn = ({ s with ready := rest, stdio := (s.stdio.perform n q).1 }.setEntry t entry).complete t
      (s.stdio.perform n q).2 := by
  obtain ⟨⟨d, backing⟩, hx, hforwards⟩ := Option.bind_eq_some_iff.1 hfeeds
  refine ⟨d, ?_⟩
  simp only [turn, hr, runTask, hk, hlive, hst, hop, begin, hx]
  cases d <;> cases hforwards <;> rfl

/-- A task that writes all of some data ends if the write has left nothing, and goes on with what is left if not;
nothing is noticed about it. -/
theorem complete_writeAll {task : Task} (hk : s.tasks[t]? = some task) (hcall : task.call = .writeAll o left)
    (hne : left ≠ []) {k : Nat} (hpos : k ≠ 0) :
    s.complete t (.ok (.count k)) =
      if left.drop k = [] then s.finish t (.ok .nothing) else s.goOn t (.writeAll o (left.drop k)) := by
  have hannounce : s.announce task (.ok (.count k)) = s := by
    simp only [announce, noticeOf?, hcall, Call.operation_writeAll o hne, Notice.about?]
  rw [complete_eq hk, hannounce, hcall, Call.resume_writeAll o _ hne hpos]
  split_ifs <;> rfl

/-- A task has written some bytes to a standard stream, and no other task has done anything. -/
structure Wrote (s : Session) (t : Nat) (n : StreamName) (stream : Stream) (data : Bytes) (s' : Session) : Prop where
  outlets : s'.outlets = s.outlets
  tasks : ∃ task', s'.tasks = s.tasks.set t task'
  adds : s'.stdio.Adds n stream data

theorem Wrote.trans {s'' : Session} {stream' : Stream} {data data' : Bytes} (h : s.Wrote t n stream data s')
    (hin : s'.stdio.inUse? n = some stream') (h' : s'.Wrote t n stream' data' s'') :
    s.Wrote t n stream (data ++ data') s'' := by
  obtain ⟨task, htask⟩ := h.tasks
  obtain ⟨task', htask'⟩ := h'.tasks
  exact ⟨h'.outlets.trans h.outlets, ⟨task', by rw [htask', htask, List.set_set]⟩, h.adds.trans hin h'.adds⟩

/-- Nothing is to run but a task that is to write what is left of some data. -/
structure Alone (s : Session) (t o : Nat) (left : Bytes) : Prop where
  ready : s.ready = [.task t]
  task : ∃ entry, s.tasks[t]? = some ⟨.writeAll o left, .fresh, entry, false⟩

/-- A task has written all, and nothing is to run. -/
structure Idle (s : Session) (t : Nat) : Prop where
  ready : s.ready = []
  ended : s.stage? t = some (.ended (.ok .nothing))

/-- With nothing left the task ends. -/
theorem turn_of_alone_nil (h : s.Alone t o []) (hin : s.stdio.inUse? n = some stream) :
    s.Wrote t n stream [] s.turn ∧ s.turn.Idle t := by
  obtain ⟨entry, hk⟩ := h.task
  have hturn : s.turn = { s with ready := [] }.finish t (.ok .nothing) := by
    simp only [turn, h.ready, runTask, hk, Call.operation, begin, complete, noticeOf?, Call.resume]
  rw [hturn]
  refine ⟨⟨rfl, ⟨_, (set_eq_modify hk fun task => { task with stage := .ended (.ok .nothing) }).symm⟩, stream, hin,
    rfl, (List.append_nil _).symm⟩, rfl, ?_⟩
  rw [stage?, finish, setStage, List.getElem?_modify_eq, hk]
  rfl

/-- With something left the stream takes some of it, and the task goes on with the rest, if any. -/
theorem turn_of_alone (h : s.Alone t o left) (hne : left ≠ []) (hfeeds : s.Feeds o n)
    (hin : s.stdio.inUse? n = some stream) (hst : stream.Steady) :
    ∃ k, k ≠ 0 ∧ k ≤ left.length ∧
      stream.rendered (left.take k) ++ stream.rendered (left.drop k) = stream.rendered left ∧
      s.Wrote t n stream (stream.rendered (left.take k)) s.turn ∧
      (left.drop k = [] → s.turn.Idle t) ∧ (left.drop k ≠ [] → s.turn.Alone t o (left.drop k)) := by
  obtain ⟨entry, hk⟩ := h.task
  obtain ⟨hanswer, hafter⟩ := Stdio.perform_eq hin (.write left)
  obtain ⟨k, hcount, hpos, hle, hrendered⟩ := hst.perform hne
  obtain ⟨entry', hturn⟩ := turn_of_feeds h.ready hk rfl rfl (Call.operation_writeAll o hne) hfeeds
  rw [hanswer, hcount] at hturn
  -- the session with the stream's new state, before the task gets its answer
  obtain ⟨s₁, hs₁⟩ : ∃ s₁ : Session,
    { s with ready := [], stdio := (s.stdio.perform n (.write left)).1 } = s₁ := ⟨_, rfl⟩
  rw [hs₁] at hturn
  have htasks : (s₁.setEntry t entry').tasks = s.tasks.set t ⟨.writeAll o left, .fresh, entry', false⟩ := by
    rw [← hs₁]
    exact (set_eq_modify hk fun task => { task with entry := entry' }).symm
  have hk₁ : (s₁.setEntry t entry').tasks[t]? = some ⟨.writeAll o left, .fresh, entry', false⟩ := by
    rw [htasks, List.getElem?_set_self (List.getElem?_eq_some_iff.1 hk).1]
  refine ⟨k, hpos, hle, hrendered, ⟨?_, ?_, (stream.perform (.write left)).1, ?_, stream.traits_perform _, ?_⟩, ?_⟩
  · rw [hturn, (gates_complete ..).2, ← hs₁]
    rfl
  · rw [hturn, tasks_complete hk₁, htasks, List.set_set]
    exact ⟨_, rfl⟩
  · rw [hturn, stdio_complete, ← hs₁]
    exact hafter
  · rw [stream.output_perform, stream.gained_of_tells hst.tells, hcount]
    rfl
  · rw [hturn, complete_writeAll hk₁ rfl hne hpos]
    split_ifs with hnil
    · refine ⟨fun _ => ⟨by rw [← hs₁]; rfl, ?_⟩, fun hmore => absurd hnil hmore⟩
      rw [stage?, finish, setStage, List.getElem?_modify_eq, hk₁]
      rfl
    · refine ⟨fun h => absurd h hnil, fun _ => ⟨by rw [← hs₁]; rfl, entry', ?_⟩⟩
      rw [goOn, List.getElem?_modify_eq, hk₁]
      rfl

/-- As long as there is something left the task goes on; in the end the stream has taken all of it. -/
theorem run_of_alone (h : s.Alone t o left) (hfeeds : s.Feeds o n) (hin : s.stdio.inUse? n = some stream)
    (hst : stream.Steady) :
    ∃ m ≤ left.length + 1, s.Wrote t n stream (stream.rendered left) (turn^[m] s) ∧ (turn^[m] s).Idle t := by
  -- on the number of bytes that are left: every turn takes some of them
  induction hlen : left.length using Nat.strong_induction_on generalizing s left stream with
  | _ len ih =>
    by_cases hne : left = []
    · subst hne
      rw [stream.rendered_nil]
      obtain ⟨hwrote, hidle⟩ := turn_of_alone_nil h hin
      exact ⟨1, by omega, hwrote, hidle⟩
    · obtain ⟨k, hpos, hle, hrendered, hwrote, hidle, halone⟩ := turn_of_alone h hne hfeeds hin hst
      by_cases hnil : left.drop k = []
      · rw [hnil, stream.rendered_nil, List.append_nil] at hrendered
        rw [hrendered] at hwrote
        exact ⟨1, by omega, hwrote, hidle hnil⟩
      · obtain ⟨stream', hin', htraits, -⟩ := hwrote.adds
        have hfeeds' : s.turn.Feeds o n := by rwa [Feeds, hwrote.outlets]
        have hdrop : (left.drop k).length = left.length - k := List.length_drop
        obtain ⟨m, hm, hwrote', hidle'⟩ := ih _ (by omega) (halone hnil) hfeeds' hin' (hst.of_traits htraits) rfl
        refine ⟨m + 1, by omega, ?_, hidle'⟩
        rw [Stream.rendered_of_traits htraits] at hwrote'
        rw [← hrendered]
        exact hwrote.trans hin' hwrote'

/-! ### One piece after the other -/

/-- Settling takes enough turns for a task to write all of its data. -/
theorem length_lt_budget_spawn (s : Session) (o : Nat) (data : Bytes) :
    data.length < (s.spawn (.writeAll o data)).1.budget := by
  have hunfinished : (s.spawn (.writeAll o data)).1.unfinished = s.unfinished ++ [.ofCall (.writeAll o data)] :=
    List.filter_append ..
  have howed : data.length ≤ (s.spawn (.writeAll o data)).1.owed := by
    rw [owed, hunfinished, List.map_append]
    change _ ≤ List.sum _
    rw [List.sum_append]
    exact Nat.le_add_left ..
  have hpow : 0 < Nat.pow 3 (s.spawn (.writeAll o data)).1.forwards := Nat.pow_pos (by decide)
  have hpotential : data.length < (s.spawn (.writeAll o data)).1.potential := by
    rw [potential, hunfinished, List.length_append, List.length_singleton]
    calc data.length
        ≤ 2 * (s.spawn (.writeAll o data)).1.owed + (s.spawn (.writeAll o data)).1.buffered := by omega
      _ ≤ (2 * (s.spawn (.writeAll o data)).1.owed + (s.spawn (.writeAll o data)).1.buffered) *
            Nat.pow 3 (s.spawn (.writeAll o data)).1.forwards := Nat.le_mul_of_pos_right _ hpow
      _ < _ := by omega
  calc data.length
      < (s.spawn (.writeAll o data)).1.potential := hpotential
    _ ≤ (s.spawn (.writeAll o data)).1.potential * ((s.spawn (.writeAll o data)).1.unfinished.length + 3) :=
        Nat.le_mul_of_pos_right _ (by omega)
    _ ≤ (s.spawn (.writeAll o data)).1.budget := Nat.le_add_right ..

/-- Some calls were made and have succeeded, nothing is to run, and a standard stream has some more bytes in its
output. -/
structure Completed (s : Session) (calls : Nat) (n : StreamName) (stream : Stream) (data : Bytes) (s' : Session) :
    Prop where
  ready : s'.ready = []
  outlets : s'.outlets = s.outlets
  tasks : ∃ done, s'.tasks = s.tasks ++ done ∧ done.length = calls ∧
    ∀ task ∈ done, task.stage = .ended (.ok .nothing)
  adds : s'.stdio.Adds n stream data

theorem Completed.trans {s'' : Session} {calls calls' : Nat} {stream' : Stream} {data data' : Bytes}
    (h : s.Completed calls n stream data s') (hin : s'.stdio.inUse? n = some stream')
    (h' : s'.Completed calls' n stream' data' s'') : s.Completed (calls + calls') n stream (data ++ data') s'' := by
  obtain ⟨done, htasks, hlen, hended⟩ := h.tasks
  obtain ⟨done', htasks', hlen', hended'⟩ := h'.tasks
  refine ⟨h'.ready, h'.outlets.trans h.outlets, ⟨done ++ done', ?_, ?_, fun task htask => ?_⟩,
    h.adds.trans hin h'.adds⟩
  · rw [htasks', htasks, List.append_assoc]
  · rw [List.length_append, hlen, hlen']
  · exact (List.mem_append.1 htask).elim (hended task) (hended' task)

/-- Whatever is written to a steady stream while nothing else is to run is written at once. -/
theorem completed_settle (hr : s.ready = []) (hfeeds : s.Feeds o n) (hin : s.stdio.inUse? n = some stream)
    (hst : stream.Steady) (data : Bytes) :
    s.Completed 1 n stream (stream.rendered data) (s.spawn (.writeAll o data)).1.settle := by
  have halone : (s.spawn (.writeAll o data)).1.Alone s.tasks.length o data :=
    ⟨by rw [ready_spawn, hr]; rfl, .null, by rw [tasks_spawn, List.getElem?_concat_length]; rfl⟩
  obtain ⟨m, hm, hwrote, hidle⟩ := run_of_alone halone hfeeds hin hst
  have hsettle : (s.spawn (.writeAll o data)).1.settle = turn^[m] (s.spawn (.writeAll o data)).1 :=
    run_eq_of_ready_nil hidle.ready (hm.trans (length_lt_budget_spawn s o data))
  rw [hsettle]
  obtain ⟨task, htask⟩ := hwrote.tasks
  have htasks : (turn^[m] (s.spawn (.writeAll o data)).1).tasks = s.tasks ++ [task] := by
    rw [htask, tasks_spawn, List.set_append_right _ _ le_rfl, Nat.sub_self]
    rfl
  refine ⟨hidle.ready, hwrote.outlets, ⟨[task], htasks, rfl, ?_⟩, hwrote.adds⟩
  intro task' htask'
  have hended := hidle.ended
  rw [stage?, htasks, List.getElem?_concat_length] at hended
  rw [List.mem_singleton.1 htask']
  exact Option.some.inj hended

/-- All bytes of some pieces are written, each piece through its outlet when the one before it is done. -/
def writeInTurn (s : Session) : List (Nat × Bytes) → Session
  | [] => s
  | (o, piece) :: pieces => (s.spawn (.writeAll o piece)).1.settle.writeInTurn pieces

theorem completed_writeInTurn (hr : s.ready = []) (hin : s.stdio.inUse? n = some stream) (hst : stream.Steady)
    {pieces : List (Nat × Bytes)} (hfeeds : ∀ piece ∈ pieces, s.Feeds piece.1 n) :
    s.Completed pieces.length n stream ((pieces.map Prod.snd).flatMap stream.rendered) (s.writeInTurn pieces) := by
  induction pieces generalizing s stream with
  | nil =>
    exact ⟨hr, rfl, ⟨[], (List.append_nil _).symm, rfl, fun _ h => absurd h List.not_mem_nil⟩, stream, hin, rfl,
      (List.append_nil _).symm⟩
  | cons piece pieces ih =>
    obtain ⟨o, data⟩ := piece
    have h := completed_settle hr (hfeeds _ List.mem_cons_self) hin hst data
    obtain ⟨stream', hin', htraits, -⟩ := h.adds
    have h' := ih h.ready hin' (hst.of_traits htraits) fun piece hpiece => by
      have hpiece := hfeeds piece (List.mem_cons_of_mem _ hpiece)
      rwa [Feeds, ← h.outlets] at hpiece
    rw [Stream.rendered_of_traits htraits] at h'
    rw [writeInTurn, List.length_cons, Nat.add_comm, List.map_cons, List.flatMap_cons]
    exact h.trans hin' h'

/-- All bytes of some pieces are written to a standard stream that does not fail, one piece after the other and
through any outlets for the stream, while nothing else is to run.  The calls succeed, and the output is that of
one write of all bytes, except on a stream without a byte layer that reads them as UTF-8: it reads every piece by
itself, so there the output is the same just if every cut falls between two characters, or ill-formed parts. -/
theorem output_of_pieces (hr : s.ready = []) (hin : s.stdio.inUse? n = some stream) (hst : stream.Steady)
    {pieces : List (Nat × Bytes)} (hfeeds : ∀ piece ∈ pieces, s.Feeds piece.1 n) (ho : s.Feeds o n) :
    let whole := (pieces.map Prod.snd).flatten
    s.Completed pieces.length n stream ((pieces.map Prod.snd).flatMap stream.rendered) (s.writeInTurn pieces)
    ∧ s.Completed 1 n stream (stream.rendered whole) (s.writeInTurn [(o, whole)])
    ∧ (((s.writeInTurn pieces).stdio.inUse? n).map Stream.output =
        ((s.writeInTurn [(o, whole)]).stdio.inUse? n).map Stream.output
      ↔ (stream.ReadsUtf8 → Text.Utf8.KeepsParts (pieces.map Prod.snd))) := by
  intro whole
  have hpieces := completed_writeInTurn hr hin hst hfeeds
  have hwhole : s.Completed 1 n stream (stream.rendered whole) (s.writeInTurn [(o, whole)]) :=
    completed_settle hr ho hin hst whole
  obtain ⟨u, hu, -, hout⟩ := hpieces.adds
  obtain ⟨u', hu', -, hout'⟩ := hwhole.adds
  refine ⟨hpieces, hwhole, ?_⟩
  rw [hu, hu', Option.map_some, Option.map_some, Option.some_inj, hout, hout', List.append_cancel_left_eq]
  exact stream.rendered_pieces_iff _

/-- The standard output has no byte layer and reads bytes as UTF-8, and two outlets are for it, the second a clone
of the first. -/
def textOutput : Session :=
  let s := ((start { Stream.Traits.plain with textOnly := true, encoding := some .utf8 } .plain).addOutlet
    (.ofStream .stdout)).1
  (s.addOutlet (.ofStream .stdout)).1

theorem steady_textOutput : ∃ stream, textOutput.stdio.inUse? .stdout = some stream ∧ stream.Steady :=
  ⟨_, rfl, rfl, rfl, by decide, nofun⟩

/-- Pieces that are cut between two characters are written as they are joined. -/
theorem textOutput_between :
    ((textOutput.writeInTurn [(0, [0x61]), (1, [0xC3, 0xA9])]).stdio.inUse? .stdout).map Stream.output =
        some [0x61, 0xC3, 0xA9] ∧
      ((textOutput.writeInTurn [(0, [0x61]), (1, [0xC3, 0xA9])]).stdio.inUse? .stdout).map Stream.output =
        ((textOutput.writeInTurn [(0, [0x61, 0xC3, 0xA9])]).stdio.inUse? .stdout).map Stream.output := by
  obtain ⟨stream, hin, hst⟩ := steady_textOutput
  have hfeeds : ∀ piece ∈ ([(0, [0x61]), (1, [0xC3, 0xA9])] : List (Nat × Bytes)),
      textOutput.Feeds piece.1 .stdout := by decide
  obtain ⟨-, -, hsame⟩ := output_of_pieces rfl hin hst hfeeds (hfeeds _ List.mem_cons_self)
  exact ⟨by decide +kernel, hsame.2 fun _ => by decide⟩

/-- Two pieces that are cut within a character are not. -/
theorem textOutput_within :
    (∃ stream, textOutput.stdio.inUse? .stdout = some stream ∧ stream.Steady) ∧ textOutput.ready = [] ∧
      textOutput.Feeds 0 .stdout ∧ textOutput.Feeds 1 .stdout ∧
        ((textOutput.writeInTurn [(0, [0xC3]), (1, [0xA9])]).stdio.inUse? .stdout).map Stream.output =
            some [0xEF, 0xBF, 0xBD, 0xEF, 0xBF, 0xBD] ∧
          ((textOutput.writeInTurn [(0, [0xC3, 0xA9])]).stdio.inUse? .stdout).map Stream.output =
            some [0xC3, 0xA9] := by
  refine ⟨steady_textOutput, rfl, by decide, by decide, ?_, ?_⟩
  · decide +kernel
  · decide +kernel

end Session

end Outflow
