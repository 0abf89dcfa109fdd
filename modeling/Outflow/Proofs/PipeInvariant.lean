import Outflow.Proofs.Session.History
import Outflow.Proofs.Session.Order

/-!
# What a pipe is at all times

* `Pipe.Becomes`: what a pipe may become: its capacity stays, closed ends stay closed, and once one is
  closed nothing is added to the buffer;
* `Pipe.becomes_serve`, `Serves.becomes`: one request, and a history of requests, lead a pipe to what it
  may become;
* `Session.Rouses`: a turn wakes all who wait for a pipe;
* `rouses_turn`: a turn that changes a pipe does so;
* `pipe_invariant`: all this of a pipe from the moment in which it is made.
-/

namespace Outflow

namespace Pipe

/-- What a pipe may become. -/
structure Becomes (p q : Pipe) : Prop where
  capacity : q.capacity = p.capacity
  writeClosed : p.writeClosed = true → q.writeClosed = true
  readClosed : p.readClosed = true → q.readClosed = true
  suffix : p.isClosing = true → q.buffer <:+ p.buffer

/-- With an end closed a request only takes bytes from the front. -/
theorem suffix_serve {p : Pipe} (hv : p.Valid) (hc : p.isClosing = true) (r : Request) :
    (p.serve r).pipe.buffer <:+ p.buffer := by
  by_cases hr : p.readClosed = true
  · rw [buffer_serve_of_readClosed hr (hv.buffer_eq_nil hr)]
    exact List.nil_suffix
  · by_cases hclose : r = .close
    · rw [hclose, serve_close]
      exact List.nil_suffix
    · have h := buffer_append_accepted (by simpa using hr) hclose
      rw [accepted_of_isClosing hc, List.append_nil] at h
      exact ⟨p.removed r, h.symm⟩

theorem becomes_serve {p : Pipe} (hv : p.Valid) (r : Request) : p.Becomes (p.serve r).pipe := by
  refine ⟨capacity_serve p r, fun h => ?_, fun h => ?_, fun h => suffix_serve hv h r⟩
  · rw [writeClosed_serve, h, Bool.true_or]
  · rw [readClosed_serve, h, Bool.true_or]

theorem Becomes.refl (p : Pipe) : p.Becomes p := ⟨rfl, id, id, fun _ => List.suffix_rfl⟩

/-- An end that is closed is closed in what the pipe becomes. -/
theorem Becomes.isClosing {p q : Pipe} (h : p.Becomes q) (hc : p.isClosing = true) :
    q.isClosing = true := by
  rw [Pipe.isClosing, Bool.or_eq_true] at hc ⊢
  exact hc.imp h.writeClosed h.readClosed

theorem Becomes.trans {p q r : Pipe} (h : p.Becomes q) (h' : q.Becomes r) : p.Becomes r :=
  ⟨h'.capacity.trans h.capacity, fun hc => h'.writeClosed (h.writeClosed hc),
    fun hc => h'.readClosed (h.readClosed hc),
    fun hc => (h'.suffix (h.isClosing hc)).trans (h.suffix hc)⟩

/-- A pipe for a number of bytes is open and empty and takes just so many. -/
theorem capacity_of_create? {capacity : Int} {p : Pipe} (h : create? capacity = some p) :
    (p.capacity : Int) = capacity := by
  unfold create? at h
  split at h
  · cases h
  · rename_i hpos
    cases h
    exact Int.toNat_of_nonneg (by omega)

end Pipe

/-- Any number of requests lead a pipe to what it may become. -/
theorem Serves.becomes {b₀ b : Pipe} {vs : List Service} (h : Serves b₀ vs b) (hv : b₀.Valid) :
    b₀.Becomes b := by
  induction h with
  | nil => exact .refl b₀
  | snoc h ih => exact ih.trans (Pipe.becomes_serve (h.valid hv) _)

namespace Session

variable {s s' s₀ u : Session} {past : List Session} {t p : Nat}

/-- The next turn, which is that of the task `t`, wakes all others who wait for a pipe: all are ready to
run, and nobody but `t` itself is parked there. -/
structure Rouses (s : Session) (p t : Nat) : Prop where
  turn : ∃ rest, s.ready = .task t :: rest
  ready : ∀ w ∈ s.waiters (.pipe p), w.task ≠ t → Job.task w.task ∈ s.turn.ready
  woken : ∀ w ∈ s.waiters (.pipe p), w.task ≠ t → w.mark = .parked →
    ⟨w.task, .woken⟩ ∈ s.turn.waiters (.pipe p)
  parked : ∀ w ∈ s.turn.waiters (.pipe p), w.mark = .parked → w.task = t

theorem waiters_pipe_congr (h : s'.channels = s.channels) :
    s'.waiters (.pipe p) = s.waiters (.pipe p) := by rw [waiters, h, waiters]

/-- When a service wakes those who wait, the task itself is the only one that may be parked then. -/
theorem Poised.parked_serve {task : Task} {held : Option Nat} {s₁ : Session}
    (h : Poised s t task held s₁) {b : Pipe} (hb : s.pipe? p = some b) {r : Pipe.Request}
    (hw : (b.serve r).wakes = true) :
    ∀ w ∈ (s₁.serve t held p r).waiters (.pipe p), w.mark = .parked → w.task = t := by
  have hb₁ : s₁.pipe? p = some b := by rw [h.pipe, hb]
  have hall : ∀ w ∈ (s₁.refresh p (b.serve r)).waiters (.pipe p), w.mark ≠ .parked := by
    rw [waiters_refresh hb₁, Function.update_self, if_pos hw]
    intro w hmem
    obtain ⟨v, -, rfl⟩ := List.mem_map.1 hmem
    exact Waiter.wake_ne_parked v
  obtain ⟨again, -, he, -⟩ | ⟨outcome, entry, -, he, -⟩ := h.serve_cases hb r
  · have hb₂ : (s₁.refresh p (b.serve r)).pipe? p = some (b.serve r).pipe := by
      rw [pipe?_refresh hb₁, Function.update_self]
    rw [he, waiters_park hb₂, Function.update_self]
    intro w hmem hm
    rcases List.mem_append.1 hmem with hmem | hmem
    · exact absurd hm (hall w hmem)
    · rw [List.mem_singleton.1 hmem]
  · rw [he, waiters_pipe_congr ((channels_complete ..).trans (channels_release ..))]
    exact fun w hmem hm => absurd hm (hall w hmem)

/-- Whoever is in a waiting list and not parked there is ready. -/
theorem ready_of_not_parked (h : Sound s none none) {a : Place} {w : Waiter} (hw : w ∈ s.waiters a)
    (hm : w.mark ≠ .parked) : Job.task w.task ∈ s.ready := by
  have hturn := h.placed.turnsOf_of_mem a w hw
  rw [if_neg hm, turnsOf] at hturn
  rw [← List.count_pos_iff, hturn]
  exact Nat.one_pos

/-- A turn that changes a pipe wakes all who wait for it. -/
theorem rouses_turn (h : Sound s none none) (hne : s.turn.pipe? p ≠ s.pipe? p) :
    ∃ t, Rouses s p t := by
  rcases pipe?_turn_cases h p with ⟨-, he⟩ | ⟨v, hv, rfl, he⟩
  · exact absurd he hne
  obtain ⟨rest, task, hr, hk, -, hb⟩ := service?_eq_some hv
  have hcourse := turn_course h hr hk
  have hwakes : (v.before.serve v.request).wakes = true := by
    by_contra hw
    rw [Bool.not_eq_true] at hw
    rw [he, hb, Service.after, Pipe.serve_of_not_wakes hw] at hne
    exact hne rfl
  have hparked : ∀ w ∈ s.turn.waiters (.pipe v.place), w.mark = .parked → w.task = v.task := by
    obtain ⟨s₁, hp, -, hturn⟩ := hcourse.poised hv
    rw [hturn]
    exact hp.parked_serve hb hwakes
  have hs' := h.turn
  -- whoever waited is still in the list, and not parked
  have hstays : ∀ w ∈ s.waiters (.pipe v.place), w.task ≠ v.task →
      ∃ w' ∈ s.turn.waiters (.pipe v.place), w'.task = w.task ∧ w'.mark ≠ .parked := by
    intro w hw hwt
    have hline : w.task ∈ s.turn.line (.pipe v.place) := by
      rw [hcourse.line]
      refine List.mem_append_left _ (List.mem_filter.2 ⟨List.mem_map_of_mem hw, ?_⟩)
      simpa using hwt
    obtain ⟨w', hw', htask⟩ := List.mem_map.1 hline
    exact ⟨w', hw', htask, fun hm => hwt (htask.symm.trans (hparked w' hw' hm))⟩
  refine ⟨v.task, ⟨rest, hr⟩, fun w hw hwt => ?_, fun w hw hwt hm => ?_, hparked⟩
  · obtain ⟨w', hw', htask, hm⟩ := hstays w hw hwt
    rw [← htask]
    exact ready_of_not_parked hs' hw' hm
  · obtain ⟨w', hw', htask, hm'⟩ := hstays w hw hwt
    obtain ⟨task', mark⟩ := w'
    cases htask
    cases mark with
    | woken => exact hw'
    | parked => exact absurd rfl hm'
    | cancelled =>
      -- whoever is parked is not to end, and no turn asks for that
      have hold := h.placed.isCancelling_of_mem _ w hw (by simp [hm])
      have hnew := hs'.placed.isCancelling_of_mem _ _ hw' (by simp)
      rw [cancelling_turn h] at hnew
      rw [hm] at hold
      rw [hold] at hnew
      cases hnew

/-- What is done from outside leaves the pipes that are there as they are. -/
theorem Move.pipe?_of_some (hm : Move s s') (h : Sound s none none) {b : Pipe}
    (hb : s.pipe? p = some b) : s'.pipe? p = some b := by
  obtain ⟨b', hb', hv⟩ := (Run.refl.move hm).serves h hb
  rw [hb', Serves.nil_iff.1 hv]

theorem pipe?_addPipe_self (s : Session) (b : Pipe) :
    (s.addPipe b).1.pipe? (s.addPipe b).2 = some b := by
  rw [pipe?, addPipe, List.getElem?_concat_length]
  rfl

/-- A pipe, at all times after it was made for `capacity` bytes: it has this capacity, which is never
exceeded, and holds nothing when the read end is closed; all that it becomes later keeps closed ends closed,
and then holds only what is left of what it holds now; it is changed only by the turn of a task, which wakes
all others who wait for it; and so whoever is parked there has a request that the pipe refuses. -/
theorem pipe_invariant {capacity : Int} {b₀ : Pipe} (hu : Reachable u)
    (hc : Pipe.create? capacity = some b₀) (h : Run (u.addPipe b₀).1 past s) :
    ∃ b, s.pipe? (u.addPipe b₀).2 = some b ∧
      (b.capacity : Int) = capacity ∧ b.buffer.length ≤ b.capacity ∧
      (b.readClosed = true → b.buffer = []) ∧
      (∀ past' s', Run s past' s' →
        ∃ b', s'.pipe? (u.addPipe b₀).2 = some b' ∧ b.Becomes b') ∧
      (∀ s', Move s s' → s'.pipe? (u.addPipe b₀).2 = some b) ∧
      (s.turn.pipe? (u.addPipe b₀).2 ≠ some b → ∃ t, Rouses s (u.addPipe b₀).2 t) ∧
      ∀ w ∈ s.waiters (.pipe (u.addPipe b₀).2), w.mark = .parked →
        ∃ gate r, s.stage? w.task = some (.inPipe gate (u.addPipe b₀).2 r) ∧
          b.admits r = false := by
  have hsound₀ : Sound (u.addPipe b₀).1 none none := hu.sound.move (.addPipe hc)
  have hs := hsound₀.run h
  obtain ⟨b, hb, hserves⟩ := h.serves hsound₀ (pipe?_addPipe_self u b₀)
  have hvalid := hserves.valid (Pipe.valid_of_create? hc)
  refine ⟨b, hb, ?_, hvalid.length_le, hvalid.buffer_eq_nil, fun past' s' h' => ?_,
    fun s' hm => hm.pipe?_of_some hs hb, fun hne => ?_, fun w hw hm => ?_⟩
  · rw [hserves.capacity, Pipe.capacity_of_create? hc]
  · obtain ⟨b', hb', hserves'⟩ := h'.serves hs hb
    exact ⟨b', hb', hserves'.becomes hvalid⟩
  · rw [← hb] at hne
    exact rouses_turn hs hne
  · obtain ⟨gate, r, b', hst, hb', hr⟩ := hs.refused _ w hw hm
    rw [hb] at hb'
    cases hb'
    exact ⟨gate, r, hst, hr⟩

/-- The reader makes room in the pipe with the three writers: the write that waits there is woken. -/
theorem rouses_contendedRead :
    Reachable (start .plain .plain) ∧ Pipe.create? 1 = some (.empty 1) ∧
      Run ((start .plain .plain).addPipe (.empty 1)).1
        [threeWriters, threeWriters.turn, threeWriters.turn.turn] contendedRead ∧
      contendedRead.waiters (.pipe 0) = [⟨1, .parked⟩] ∧
      contendedRead.pipe? 0 = some ⟨[1], 1, false, false⟩ ∧
      contendedRead.turn.pipe? 0 = some ⟨[], 1, false, false⟩ ∧ ∃ t, Rouses contendedRead 0 t := by
  have hstart := reachable_start .plain .plain
  have hrun : Run ((start .plain .plain).addPipe (.empty 1)).1
      [threeWriters, threeWriters.turn, threeWriters.turn.turn] contendedRead := by
    have h₀ : Run ((start .plain .plain).addPipe (.empty 1)).1 []
        ((start .plain .plain).addPipe (.empty 1)).1 := .refl
    have h₁ := h₀.move (@Move.addGate _ 0 ⟨_, rfl⟩)
    have h₂ := h₁.move (@Move.spawn _ (.backing (.gate 0) (.write [1])) ⟨_, rfl⟩)
    have h₃ := h₂.move (@Move.spawn _ (.backing (.gate 0) (.write [2])) ⟨_, rfl⟩)
    have h₄ := h₃.move (@Move.spawn _ (.backing (.gate 0) (.write [3])) ⟨_, rfl⟩)
    exact h₄.turn.turn.turn.move (@Move.spawn _ (.read 0 1) ⟨_, rfl⟩)
  have hbefore : contendedRead.pipe? 0 = some ⟨[1], 1, false, false⟩ := rfl
  have hafter : contendedRead.turn.pipe? 0 = some ⟨[], 1, false, false⟩ := rfl
  have hcreate : Pipe.create? 1 = some (.empty 1) := rfl
  obtain ⟨b, hb, -, -, -, -, -, hrouse, -⟩ := pipe_invariant hstart hcreate hrun
  refine ⟨hstart, hcreate, hrun, rfl, hbefore, hafter, hrouse ?_⟩
  rw [← hb]
  change contendedRead.turn.pipe? 0 ≠ contendedRead.pipe? 0
  rw [hbefore, hafter]
  decide

end Session

end Outflow
