import Outflow.Proofs.Session.Views

/-!
# Runs

A session moves by turns of the ready queue, and by what is done to it from outside, in any order.

* `Session.Has`, `Session.Fits`: the members that an outlet or a call needs;
* `Session.Move`: what is done to a session from outside;
* `Session.Run`, `Session.Reachable`: runs, with the sessions at which turns were taken so far;
* `Session.Extends`: members are never removed, and a gate stays before its pipe.
-/

namespace Outflow.Session

variable {s s' s'' s₀ : Session}

/-- Whether what a backing names is there. -/
def Has (s : Session) : Backing → Prop
  | .stream _ => True
  | .gate g => ∃ p, s.gatePipe? g = some p
  | .pipe p => ∃ b, s.pipe? p = some b

/-- Whether the pipes, gates and outlets that a call names are there. -/
def Fits (s : Session) : Call → Prop
  | .idle _ => True
  | .backing b _ => s.Has b
  | .outlet o _ | .writeAll o _ => ∃ x, s.outlets[o]? = some x
  | .read p _ | .readLine p | .close p | .nextLine p | .lines p _ => s.Has (.pipe p)
  | .forward p _ o _ _ => s.Has (.pipe p) ∧ ∃ x, s.outlets[o]? = some x

theorem Fits.onPipe {c : Call} (hc : s.Fits c) {p : Nat} {r : Pipe.Request}
    (h : c.operation = .onPipe p r) : s.Has (.pipe p) := by
  unfold Call.operation Operation.read at h
  grind [Fits]

theorem Fits.onBacking {c : Call} (hc : s.Fits c) {b : Backing} {q : Sink.Request}
    (h : c.operation = .onBacking b q) : s.Has b := by
  unfold Call.operation Operation.read at h
  grind [Fits]

theorem Fits.onOutlet {c : Call} (hc : s.Fits c) {o : Nat} {q : Sink.Request}
    (h : c.operation = .onOutlet o q) : ∃ x, s.outlets[o]? = some x := by
  unfold Call.operation Operation.read at h
  grind [Fits]

/-- What is done to a session from outside: members are made of what is there, calls are begun, tasks
are cancelled, outlets are given unknown destinations, and notices, the standard streams and the journal
are changed at will. -/
inductive Move : Session → Session → Prop
  | addPipe {s capacity p} (h : Pipe.create? capacity = some p) : Move s (s.addPipe p).1
  | addGate {s p} (h : s.Has (.pipe p)) : Move s (s.addGate p).1
  | addOutlet {s o} (h : ∀ b, o.backing = some b → s.Has b ∧ o.destination ≠ .null) :
    Move s (s.addOutlet o).1
  | retarget {s place o} (name : String) (h : s.outlets[place]? = some o) :
    Move s { s with outlets := s.outlets.set place { o with destination := .other name } }
  | spawn {s c} (h : s.Fits c) : Move s (s.spawn c).1
  | cancel (s t) : Move s (s.cancel t).1
  | post (s n) : Move s (s.post n)
  | record (s journal stdio) : Move s { s with journal, stdio }

/-- A run from one session to another; `past` are the sessions at which turns were taken, in order. -/
inductive Run (s₀ : Session) : (past : List Session) → Session → Prop
  | refl : Run s₀ [] s₀
  | turn {past s} (h : Run s₀ past s) : Run s₀ (past ++ [s]) s.turn
  | move {past s s'} (h : Run s₀ past s) (hm : Move s s') : Run s₀ past s'

/-- A session that some run leads to. -/
def Reachable (s : Session) : Prop := ∃ out err past, Run (start out err) past s

theorem Run.trans {past past' : List Session} (h : Run s₀ past s) (h' : Run s past' s') :
    Run s₀ (past ++ past') s' := by
  induction h' with
  | refl => rw [List.append_nil]; exact h
  | turn _ ih => rw [← List.append_assoc]; exact ih.turn
  | move _ hm ih => exact ih.move hm

/-- A run can be cut at each of its turns. -/
theorem Run.split {past us vs : List Session} {u : Session} (h : Run s₀ past s)
    (he : past = us ++ u :: vs) : Run s₀ us u ∧ Run u.turn vs s := by
  induction h generalizing vs with
  | refl => simp at he
  | @turn past s h ih =>
    rcases List.eq_nil_or_concat vs with rfl | ⟨ws, x, rfl⟩
    · obtain ⟨rfl, hs⟩ := List.append_inj' he rfl
      cases hs
      exact ⟨h, .refl⟩
    · rw [List.concat_eq_append] at he ⊢
      rw [← List.cons_append, ← List.append_assoc] at he
      obtain ⟨hpast, hs⟩ := List.append_inj' he rfl
      cases hs
      obtain ⟨h₁, h₂⟩ := ih hpast
      exact ⟨h₁, h₂.turn⟩
  | move _ hm ih =>
    obtain ⟨h₁, h₂⟩ := ih he
    exact ⟨h₁, h₂.move hm⟩

/-- A run leads through the sessions at which it took its turns, and to its last. -/
theorem Run.through {past : List Session} {u : Session} (h : Run s₀ past s) (hu : u ∈ past ++ [s]) :
    ∃ us vs, past = us ++ vs ∧ Run s₀ us u ∧ Run u vs s := by
  rcases List.mem_append.1 hu with hu | hu
  · obtain ⟨us, vs, rfl⟩ := List.append_of_mem hu
    obtain ⟨h₁, h₂⟩ := h.split rfl
    exact ⟨us, u :: vs, rfl, h₁, Run.refl.turn.trans h₂⟩
  · rw [List.mem_singleton.1 hu]
    exact ⟨past, [], (List.append_nil _).symm, h, .refl⟩

/-- A number of turns in a row. -/
theorem Run.iterate {past : List Session} (h : Run s₀ past s) (n : Nat) :
    Run s₀ (past ++ List.iterate Session.turn s n) (Session.turn^[n] s) := by
  induction n generalizing past s with
  | zero => rw [List.iterate, List.append_nil]; exact h
  | succ n ih => rw [List.iterate, List.append_cons]; exact ih h.turn

theorem reachable_start (out err : Stream.Traits) : Reachable (start out err) :=
  ⟨out, err, [], .refl⟩

theorem Reachable.turn (h : Reachable s) : Reachable s.turn := by
  obtain ⟨out, err, past, h⟩ := h
  exact ⟨out, err, _, h.turn⟩

theorem Reachable.move (h : Reachable s) (hm : Move s s') : Reachable s' := by
  obtain ⟨out, err, past, h⟩ := h
  exact ⟨out, err, _, h.move hm⟩

/-- What settling does is to take turns. -/
theorem run_eq_iterate (s : Session) (n : Nat) : s.run n = turn^[n] s := by
  induction n generalizing s with
  | zero => rfl
  | succ n ih =>
    rw [run]
    split
    · rename_i hr
      have ht : s.turn = s := by simp only [turn, List.isEmpty_iff.1 hr]
      exact (Function.iterate_fixed ht _).symm
    · exact ih s.turn

theorem Reachable.run (h : Reachable s) (n : Nat) : Reachable (s.run n) := by
  obtain ⟨out, err, past, h⟩ := h
  refine ⟨out, err, past ++ List.iterate Session.turn s n, ?_⟩
  rw [run_eq_iterate]
  exact h.iterate n

theorem Reachable.settle (h : Reachable s) : Reachable s.settle := h.run s.budget

/-- What holds at the start and is kept by turns and moves holds at all times. -/
theorem Run.invariant {P : Session → Prop} (h₀ : P s₀) (ht : ∀ s, P s → P s.turn)
    (hm : ∀ s s', P s → Move s s' → P s') {past : List Session} (h : Run s₀ past s) : P s := by
  induction h with
  | refl => exact h₀
  | turn _ ih => exact ht _ ih
  | move _ h ih => exact hm _ _ ih h

/-! ### Members stay -/

/-- The members of a session are there in another, and gates and outlets stand before the same. -/
structure Extends (s s' : Session) : Prop where
  gatePipe : ∀ g p, s.gatePipe? g = some p → s'.gatePipe? g = some p
  pipe : ∀ p b, s.pipe? p = some b → ∃ b', s'.pipe? p = some b'
  outlet : ∀ (o : Nat) x, s.outlets[o]? = some x →
    ∃ x', s'.outlets[o]? = some x' ∧ x'.backing = x.backing

theorem Extends.of_eq (hg : s'.gatePipe? = s.gatePipe?)
    (hp : ∀ p b, s.pipe? p = some b → ∃ b', s'.pipe? p = some b') (ho : s'.outlets = s.outlets) :
    Extends s s' :=
  ⟨fun g p h => by rw [hg]; exact h, hp, fun o x h => ⟨x, by rw [ho]; exact h, rfl⟩⟩

theorem Extends.trans (h : Extends s s') (h' : Extends s' s'') : Extends s s'' := by
  refine ⟨fun g p hp => h'.gatePipe g p (h.gatePipe g p hp), fun p b hb => ?_, fun o x hx => ?_⟩
  · obtain ⟨b', hb'⟩ := h.pipe p b hb
    exact h'.pipe p b' hb'
  · obtain ⟨x', hx', hb'⟩ := h.outlet o x hx
    obtain ⟨x'', hx'', hb''⟩ := h'.outlet o x' hx'
    exact ⟨x'', hx'', hb''.trans hb'⟩

theorem Extends.has (h : Extends s s') {b : Backing} (hb : s.Has b) : s'.Has b := by
  cases b with
  | stream n => trivial
  | gate g =>
    obtain ⟨p, hp⟩ := hb
    exact ⟨p, h.gatePipe g p hp⟩
  | pipe p =>
    obtain ⟨b, hp⟩ := hb
    exact h.pipe p b hp

theorem Extends.fits (h : Extends s s') {c : Call} (hc : s.Fits c) : s'.Fits c := by
  have ho : ∀ (o : Nat), (∃ x, s.outlets[o]? = some x) → ∃ x, s'.outlets[o]? = some x := by
    rintro o ⟨x, hx⟩
    obtain ⟨x', hx', -⟩ := h.outlet o x hx
    exact ⟨x', hx'⟩
  cases c with
  | idle => trivial
  | backing b r => exact h.has (b := b) hc
  | outlet o r => exact ho o hc
  | writeAll o rest => exact ho o hc
  | read p limit => exact h.has (b := .pipe p) hc
  | readLine p => exact h.has (b := .pipe p) hc
  | close p => exact h.has (b := .pipe p) hc
  | nextLine p => exact h.has (b := .pipe p) hc
  | lines p got => exact h.has (b := .pipe p) hc
  | forward p limit o total leg => exact ⟨h.has (b := .pipe p) hc.1, ho o hc.2⟩

/-- What a call goes on with needs the same members. -/
theorem Fits.resume {c c' : Call} (hc : s.Fits c) {d : Destination} {outcome : Outcome}
    (h : c.resume d outcome = .more c') : s.Fits c' := by
  unfold Call.resume at h
  split at h
  all_goals try split at h
  all_goals cases h
  all_goals exact hc

/-! ### A contended gate -/

/-- A pipe for one byte, and three tasks that are to write one byte each through its gate. -/
def threeWriters : Session :=
  let s := ((start .plain .plain).addPipe (.empty 1)).1
  let s := (s.addGate 0).1
  let s := (s.spawn (.backing (.gate 0) (.write [1]))).1
  let s := (s.spawn (.backing (.gate 0) (.write [2]))).1
  (s.spawn (.backing (.gate 0) (.write [3]))).1

/-- The first byte is accepted, the second write waits in the pipe, and the third queues for the gate. -/
def contended : Session := threeWriters.turn.turn.turn

theorem run_contended : Run (start .plain .plain)
    [threeWriters, threeWriters.turn, threeWriters.turn.turn] contended := by
  have h₀ : Run (start .plain .plain) [] (start .plain .plain) := .refl
  have h₁ := h₀.move (@Move.addPipe _ 1 _ rfl)
  have h₂ := h₁.move (@Move.addGate _ 0 ⟨_, rfl⟩)
  have h₃ := h₂.move (@Move.spawn _ (.backing (.gate 0) (.write [1])) ⟨_, rfl⟩)
  have h₄ := h₃.move (@Move.spawn _ (.backing (.gate 0) (.write [2])) ⟨_, rfl⟩)
  have h₅ := h₄.move (@Move.spawn _ (.backing (.gate 0) (.write [3])) ⟨_, rfl⟩)
  exact h₅.turn.turn.turn

theorem reachable_contended : Reachable contended := ⟨_, _, _, run_contended⟩

/-- Then a byte is to be read. -/
def contendedRead : Session := (contended.spawn (.read 0 1)).1

/-- A byte was read, and the second write was accepted: the gate is free, and the third task has not run
yet. -/
def handedOver : Session := contendedRead.turn.turn

theorem run_handedOver : Run (start .plain .plain)
    ([threeWriters, threeWriters.turn, threeWriters.turn.turn] ++
      [contendedRead, contendedRead.turn]) handedOver := by
  have h : Run contended [] contendedRead := Run.refl.move (@Move.spawn _ (.read 0 1) ⟨_, rfl⟩)
  exact run_contended.trans h.turn.turn

theorem reachable_handedOver : Reachable handedOver := ⟨_, _, _, run_handedOver⟩

end Outflow.Session
