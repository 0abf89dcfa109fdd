import Outflow.Proofs.Session.Progress
import Outflow.Proofs.Settling

/-!
# What is written arrives

Some calls write all of their data through one gate to a pipe that nobody else uses, and one call reads
from it to the end.

* `Shuffle`: bytes that come from several byte strings, each in its order;
* `Session.Unused`, `Session.Begun`: a pipe that nobody uses, and calls that are begun in some order, with
  turns in between;
* `Session.Delivery`: what holds at all times; `Delivery.turn`, `Delivery.spawn`: it is kept;
* `Delivery.written`, `Delivery.closed`: when the session has settled, all is written, and read;
* `Delivery.removed_eq_accepted`, `Delivery.shuffle`: what is read is what was written, shuffled;
* `delivered`: all this together.
-/

namespace Outflow

/-! ### Shuffles -/

/-- Whether bytes are those of some byte strings, shuffled: each has the number of the string that it
comes from, and those with one number are that string. -/
def Shuffle (ds : List Bytes) (bs : Bytes) : Prop :=
  ∃ marked : List (Nat × UInt8), marked.map Prod.snd = bs ∧ (∀ m ∈ marked, m.1 < ds.length) ∧
    ∀ (i : Nat) d, ds[i]? = some d → (marked.filter fun m => m.1 == i).map Prod.snd = d

/-- One byte string alone is not changed. -/
theorem Shuffle.eq_of_singleton {d bs : Bytes} (h : Shuffle [d] bs) : bs = d := by
  obtain ⟨marked, rfl, hmem, hd⟩ := h
  have hall : (marked.filter fun m => m.1 == 0) = marked := by
    rw [List.filter_eq_self]
    intro m hm
    have hlt := hmem m hm
    rw [List.length_singleton] at hlt
    simp [Nat.lt_one_iff.1 hlt]
  rw [← hd 0 d rfl, hall]

/-- The strings may be numbered in any way. -/
theorem Shuffle.of_marks {ds : List Bytes} {marked : List (Nat × UInt8)} (place : Nat → Nat)
    (hplace : Function.Injective place) (hmem : ∀ m ∈ marked, ∃ j < ds.length, m.1 = place j)
    (hd : ∀ (j : Nat) d, ds[j]? = some d →
      (marked.filter fun m => m.1 == place j).map Prod.snd = d) :
    Shuffle ds (marked.map Prod.snd) := by
  have hindex : ∀ j, Function.invFun place (place j) = j := Function.leftInverse_invFun hplace
  refine ⟨marked.map fun m => (Function.invFun place m.1, m.2), by rw [List.map_map]; rfl, ?_, ?_⟩
  · intro m hm
    obtain ⟨m₀, hm₀, rfl⟩ := List.mem_map.1 hm
    obtain ⟨j, hj, he⟩ := hmem m₀ hm₀
    rw [he, hindex]
    exact hj
  · intro j d hj
    rw [← hd j d hj, List.filter_map, List.map_map]
    have hsame : (marked.filter fun m => Function.invFun place m.1 == j) =
        marked.filter fun m => m.1 == place j := by
      apply List.filter_congr
      intro m hm
      obtain ⟨i, -, he⟩ := hmem m hm
      rw [he, hindex]
      by_cases hij : i = j
      · simp [hij]
      · simp [hij, hplace.ne hij]
    exact congrArg (List.map Prod.snd) hsame

namespace Session

variable {s s' s₀ : Session} {past : List Session} {t p g o : Nat} {task task' : Task}
  {cs : List Call} {c : Call} {b b' : Pipe} {data : Bytes} {vs : List Service}

/-! ### A delivery -/

/-- A gate stands before a pipe that is open and empty and that no task has to do with. -/
structure Unused (s : Session) (p g : Nat) : Prop where
  gatePipe : s.gatePipe? g = some p
  pipe : ∃ b, s.pipe? p = some b ∧ b.buffer = [] ∧ b.isClosing = false
  idle : ∀ (t : Nat) task, s.tasks[t]? = some task → task.isUnfinished = true →
    ¬ s.Concerns task.call p

/-- Calls are begun one after the other, with any number of turns in between and after. -/
inductive Begun (s₀ : Session) : List Call → Session → Prop
  | nil : Begun s₀ [] s₀
  | turn {cs : List Call} {s : Session} (h : Begun s₀ cs s) : Begun s₀ cs s.turn
  | spawn {cs : List Call} {s : Session} (h : Begun s₀ cs s) (c : Call) :
    Begun s₀ (cs ++ [c]) (s.spawn c).1

/-- What holds at all times after the calls `cs` were begun in the session `s₀`, in which the pipe `p` was
unused: `past` are the sessions at which turns were taken, and the pipe is `b` now. -/
structure Delivery (s₀ : Session) (p g : Nat) (cs : List Call) (past : List Session) (s : Session)
    (b : Pipe) : Prop where
  run : Run s₀ past s
  length : s.tasks.length = s₀.tasks.length + cs.length
  outlets : s.outlets = s₀.outlets
  gatePipe : s.gatePipe? g = some p
  pipe : s.pipe? p = some b
  readOpen : b.readClosed = false
  forwards : s₀.forwards = 0 → s.forwards = 0
  /-- Only a call that takes part shuts the pipe down, and it is begun when all is written. -/
  writeOpen : (∀ o, .outlet o .shutdown ∉ cs) → b.writeClosed = false
  quiet : ∀ o, .outlet o .shutdown ∈ cs → ∀ (i o' : Nat) data, cs[i]? = some (.writeAll o' data) →
    s.stage? (s₀.tasks.length + i) = some (.ended (.ok .nothing))
  parts : ∀ c ∈ cs, s.Part p g c
  progress : ∀ (i : Nat) c, cs[i]? = some c → ∃ task, s.tasks[s₀.tasks.length + i]? = some task ∧
    task.cancelling = false ∧ Progress p c task (servicesOf (s₀.tasks.length + i) past) b
  /-- All others have nothing to do with the pipe, so the services of the pipe are those of the calls. -/
  strangers : ∀ (t : Nat) task, t < s₀.tasks.length → s.tasks[t]? = some task →
    task.isUnfinished = true → ¬ s.Concerns task.call p
  apart : ∀ v ∈ services past, v.place = p ↔ s₀.tasks.length ≤ v.task

namespace Delivery

/-- A task that was made since is that of one of the calls. -/
theorem exists_call (h : Delivery s₀ p g cs past s b) (hk : s.tasks[t]? = some task)
    (ht : s₀.tasks.length ≤ t) : ∃ i c, t = s₀.tasks.length + i ∧ cs[i]? = some c := by
  obtain ⟨i, rfl⟩ := Nat.exists_eq_add_of_le ht
  obtain ⟨hlt, -⟩ := List.getElem?_eq_some_iff.1 hk
  rw [h.length] at hlt
  exact ⟨i, cs[i], rfl, List.getElem?_eq_getElem (by omega)⟩

/-- The next turn brings a request to the pipe only for a call that takes part. -/
theorem service (h : Delivery s₀ p g cs past s b) (hs : Sound s none none) {v : Service}
    (hv : s.service? = some v) : (v.place = p ↔ s₀.tasks.length ≤ v.task) ∧
      (v.place = p → v.request ≠ .close ∧
        (v.request = .shutdown → ∃ o, .outlet o .shutdown ∈ cs)) := by
  obtain ⟨task, hk, hu, hpur⟩ := pursues_of_service hs hv
  have hstranger : v.place = p → s₀.tasks.length ≤ v.task := by
    rintro rfl
    by_contra hlt
    exact h.strangers _ task (Nat.lt_of_not_le hlt) hk hu hpur.concerns
  have hpart : s₀.tasks.length ≤ v.task → v.place = p ∧ v.request ≠ .close ∧
      (v.request = .shutdown → ∃ o, .outlet o .shutdown ∈ cs) := by
    intro hle
    obtain ⟨i, c, ht, hc⟩ := h.exists_call hk hle
    obtain ⟨task', hk', -, hprog⟩ := h.progress i c hc
    rw [← ht, hk] at hk'
    cases hk'
    have hmem := List.mem_of_getElem? hc
    obtain ⟨hp, hclose, hshut⟩ := (hprog.part (h.parts c hmem)).request h.gatePipe hpur
    refine ⟨hp, hclose, fun hr => ?_⟩
    obtain ⟨o, rfl⟩ := hprog.shuts (h.parts c hmem) (hshut hr)
    exact ⟨o, hmem⟩
  exact ⟨⟨hstranger, fun hle => (hpart hle).1⟩, fun hp => (hpart (hstranger hp)).2⟩

/-- The pipe after the next turn. -/
theorem pipe_turn (h : Delivery s₀ p g cs past s b) (hs : Sound s none none) :
    ∃ b' ws, s.turn.pipe? p = some b' ∧ Serves b ws b' ∧ b'.readClosed = false ∧
      ((∀ o, .outlet o .shutdown ∉ cs) → b'.writeClosed = false) ∧
        ∀ v, s.service? = some v → v.place = p → v.before = b ∧ b' = v.after := by
  rcases pipe?_turn_cases hs p with ⟨hne, he⟩ | ⟨v, hv, rfl, he⟩
  · exact ⟨b, [], by rw [he, h.pipe], .nil, h.readOpen, h.writeOpen,
      fun v hv hp => absurd hp (hne v hv)⟩
  · have hbefore := before_of_service? hv
    rw [h.pipe] at hbefore
    cases hbefore
    obtain ⟨-, hreq⟩ := h.service hs hv
    obtain ⟨hclose, hshut⟩ := hreq rfl
    refine ⟨v.after, [v], he, .singleton v, ?_, fun hno => ?_, fun v' hv' _ => ?_⟩
    · rw [Service.after, Pipe.readClosed_serve, h.readOpen]
      simp [hclose]
    · have hne : v.request ≠ .shutdown := by
        intro hr
        obtain ⟨o, ho⟩ := hshut hr
        exact hno o ho
      rw [Service.after, Pipe.writeClosed_serve, h.writeOpen hno]
      simp [hne]
    · rw [hv] at hv'
      cases hv'
      exact ⟨rfl, rfl⟩

/-- The turn of a task brings its call further. -/
theorem progress_fate (h : Delivery s₀ p g cs past s b) (hs : Sound s none none) {i : Nat}
    (hc : cs[i]? = some c) {rest : List Job} (hr : s.ready = .task (s₀.tasks.length + i) :: rest)
    (hk : s.tasks[s₀.tasks.length + i]? = some task) (hlive : task.cancelling = false)
    (hprog : Progress p c task (servicesOf (s₀.tasks.length + i) past) b)
    (hf : Fate s (s₀.tasks.length + i) task task')
    (hafter : ∀ v, s.service? = some v → v.place = p → v.before = b ∧ b' = v.after) :
    Progress p c task' (servicesOf (s₀.tasks.length + i) (past ++ [s])) b' := by
  have hu := isUnfinished_of_ready hs hr hk
  have hplace : ∀ v, s.service? = some v → v.place = p := by
    intro v hv
    apply (h.service hs hv).1.2
    rw [task_of_service? hr hv]
    exact Nat.le_add_right _ _
  rw [servicesOf_append]
  cases h.parts c (List.mem_of_getElem? hc) with
  | @write o data ho =>
    refine Writing.fate hprog hf hu hlive ho fun v hv _ => ?_
    -- as long as there is something to write nobody shuts the pipe down
    have hno : ∀ o, .outlet o .shutdown ∉ cs := by
      intro o hmem
      have hend := h.quiet o hmem i _ _ hc
      rw [stage?_of_task hk, Option.some.injEq] at hend
      exact Task.isUnfinished_iff.1 hu _ hend
    rw [(hafter v hv (hplace v hv)).1, Pipe.isClosing, h.writeOpen hno, h.readOpen]
    rfl
  | read =>
    refine Draining.fate hprog hf hr hk hlive hu fun v hv hp => ?_
    obtain ⟨hb, hb'⟩ := hafter v hv hp
    exact ⟨by rw [hb, h.readOpen], hb'⟩
  | shutdown ho => exact Closing.fate hprog hf hlive ho fun v hv _ => (hafter v hv (hplace v hv)).2

/-- A turn keeps it all. -/
theorem turn (h : Delivery s₀ p g cs past s b) (hs₀ : Sound s₀ none none) :
    ∃ b', Delivery s₀ p g cs (past ++ [s]) s.turn b' := by
  have hs := hs₀.run h.run
  have ho := outlets_turn hs
  obtain ⟨b', ws, hb', hserves, hread, hwrite, hafter⟩ := h.pipe_turn hs
  refine ⟨b', ?_⟩
  constructor
  case run => exact h.run.turn
  case length => rw [length_turn hs, h.length]
  case outlets => rw [ho, h.outlets]
  case gatePipe => rw [gatePipe?_turn hs, h.gatePipe]
  case pipe => exact hb'
  case readOpen => exact hread
  case forwards => exact fun hf => forwards_turn hs (h.forwards hf)
  case writeOpen => exact hwrite
  case quiet =>
    intro o hmem i o' data hc
    exact stage?_turn_of_ended hs (h.quiet o hmem i o' data hc)
  case parts => exact fun c hc => (h.parts c hc).congr ho
  case progress =>
    intro i c hc
    obtain ⟨task, hk, hlive, hprog⟩ := h.progress i c hc
    rcases task_turn hs hk with ⟨rest, task', hr, hk', hf⟩ | ⟨hk', hne⟩
    · refine ⟨task', hk', by rw [hf.cancelling, hlive], ?_⟩
      exact h.progress_fate hs hc hr hk hlive hprog hf hafter
    · refine ⟨task, hk', hlive, ?_⟩
      rw [servicesOf_append, servicesOf_eq_nil hne, List.append_nil]
      exact hprog.mono (h.parts c (List.mem_of_getElem? hc)) hserves
  case strangers =>
    intro t task' ht hk' hu' hcon
    rw [concerns_congr ho (gatePipe?_turn hs)] at hcon
    obtain ⟨task, hk⟩ := task_before_turn hs hk'
    rcases task_turn hs hk with ⟨rest, task₁, hr, hk₁, hf⟩ | ⟨hk₁, -⟩
    · rw [hk'] at hk₁
      cases hk₁
      exact h.strangers t task ht hk (isUnfinished_of_ready hs hr hk) (hf.concerns hcon)
    · rw [hk'] at hk₁
      cases hk₁
      exact h.strangers t _ ht hk hu' hcon
  case apart =>
    intro v hv
    rw [services_append] at hv
    rcases List.mem_append.1 hv with hv | hv
    · exact h.apart v hv
    · obtain ⟨u, hu, hv⟩ := List.mem_filterMap.1 hv
      rw [List.mem_singleton.1 hu] at hv
      exact (h.service hs hv).1

/-- Beginning one more call keeps it all; if one is to shut the pipe down, all must have been written. -/
theorem spawn (h : Delivery s₀ p g cs past s b) (hs₀ : Sound s₀ none none) (hc : s₀.Part p g c)
    (hquiet : ∀ o, .outlet o .shutdown ∈ cs ++ [c] → ∀ (i o' : Nat) data,
      (cs ++ [c])[i]? = some (.writeAll o' data) →
        s.stage? (s₀.tasks.length + i) = some (.ended (.ok .nothing))) :
    Delivery s₀ p g (cs ++ [c]) past (s.spawn c).1 b := by
  have hs := hs₀.run h.run
  have hpart : s.Part p g c := hc.congr h.outlets
  have hnew : s.tasks.length = s₀.tasks.length + cs.length := h.length
  constructor
  case run => exact h.run.move (.spawn (hpart.fits h.pipe))
  case length => simp [h.length, Nat.add_assoc]
  case outlets => exact h.outlets
  case gatePipe => exact h.gatePipe
  case pipe => exact h.pipe
  case readOpen => exact h.readOpen
  case forwards => exact fun hf => forwards_spawn hpart.isForward (h.forwards hf)
  case writeOpen =>
    intro hno
    exact h.writeOpen fun o hmem => hno o (List.mem_append_left _ hmem)
  case quiet =>
    intro o hmem i o' data hi
    have hend := hquiet o hmem i o' data hi
    rw [stage?_spawn, Function.update_of_ne, hend]
    intro he
    rw [he, stage?, List.getElem?_eq_none (Nat.le_refl _)] at hend
    cases hend
  case parts =>
    intro c' hmem
    rcases List.mem_append.1 hmem with hmem | hmem
    · exact (h.parts c' hmem).congr rfl
    · rw [List.mem_singleton.1 hmem]
      exact hpart.congr rfl
  case progress =>
    intro i c' hi
    rcases getElem?_concat_cases hi with hold | ⟨rfl, rfl⟩
    · obtain ⟨task, hk, hlive, hprog⟩ := h.progress i c' hold
      refine ⟨task, ?_, hlive, hprog⟩
      obtain ⟨hlt, -⟩ := List.getElem?_eq_some_iff.1 hk
      rw [task_spawn_of_ne s _ (Nat.ne_of_lt hlt), hk]
    · have hnone : servicesOf (s₀.tasks.length + cs.length) past = [] := by
        apply h.run.servicesOf_of_none hs₀
        rw [← hnew, List.getElem?_eq_none (Nat.le_refl _)]
      rw [hnone]
      refine ⟨.ofCall c', by rw [tasks_spawn, ← hnew, List.getElem?_concat_length], rfl, ?_⟩
      cases hpart with
      | read => exact ⟨rfl, rfl, .inl ⟨rfl, rfl⟩⟩
      | write data ho => exact ⟨rfl, data, rfl, .inl ⟨rfl, rfl⟩⟩
      | shutdown ho => exact ⟨rfl, rfl, rfl, .inl rfl⟩
  case strangers =>
    intro t task ht hk
    rw [task_spawn_of_ne s _ (by omega)] at hk
    exact h.strangers t task ht hk
  case apart => exact h.apart

/-- Settling keeps it all. -/
theorem settle (h : Delivery s₀ p g cs past s b) (hs₀ : Sound s₀ none none) :
    ∃ past' b', Delivery s₀ p g cs past' s.settle b' := by
  have hiterate : ∀ n, ∃ past' b', Delivery s₀ p g cs past' (Session.turn^[n] s) b' := by
    intro n
    induction n with
    | zero => exact ⟨past, b, h⟩
    | succ n ih =>
      obtain ⟨past', b', h'⟩ := ih
      obtain ⟨b'', h''⟩ := h'.turn hs₀
      rw [Function.iterate_succ_apply']
      exact ⟨_, b'', h''⟩
  rw [Session.settle, run_eq_iterate]
  exact hiterate s.budget

end Delivery

/-- It holds from the beginning on. -/
theorem Begun.delivery (h : Begun s₀ cs s) (hs₀ : Sound s₀ none none) (hu : s₀.Unused p g)
    (hparts : ∀ c ∈ cs, s₀.Part p g c) (hno : ∀ o, .outlet o .shutdown ∉ cs) :
    ∃ past b, Delivery s₀ p g cs past s b := by
  induction h with
  | nil =>
    obtain ⟨b, hb, hbuf, hopen⟩ := hu.pipe
    rw [Pipe.isClosing, Bool.or_eq_false_iff] at hopen
    refine ⟨[], b, .refl, rfl, rfl, hu.gatePipe, hb, hopen.2, id, fun _ => hopen.1, ?_, ?_, ?_, ?_,
      ?_⟩
    · simp
    · simp
    · simp
    · exact fun t task _ hk hunf => hu.idle t task hk hunf
    · simp [services]
  | turn h ih =>
    obtain ⟨past, b, hd⟩ := ih hparts hno
    obtain ⟨b', hd'⟩ := hd.turn hs₀
    exact ⟨_, b', hd'⟩
  | spawn h c ih =>
    obtain ⟨past, b, hd⟩ := ih (fun c' hc' => hparts c' (List.mem_append_left _ hc'))
      fun o hmem => hno o (List.mem_append_left _ hmem)
    have hc := hparts c (List.mem_append_right _ (List.mem_singleton.2 rfl))
    exact ⟨past, b, hd.spawn hs₀ hc fun o hmem => absurd hmem (hno o)⟩

/-! ### Settled deliveries -/

/-- The bytes that some services add, each with the task that adds it. -/
def marks (vs : List Service) : List (Nat × UInt8) :=
  vs.flatMap fun v => v.accepted.map (Prod.mk v.task)

theorem map_snd_marks (vs : List Service) : (marks vs).map Prod.snd = accepted vs := by
  rw [marks, List.map_flatMap, accepted]
  congr 1
  funext v
  rw [List.map_map]
  exact List.map_id _

theorem map_snd_filter_marks (vs : List Service) (t : Nat) :
    ((marks vs).filter fun m => m.1 == t).map Prod.snd =
      accepted (vs.filter fun v => v.task == t) := by
  induction vs with
  | nil => rfl
  | cons v vs ih =>
    have hcons : marks (v :: vs) = v.accepted.map (Prod.mk v.task) ++ marks vs := List.flatMap_cons ..
    rw [hcons, List.filter_append, List.map_append, ih, List.filter_map, List.map_map]
    by_cases ht : v.task = t
    · subst ht
      simp [Function.comp_def, accepted]
    · simp [Function.comp_def, ht]

/-- Services that remove nothing may be left out. -/
theorem removed_filter {f : Service → Bool} (h : ∀ v ∈ vs, f v = false → v.removed = []) :
    removed (vs.filter f) = removed vs := by
  induction vs with
  | nil => rfl
  | cons v vs ih =>
    have hcons : removed (v :: vs) = v.removed ++ removed vs := List.flatMap_cons ..
    have ih := ih fun w hw => h w (List.mem_cons_of_mem _ hw)
    cases hf : f v with
    | true => rw [List.filter_cons_of_pos hf, hcons, ← ih]; rfl
    | false =>
      rw [List.filter_cons_of_neg (by simp [hf]), hcons, h v List.mem_cons_self hf, ih]
      rfl

namespace Delivery

/-- The call that reads to the end waits, or it has ended with all that it has removed. -/
theorem read_cases (h : Delivery s₀ p g cs past s b) {r : Nat} (hc : cs[r]? = some (.read p (-1))) :
    s.ReaderWaits (s₀.tasks.length + r) p ∨
      (s.stage? (s₀.tasks.length + r) =
          some (.ended (.ok (.bytes (removed (servicesOf (s₀.tasks.length + r) past))))) ∧
        b.writeClosed = true ∧ b.buffer = []) := by
  obtain ⟨task, hk, -, hcall, -, hgot⟩ := h.progress r _ hc
  have hwaits : task.isUnfinished = true → s.ReaderWaits (s₀.tasks.length + r) p := by
    intro hu
    exact ⟨task, .drain [], hk, hu, by rw [hcall]; rfl⟩
  rcases hgot with ⟨hst, -⟩ | hst | ⟨hst, hb⟩
  · exact .inl (hwaits (Task.isUnfinished_iff.2 (by simp [hst])))
  · exact .inl (hwaits (Task.isUnfinished_iff.2 (by simp [hst])))
  · exact .inr ⟨by rw [stage?_of_task hk, hst], hb⟩

/-- When the session has settled, a call that writes has ended, or it waits. -/
theorem write_cases (h : Delivery s₀ p g cs past s b) (hs : Sound s none none) (hr : s.ready = [])
    {i : Nat} (hc : cs[i]? = some (.writeAll o data)) :
    s.stage? (s₀.tasks.length + i) = some (.ended (.ok .nothing)) ∨
      s.WriterWaits (s₀.tasks.length + i) p := by
  obtain ⟨task, hk, -, -, rest, hcall, hrest⟩ := h.progress i _ hc
  rcases hrest with ⟨hu, -⟩ | ⟨hend, -⟩
  · right
    have hpart := h.parts _ (List.mem_of_getElem? hc)
    cases hpart with
    | write data ho =>
      by_cases hne : rest = []
      · -- with nothing left to write it waits for nothing, so it would be ready
        exfalso
        have hpur := hs.employed.pursues _ task hk (by simp)
        rw [hcall, hne] at hpur
        cases hst : task.stage with
        | ended o => exact Task.isUnfinished_iff.1 hu o hst
        | fresh =>
          have hmem := mem_ready_of_fresh hs ((stage?_of_task hk).trans (congrArg some hst))
          rw [hr] at hmem
          cases hmem
        | inPipe gate p' r =>
          rw [hst] at hpur
          exact hpur.operation_ne_answered (.ok .nothing) rfl
        | atGate g' r =>
          rw [hst] at hpur
          obtain ⟨q, -, hop | ⟨o', x, hop, -⟩, -⟩ := hpur
          · cases hop
          · cases hop
      · exact ⟨task, .gate g, .write rest, hk, hu, by rw [hcall]; exact aims_writeAll ho hne,
          .inr ⟨g, rfl, h.gatePipe⟩⟩
  · exact .inl (by rw [stage?_of_task hk, hend])

/-- The call that shuts the pipe down waits, or it has ended and has shut the pipe down. -/
theorem shutdown_cases (h : Delivery s₀ p g cs past s b) {i : Nat}
    (hc : cs[i]? = some (.outlet o .shutdown)) :
    s.WriterWaits (s₀.tasks.length + i) p ∨
      (s.stage? (s₀.tasks.length + i) = some (.ended (.ok .nothing)) ∧ b.writeClosed = true) := by
  obtain ⟨task, hk, -, hcall, -, -, hended⟩ := h.progress i _ hc
  rcases hended with hu | ⟨hend, hw⟩
  · have hpart := h.parts _ (List.mem_of_getElem? hc)
    cases hpart with
    | shutdown ho =>
      exact .inl ⟨task, .gate g, .shutdown, hk, hu, by rw [hcall]; exact aims_shutdown ho,
        .inr ⟨g, rfl, h.gatePipe⟩⟩
  · exact .inr ⟨by rw [stage?_of_task hk, hend], hw⟩

/-- When the session has settled, and nobody is to shut the pipe down, all is written. -/
theorem written (h : Delivery s₀ p g cs past s b) (hs₀ : Sound s₀ none none) (hr : s.ready = [])
    (hno : ∀ o, .outlet o .shutdown ∉ cs) {r : Nat} (hread : cs[r]? = some (.read p (-1))) {i : Nat}
    (hc : cs[i]? = some (.writeAll o data)) :
    s.stage? (s₀.tasks.length + i) = some (.ended (.ok .nothing)) := by
  have hs := hs₀.run h.run
  have hwaits : s.ReaderWaits (s₀.tasks.length + r) p := by
    rcases h.read_cases hread with hwaits | ⟨-, hw, -⟩
    · exact hwaits
    · rw [h.writeOpen hno] at hw
      cases hw
  exact (h.write_cases hs hr hc).resolve_right (not_writerWaits_of_readerWaits hs hr hwaits)

/-- When the session has settled, and a call is to shut the pipe down, it has, and all is read. -/
theorem closed (h : Delivery s₀ p g cs past s b) (hs₀ : Sound s₀ none none) (hr : s.ready = [])
    {r : Nat} (hread : cs[r]? = some (.read p (-1))) {i : Nat}
    (hc : cs[i]? = some (.outlet o .shutdown)) :
    s.stage? (s₀.tasks.length + i) = some (.ended (.ok .nothing)) ∧
      s.stage? (s₀.tasks.length + r) =
          some (.ended (.ok (.bytes (removed (servicesOf (s₀.tasks.length + r) past))))) ∧
        b.buffer = [] := by
  have hs := hs₀.run h.run
  -- whoever waits, waits at an open pipe
  have hclosed : b.writeClosed = true → b.isClosing = true := fun hw => by rw [Pipe.isClosing, hw]; rfl
  rcases h.shutdown_cases hc with hwaits | ⟨hend, hw⟩
  · exfalso
    rcases h.read_cases hread with hwaits' | ⟨-, hw, -⟩
    · exact not_writerWaits_of_readerWaits hs hr hwaits' hwaits
    · obtain ⟨b', hb', hopen, -⟩ := full_of_writerWaits hs hr hwaits
      rw [h.pipe] at hb'
      cases hb'
      rw [hclosed hw] at hopen
      cases hopen
  · rcases h.read_cases hread with hwaits | ⟨hend', -, hbuf⟩
    · obtain ⟨b', hb', hopen, -⟩ := room_of_readerWaits hs hr hwaits
      rw [h.pipe] at hb'
      cases hb'
      rw [hclosed hw] at hopen
      cases hopen
    · exact ⟨hend, hend', hbuf⟩

/-- The services of a call are those that its task had at the pipe. -/
theorem filter_history (h : Delivery s₀ p g cs past s b) (ht : s₀.tasks.length ≤ t) :
    (history p past).filter (fun v => v.task == t) = servicesOf t past := by
  rw [history, servicesOf, List.filter_filter]
  apply List.filter_congr
  intro v hv
  by_cases hvt : v.task = t
  · simp [(h.apart v hv).2 (hvt ▸ ht), hvt]
  · simp [hvt]

/-- Only a call that writes adds bytes to the pipe, and only the call that reads removes some. -/
theorem origin (h : Delivery s₀ p g cs past s b) (hs₀ : Sound s₀ none none) {v : Service}
    (hv : v ∈ history p past) :
    (v.accepted = [] ∨
        ∃ (i o : Nat) (data : Bytes), v.task = s₀.tasks.length + i ∧ cs[i]? = some (.writeAll o data)) ∧
      (v.removed = [] ∨ ∃ i, v.task = s₀.tasks.length + i ∧ cs[i]? = some (.read p (-1))) := by
  obtain ⟨hmem, hp⟩ := List.mem_filter.1 hv
  have hle := (h.apart v hmem).1 (by simpa using hp)
  have hown : v ∈ servicesOf v.task past := List.mem_filter.2 ⟨hmem, by simp⟩
  cases hk : s.tasks[v.task]? with
  | none =>
    rw [h.run.servicesOf_of_none hs₀ hk] at hown
    cases hown
  | some task =>
    obtain ⟨i, c, ht, hc⟩ := h.exists_call hk hle
    obtain ⟨task', -, -, hprog⟩ := h.progress i c hc
    rw [ht] at hown
    -- a call whose services add or remove nothing has no service that does
    have hadd : accepted (servicesOf (s₀.tasks.length + i) past) = [] → v.accepted = [] :=
      fun hnil => List.flatMap_eq_nil_iff.1 hnil v hown
    have hrem : removed (servicesOf (s₀.tasks.length + i) past) = [] → v.removed = [] :=
      fun hnil => List.flatMap_eq_nil_iff.1 hnil v hown
    cases h.parts c (List.mem_of_getElem? hc) with
    | @write o data ho => exact ⟨.inr ⟨i, o, data, ht, hc⟩, .inl (hrem (Writing.removed hprog))⟩
    | read => exact ⟨.inl (hadd (Draining.accepted hprog)), .inr ⟨i, ht, hc⟩⟩
    | shutdown ho =>
      exact ⟨.inl (hadd (Closing.accepted hprog)), .inl (hrem (Closing.removed hprog))⟩

/-- When nothing is buffered, what the one call that reads has removed is all that was added. -/
theorem removed_eq_accepted (h : Delivery s₀ p g cs past s b) (hs₀ : Sound s₀ none none)
    (hu : s₀.Unused p g) (hbuf : b.buffer = []) {r : Nat}
    (hread : ∀ i, cs[i]? = some (.read p (-1)) → i = r) :
    removed (servicesOf (s₀.tasks.length + r) past) = accepted (history p past) := by
  obtain ⟨b₀, hb₀, hbuf₀, -⟩ := hu.pipe
  obtain ⟨b', hb', hserves⟩ := h.run.serves hs₀ hb₀
  rw [h.pipe] at hb'
  cases hb'
  have hall := hserves.conserved h.readOpen
  rw [hbuf₀, hbuf, List.nil_append, List.append_nil] at hall
  rw [hall, ← h.filter_history (Nat.le_add_right _ r)]
  apply removed_filter
  intro v hv hne
  rcases (h.origin hs₀ hv).2 with hnil | ⟨i, ht, hc⟩
  · exact hnil
  · rw [hread i hc] at ht
    simp [ht] at hne

end Delivery

/-! ### Writes and one read -/

/-- Calls that write all of some data through outlets. -/
def writes (ws : List (Nat × Bytes)) : List Call := ws.map fun w => .writeAll w.1 w.2

/-- The place of a member when one more is put in at `r`. -/
def shift (r j : Nat) : Nat := if j < r then j else j + 1

theorem shift_injective (r : Nat) : Function.Injective (shift r) := by
  intro j j' h
  unfold shift at h
  split at h
  all_goals split at h
  all_goals omega

section Calls

variable {us ws : List (Nat × Bytes)}

theorem getElem?_calls (c c' : Call) {j : Nat} {w : Nat × Bytes} (h : (us ++ ws)[j]? = some w) :
    (writes us ++ c :: writes ws ++ [c'])[shift us.length j]? = some (.writeAll w.1 w.2) := by
  by_cases hj : j < us.length
  · rw [List.getElem?_append_left hj] at h
    rw [shift, if_pos hj, List.append_assoc, List.getElem?_append_left (by simpa [writes] using hj),
      writes, List.getElem?_map, h]
    rfl
  · obtain ⟨k, rfl⟩ := Nat.exists_eq_add_of_le (Nat.le_of_not_lt hj)
    rw [List.getElem?_append_right (Nat.le_add_right _ _), Nat.add_sub_cancel_left] at h
    obtain ⟨hk, -⟩ := List.getElem?_eq_some_iff.1 h
    have hlen : (writes us).length = us.length := List.length_map _
    rw [shift, if_neg hj, List.append_assoc, List.getElem?_append_right (by omega), hlen,
      Nat.add_assoc, Nat.add_sub_cancel_left, List.cons_append, List.getElem?_cons_succ,
      List.getElem?_append_left (by simpa [writes] using hk), writes, List.getElem?_map, h]
    rfl

theorem getElem?_calls_cases {c c' x : Call} {i : Nat}
    (h : (writes us ++ c :: writes ws ++ [c'])[i]? = some x) :
    (∃ j w, i = shift us.length j ∧ (us ++ ws)[j]? = some w ∧ x = .writeAll w.1 w.2) ∨
      (i = us.length ∧ x = c) ∨ x = c' := by
  have hlen : (writes us).length = us.length := List.length_map _
  rcases getElem?_concat_cases h with h | ⟨-, rfl⟩
  · rcases Nat.lt_trichotomy i us.length with hlt | rfl | hgt
    · rw [List.getElem?_append_left (by omega), writes, List.getElem?_map] at h
      obtain ⟨w, hw, rfl⟩ := Option.map_eq_some_iff.1 h
      exact .inl ⟨i, w, (if_pos hlt).symm, by rw [List.getElem?_append_left hlt, hw], rfl⟩
    · rw [List.getElem?_append_right (by omega), hlen, Nat.sub_self, List.getElem?_cons_zero] at h
      exact .inr (.inl ⟨rfl, (Option.some.inj h).symm⟩)
    · obtain ⟨k, rfl⟩ := Nat.exists_eq_add_of_lt hgt
      rw [List.getElem?_append_right (by omega), hlen, Nat.add_assoc, Nat.add_sub_cancel_left,
        List.getElem?_cons_succ, writes, List.getElem?_map] at h
      obtain ⟨w, hw, rfl⟩ := Option.map_eq_some_iff.1 h
      refine .inl ⟨us.length + k, w, (if_neg (by omega)).symm, ?_, rfl⟩
      rw [List.getElem?_append_right (Nat.le_add_right _ _), Nat.add_sub_cancel_left, hw]
  · exact .inr (.inr rfl)

end Calls

/-- When all is written and read, what was read is what was written, shuffled. -/
theorem Delivery.shuffle {us ws : List (Nat × Bytes)}
    (h : Delivery s₀ p g (writes us ++ .read p (-1) :: writes ws ++ [.outlet o .shutdown]) past s b)
    (hs₀ : Sound s₀ none none) (hu : s₀.Unused p g) (hbuf : b.buffer = []) :
    Shuffle ((us ++ ws).map Prod.snd) (removed (servicesOf (s₀.tasks.length + us.length) past)) := by
  have hread : ∀ i, (writes us ++ .read p (-1) :: writes ws ++ [.outlet o .shutdown])[i]? =
      some (.read p (-1)) → i = us.length := by
    intro i hi
    rcases getElem?_calls_cases hi with ⟨j, w, -, -, he⟩ | ⟨rfl, -⟩ | he
    · cases he
    · rfl
    · cases he
  rw [h.removed_eq_accepted hs₀ hu hbuf hread, ← map_snd_marks]
  apply Shuffle.of_marks fun j => s₀.tasks.length + shift us.length j
  · intro j j' hj
    exact shift_injective _ (Nat.add_left_cancel hj)
  · intro m hm
    obtain ⟨v, hv, hm⟩ := List.mem_flatMap.1 hm
    obtain ⟨byte, hbyte, rfl⟩ := List.mem_map.1 hm
    rcases (h.origin hs₀ hv).1 with hnil | ⟨i, o', data, ht, hc⟩
    · rw [hnil] at hbyte
      cases hbyte
    · rcases getElem?_calls_cases hc with ⟨j, w, rfl, hj, -⟩ | ⟨-, he⟩ | he
      · obtain ⟨hlt, -⟩ := List.getElem?_eq_some_iff.1 hj
        exact ⟨j, by rwa [List.length_map], ht⟩
      · cases he
      · cases he
  · intro j d hj
    rw [List.getElem?_map] at hj
    obtain ⟨w, hw, rfl⟩ := Option.map_eq_some_iff.1 hj
    have hc := getElem?_calls (.read p (-1)) (.outlet o .shutdown) hw
    have hst := h.quiet o (List.mem_append_right _ (List.mem_singleton.2 rfl)) _ _ _ hc
    obtain ⟨task, hk, -, -, rest, -, ⟨hunf, -⟩ | ⟨-, hacc⟩⟩ := h.progress _ _ hc
    · rw [stage?_of_task hk, Option.some.injEq] at hst
      exact absurd hst (Task.isUnfinished_iff.1 hunf _)
    · rw [map_snd_filter_marks, h.filter_history (Nat.le_add_right _ _), hacc]

theorem part_of_mem {us ws : List (Nat × Bytes)}
    (hclones : ∀ w ∈ us ++ ws, s.outlets[w.1]? = some (.ofGate g))
    (hc : c ∈ writes us ++ .read p (-1) :: writes ws) : s.Part p g c := by
  have hwrites : ∀ vs, vs ⊆ us ++ ws → c ∈ writes vs → s.Part p g c := by
    intro vs hsub hc
    obtain ⟨w, hw, rfl⟩ := List.mem_map.1 hc
    exact .write _ (hclones w (hsub hw))
  rcases List.mem_append.1 hc with hc | hc
  · exact hwrites us (List.subset_append_left _ _) hc
  · rcases List.mem_cons.1 hc with rfl | hc
    · exact .read
    · exact hwrites ws (List.subset_append_right _ _) hc

/-- An outlet for a pipe through a gate and its clones are made use of by any number of calls, each of
which writes all of its data, however much that is, and the pipe, which nobody else uses, is read to the
end by one call: they are begun in any order, and any turns are taken in between.  When the session has
settled, as it does if nothing is forwarded, all have written their data and have ended.  And when the
pipe is shut down then through any of the outlets, and the session has settled, the call that reads has
ended with the data of all, shuffled; with only one call that writes, it is just what was written. -/
theorem delivered {us ws : List (Nat × Bytes)} (h : Reachable s₀) (hu : s₀.Unused p g)
    (hclones : ∀ w ∈ us ++ ws, s₀.outlets[w.1]? = some (.ofGate g))
    (hb : Begun s₀ (writes us ++ .read p (-1) :: writes ws) s) :
    (s₀.forwards = 0 → s.settle.ready = []) ∧
      (s.settle.ready = [] →
        (∀ (i o : Nat) data,
            (writes us ++ .read p (-1) :: writes ws)[i]? = some (.writeAll o data) →
              s.settle.stage? (s₀.tasks.length + i) = some (.ended (.ok .nothing))) ∧
          ∀ o s', s₀.outlets[o]? = some (.ofGate g) →
            s' = (s.settle.spawn (.outlet o .shutdown)).1.settle →
              (s₀.forwards = 0 → s'.ready = []) ∧
                (s'.ready = [] →
                  s'.stage? s.settle.tasks.length = some (.ended (.ok .nothing)) ∧
                    ∃ bs, s'.stage? (s₀.tasks.length + us.length) = some (.ended (.ok (.bytes bs))) ∧
                      Shuffle ((us ++ ws).map Prod.snd) bs ∧ ∀ w, us ++ ws = [w] → bs = w.2)) := by
  have hs₀ := h.sound
  have hno : ∀ o, .outlet o .shutdown ∉ writes us ++ .read p (-1) :: writes ws := by
    simp [writes]
  have hread : (writes us ++ .read p (-1) :: writes ws)[us.length]? = some (.read p (-1)) := by
    simp [writes]
  obtain ⟨past, b, hd⟩ := hb.delivery hs₀ hu (fun c => part_of_mem hclones) hno
  obtain ⟨past₁, b₁, hd₁⟩ := hd.settle hs₀
  refine ⟨fun hf => ready_settle (hs₀.run hd.run) (hd.forwards hf), fun hr => ?_⟩
  have hwritten : ∀ (i o : Nat) data,
      (writes us ++ .read p (-1) :: writes ws)[i]? = some (.writeAll o data) →
        s.settle.stage? (s₀.tasks.length + i) = some (.ended (.ok .nothing)) :=
    fun i o data hi => hd₁.written hs₀ hr hno hread hi
  refine ⟨hwritten, ?_⟩
  rintro o s' ho rfl
  -- the write end is shut down only now, so what was begun is still as it was
  have hquiet : ∀ (i o' : Nat) data,
      (writes us ++ .read p (-1) :: writes ws ++ [.outlet o .shutdown])[i]? =
          some (.writeAll o' data) →
        s.settle.stage? (s₀.tasks.length + i) = some (.ended (.ok .nothing)) := by
    intro i o' data hi
    rcases getElem?_concat_cases hi with hold | ⟨-, he⟩
    · exact hwritten i o' data hold
    · cases he
  have hd₂ := hd₁.spawn hs₀ (.shutdown ho) fun o _ i o' data hi => hquiet i o' data hi
  obtain ⟨past₃, b₃, hd₃⟩ := hd₂.settle hs₀
  refine ⟨fun hf => ready_settle (hs₀.run hd₂.run) (hd₂.forwards hf), fun hr' => ?_⟩
  have hread' : (writes us ++ .read p (-1) :: writes ws ++ [.outlet o .shutdown])[us.length]? =
      some (.read p (-1)) := by
    simp [writes]
  obtain ⟨hshut, hbytes, hbuf⟩ := hd₃.closed hs₀ hr' hread' List.getElem?_concat_length
  have hshuffle := hd₃.shuffle hs₀ hu hbuf
  rw [hd₁.length]
  refine ⟨hshut, _, hbytes, hshuffle, fun w hw => ?_⟩
  rw [hw] at hshuffle
  exact hshuffle.eq_of_singleton

/-- A pipe for two bytes, and an outlet for it with a clone. -/
def twoClones : Session :=
  let s := ((start .plain .plain).addPipe (.empty 2)).1
  let s := (s.addGate 0).1
  let s := (s.addOutlet (.ofGate 0)).1
  (s.addOutlet (.ofGate 0)).1

theorem reachable_twoClones : Reachable twoClones := by
  have h₁ := (reachable_start .plain .plain).move (@Move.addPipe _ 2 _ rfl)
  have h₂ := h₁.move (@Move.addGate _ 0 ⟨_, rfl⟩)
  have hgate : ∀ b, (Outlet.ofGate 0).backing = some b → b = .gate 0 := by
    intro b hb
    cases hb
    rfl
  have h₃ := h₂.move (@Move.addOutlet _ (.ofGate 0) fun b hb =>
    hgate b hb ▸ ⟨⟨0, rfl⟩, by simp [Outlet.ofGate]⟩)
  exact h₃.move (@Move.addOutlet _ (.ofGate 0) fun b hb =>
    hgate b hb ▸ ⟨⟨0, rfl⟩, by simp [Outlet.ofGate]⟩)

/-- Five bytes are to be written through the outlet, and the pipe is to be read; after a turn three bytes
are to be written through the clone. -/
def bothBegun : Session :=
  let s := (twoClones.spawn (.writeAll 0 [1, 2, 3, 4, 5])).1
  let s := (s.spawn (.read 0 (-1))).1.turn
  (s.spawn (.writeAll 1 [6, 7, 8])).1

/-- Both have written their data when the session has settled, and when the clone has shut the pipe down
what was read is the one shuffled with the other. -/
theorem bothBegun_delivered : bothBegun.settle.ready = [] ∧
    bothBegun.settle.stage? 0 = some (.ended (.ok .nothing)) ∧
      bothBegun.settle.stage? 2 = some (.ended (.ok .nothing)) ∧
        Shuffle [[1, 2, 3, 4, 5], [6, 7, 8]] [1, 2, 3, 4, 6, 7, 5, 8] := by
  have hu : twoClones.Unused 0 0 := ⟨rfl, ⟨_, rfl, rfl, rfl⟩, fun t task hk => by cases hk⟩
  have hclones : ∀ w ∈ [((0 : Nat), ([1, 2, 3, 4, 5] : Bytes))] ++ [(1, [6, 7, 8])],
      twoClones.outlets[w.1]? = some (.ofGate 0) := by
    intro w hw
    simp only [List.cons_append, List.nil_append, List.mem_cons, List.not_mem_nil, or_false] at hw
    rcases hw with rfl | rfl
    · rfl
    · rfl
  have hb : Begun twoClones (writes [(0, [1, 2, 3, 4, 5])] ++ .read 0 (-1) :: writes [(1, [6, 7, 8])])
      bothBegun := .spawn (.turn (.spawn (.spawn .nil _) _)) _
  obtain ⟨hsettles, hall⟩ := delivered reachable_twoClones hu hclones hb
  obtain ⟨hwritten, hread⟩ := hall (hsettles rfl)
  obtain ⟨hsettles', hall'⟩ := hread 1 _ rfl rfl
  obtain ⟨-, bs, hbytes, hshuffle, -⟩ := hall' (hsettles' rfl)
  cases hbytes
  exact ⟨hsettles rfl, hwritten 0 0 _ rfl, hwritten 2 1 _ rfl, hshuffle⟩

end Session

end Outflow
