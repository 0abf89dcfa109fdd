import Outflow.Proofs.Session.Progress

/-!
# Some of the tasks of a session

A session can be looked at through a lens that shows some pipes and some tasks only.  What it shows is a
session itself, in which the tasks are numbered anew.

* `Session.Scope`, `Session.Lens`: some pipes, or everything; and the tasks that are shown;
* `Session.focus`: what a lens shows of a session; `Session.follow`: the same with the notices since some time;
* `focus_modify`, `setStage_focus` and so on: what a task that is shown does is done by the session that is
  shown.

The pipes and gates that a lens does not show keep their places, and hold nothing.
-/

namespace Outflow

theorem mapIdx_modify {α β : Type} {f : Nat → α → β} {m : α → α} {k : β → β} {l : List α} {i : Nat}
    (h : ∀ a, l[i]? = some a → k (f i a) = f i (m a)) :
    (l.modify i m).mapIdx f = (l.mapIdx f).modify i k := by
  refine List.ext_getElem? fun j => ?_
  rw [List.getElem?_mapIdx, List.getElem?_modify, List.getElem?_modify, List.getElem?_mapIdx]
  by_cases hij : i = j
  · subst hij
    cases hl : l[i]? with
    | none => rfl
    | some a => simp [h a hl]
  · simp [hij]

theorem mapIdx_modify_eq {α β : Type} {f : Nat → α → β} {m : α → α} {l : List α} {i : Nat}
    (h : ∀ a, l[i]? = some a → f i (m a) = f i a) : (l.modify i m).mapIdx f = l.mapIdx f := by
  rw [mapIdx_modify (k := id) fun a ha => (h a ha).symm, List.modify_id]

namespace Session

/-- What is looked at. -/
inductive Scope
  /-- Some pipes, with the gates before them. -/
  | pipes (chosen : Nat → Bool)
  /-- All pipes and gates, the standard streams, and the journal. -/
  | all

namespace Scope

/-- Whether a pipe is looked at. -/
def pipe : Scope → Nat → Bool
  | .pipes chosen, p => chosen p
  | .all, _ => true

/-- Whether the standard streams and the journal are looked at. -/
def isAll : Scope → Bool
  | .pipes _ => false
  | .all => true

theorem pipe_of_isAll {σ : Scope} (h : σ.isAll = true) (p : Nat) : σ.pipe p = true := by
  cases σ with
  | pipes chosen => cases h
  | all => rfl

end Scope

/-- What is looked at, with the tasks that are shown. -/
structure Lens where
  scope : Scope
  tasks : List Nat
  nodup : tasks.Nodup

namespace Lens

variable {L : Lens} {t u : Nat}

/-- The number of a task among those that are shown. -/
def place (L : Lens) (t : Nat) : Nat := L.tasks.idxOf t

/-- A waiter with its number. -/
def waiter (L : Lens) (w : Waiter) : Waiter := { w with task := L.place w.task }

/-- What is shown of a job. -/
def job (L : Lens) : Job → Option Job
  | .task t => if t ∈ L.tasks then some (.task (L.place t)) else none
  | .deliver n copies => if L.scope.isAll then some (.deliver n copies) else none

/-- What is shown of the pipe at a place. -/
def channel (L : Lens) (p : Nat) (c : Channel) : Channel :=
  if L.scope.pipe p then ⟨c.pipe, c.waiting.map L.waiter⟩ else ⟨.empty 1, []⟩

/-- What is shown of a gate. -/
def gate (L : Lens) (gate : Gate) : Gate :=
  if L.scope.pipe gate.pipe then ⟨gate.pipe, gate.holder.map L.place, gate.queue.map L.waiter⟩
  else .ofPipe gate.pipe

/-- The tasks that are shown. -/
def tasksOf (L : Lens) (tasks : List Task) : List Task :=
  L.tasks.map fun t => (tasks[t]?).getD (.ofCall (.idle .nothing))

theorem place_eq_iff (ht : t ∈ L.tasks) : L.place u = L.place t ↔ u = t := by
  refine ⟨fun h => ?_, fun h => by rw [h]⟩
  have hu : u ∈ L.tasks := by
    rw [← List.idxOf_lt_length_iff, show L.tasks.idxOf u = L.tasks.idxOf t from h]
    exact List.idxOf_lt_length_iff.2 ht
  exact (List.idxOf_inj hu).1 h

theorem getElem?_place (ht : t ∈ L.tasks) : L.tasks[L.place t]? = some t := by
  rw [List.getElem?_eq_some_iff]
  exact ⟨List.idxOf_lt_length_iff.2 ht, List.getElem_idxOf _⟩

theorem waiter_eq_iff (ht : t ∈ L.tasks) {w : Waiter} {m : Mark} :
    L.waiter w = ⟨L.place t, m⟩ ↔ w = ⟨t, m⟩ := by
  obtain ⟨u, m'⟩ := w
  simp only [waiter, Waiter.mk.injEq, place_eq_iff ht]

/-- A change of a task is a change of what is shown of it. -/
theorem tasksOf_modify (L : Lens) {tasks : List Task} (hlt : t < tasks.length) (f : Task → Task) :
    L.tasksOf (tasks.modify t f) = (L.tasksOf tasks).modify (L.place t) f := by
  refine List.ext_getElem? fun i => ?_
  rw [tasksOf, tasksOf, List.getElem?_map, List.getElem?_modify, List.getElem?_map]
  cases hu : L.tasks[i]? with
  | none => simp
  | some u =>
    have hi : L.place t = i ↔ t = u := by
      have hplace : L.place u = i := by
        obtain ⟨hlen, rfl⟩ := List.getElem?_eq_some_iff.1 hu
        exact L.nodup.idxOf_getElem i hlen
      rw [← hplace, place_eq_iff (List.mem_of_getElem? hu)]
    by_cases htu : t = u
    · subst htu
      simp [hi.2 rfl, List.getElem?_eq_getElem hlt]
    · simp [htu, mt hi.1 htu]

theorem tasksOf_modify_of_notMem (ht : t ∉ L.tasks) (tasks : List Task) (f : Task → Task) :
    L.tasksOf (tasks.modify t f) = L.tasksOf tasks := by
  refine List.map_congr_left fun u hu => ?_
  rw [List.getElem?_modify_ne]
  rintro rfl
  exact ht hu

/-! ### Waiting lists -/

theorem map_without (ht : t ∈ L.tasks) (ws : List Waiter) :
    (Waiter.without t ws).map L.waiter = Waiter.without (L.place t) (ws.map L.waiter) := by
  rw [Waiter.without, Waiter.without, List.filter_map]
  congr 1
  refine List.filter_congr fun w _ => ?_
  rw [Bool.eq_iff_iff, bne_iff_ne, Function.comp_apply, bne_iff_ne, Ne, Ne, ← place_eq_iff ht]
  rfl

theorem waiter_wake (w : Waiter) : L.waiter w.wake = (L.waiter w).wake := by
  unfold Waiter.wake waiter
  split <;> rfl

theorem map_wakeAll (ws : List Waiter) :
    Waiter.wakeAll (ws.map L.waiter) = ((Waiter.wakeAll ws).1.map L.waiter, (Waiter.wakeAll ws).2.map L.place) := by
  simp only [Waiter.wakeAll, Waiter.parkedTasks, List.map_map, List.filter_map, Prod.mk.injEq]
  refine ⟨?_, rfl⟩
  congr 1
  funext w
  exact (waiter_wake w).symm

theorem map_wakeFirst (ws : List Waiter) :
    Waiter.wakeFirst (ws.map L.waiter)
      = ((Waiter.wakeFirst ws).1.map L.waiter, (Waiter.wakeFirst ws).2.map L.place) := by
  cases ws with
  | nil => rfl
  | cons w rest =>
    simp only [Waiter.wakeFirst, List.map_cons, Prod.mk.injEq]
    refine ⟨by rw [waiter_wake], ?_⟩
    unfold waiter
    split <;> rfl

theorem map_cancel (ht : t ∈ L.tasks) (ws : List Waiter) :
    (Waiter.cancel t ws).map L.waiter = Waiter.cancel (L.place t) (ws.map L.waiter) := by
  simp only [Waiter.cancel, List.map_map]
  congr 1
  funext w
  simp only [Function.comp_apply, waiter_eq_iff ht]
  split <;> rfl

theorem isParked_map (ht : t ∈ L.tasks) (ws : List Waiter) :
    Waiter.isParked (L.place t) (ws.map L.waiter) = Waiter.isParked t ws := by
  rw [Bool.eq_iff_iff, Waiter.isParked_iff, Waiter.isParked_iff, List.mem_map]
  constructor
  · rintro ⟨w, hw, he⟩
    rw [waiter_eq_iff ht] at he
    exact he ▸ hw
  · exact fun h => ⟨_, h, rfl⟩

/-! ### Gates -/

theorem pipe_gate (L : Lens) (x : Gate) : (L.gate x).pipe = x.pipe := by
  unfold gate
  split <;> rfl

theorem gate_eq {x : Gate} (h : L.scope.pipe x.pipe = true) :
    L.gate x = ⟨x.pipe, x.holder.map L.place, x.queue.map L.waiter⟩ := if_pos h

theorem gate_eq_ofPipe {x : Gate} (h : L.scope.pipe x.pipe = false) : L.gate x = .ofPipe x.pipe :=
  if_neg (by simp [h])

theorem isOpen_gate {x : Gate} (h : L.scope.pipe x.pipe = true) : (L.gate x).isOpen = x.isOpen := by
  rw [gate_eq h, Gate.isOpen, Gate.isOpen, Gate.isHeld, Gate.isHeld, Option.isSome_map, List.all_map]
  rfl

end Lens

/-! ### What a lens shows -/

/-- What a lens shows of a session, without the notices. -/
def focus (L : Lens) (s : Session) : Session where
  channels := s.channels.mapIdx L.channel
  gates := s.gates.map L.gate
  outlets := s.outlets
  tasks := L.tasksOf s.tasks
  ready := s.ready.filterMap L.job
  notices := []
  endings := (s.endings.filter (· ∈ L.tasks)).map L.place
  stdio := if L.scope.isAll then s.stdio else ⟨[], []⟩
  journal := if L.scope.isAll then s.journal else .start

/-- What a lens shows of a session, with the notices that were shown before, and those that were given since
there were `k` of them. -/
def follow (L : Lens) (ns : List Notice) (k : Nat) (s : Session) : Session :=
  { s.focus L with notices := ns ++ s.notices.drop k }

/-- The pipe at a place, or behind the gate that is the place. -/
def pipeAt? (s : Session) : Place → Option Nat
  | .pipe p => some p
  | .gate g => s.gatePipe? g

variable {s : Session} {L : Lens} {ns : List Notice} {k t p g : Nat}

/-- Whoever waits after a task has taken a gate, or has left a place, waited before. -/
theorem mem_line_take {u : Nat} {a : Place} (h : u ∈ (s.take t g).line a) : u ∈ s.line a := by
  cases hx : s.gates[g]? with
  | none => rwa [take, modify_of_none hx] at h
  | some x =>
    rw [line, waiters_take hx] at h
    by_cases ha : a = .gate g
    · subst ha
      rw [Function.update_self, ← waiters_gate hx] at h
      obtain ⟨w, hw, rfl⟩ := List.mem_map.1 h
      exact List.mem_map_of_mem (Waiter.mem_without.1 hw).1
    · rwa [Function.update_of_ne ha] at h

theorem mem_line_leave {u : Nat} {a a' : Place} (h : u ∈ (s.leave t a).line a') : u ∈ s.line a' := by
  rw [line, waiters_leave] at h
  by_cases ha : a' = a
  · subst ha
    rw [Function.update_self] at h
    obtain ⟨w, hw, rfl⟩ := List.mem_map.1 h
    exact List.mem_map_of_mem (Waiter.mem_without.1 hw).1
  · rwa [Function.update_of_ne ha] at h

/-- Whether a place is looked at, as `b` tells, and all tasks that wait there are shown, or none. -/
structure Uniform (L : Lens) (b : Bool) (s : Session) (a : Place) : Prop where
  pipe : ∃ p, s.pipeAt? a = some p ∧ L.scope.pipe p = b
  line : ∀ u ∈ s.line a, (u ∈ L.tasks ↔ b = true)

namespace Uniform

variable {b : Bool} {a : Place}

theorem pipe_eq (h : Uniform L b s a) (hp : s.pipeAt? a = some p) : L.scope.pipe p = b := by
  obtain ⟨p', hp', hin⟩ := h.pipe
  rw [hp] at hp'
  cases hp'
  exact hin

theorem inPipe (h : Uniform L b s (.pipe p)) : L.scope.pipe p = b := h.pipe_eq rfl

theorem gate (h : Uniform L b s (.gate g)) : ∃ x, s.gates[g]? = some x ∧ L.scope.pipe x.pipe = b := by
  obtain ⟨p, hp, hin⟩ := h.pipe
  obtain ⟨x, hx, rfl⟩ := Option.map_eq_some_iff.1 hp
  exact ⟨x, hx, hin⟩

theorem shown (h : Uniform L true s a) {u : Nat} (hu : u ∈ s.line a) : u ∈ L.tasks := (h.line u hu).2 rfl

theorem hidden (h : Uniform L false s a) {u : Nat} (hu : u ∈ s.line a) : u ∉ L.tasks := by
  simpa using h.line u hu

/-- Nobody new waits. -/
theorem mono {s' : Session} (h : Uniform L b s a) (hl : ∀ u ∈ s'.line a, u ∈ s.line a)
    (hg : s'.gatePipe? = s.gatePipe?) : Uniform L b s' a := by
  refine ⟨?_, fun u hu => h.line u (hl u hu)⟩
  cases a with
  | pipe p => exact h.pipe
  | gate g =>
    obtain ⟨p, hp, hin⟩ := h.pipe
    exact ⟨p, (congrFun hg g).trans hp, hin⟩

theorem leave (h : Uniform L b s a) (t : Nat) (a' : Place) : Uniform L b (s.leave t a') a :=
  h.mono (fun _ hu => mem_line_leave hu) (gatePipe?_alter ..)

theorem take (h : Uniform L b s a) (t g : Nat) : Uniform L b (s.take t g) a :=
  h.mono (fun _ hu => mem_line_take hu) (gatePipe?_take ..)

theorem refresh (h : Uniform L b s a) {q : Pipe} (hq : s.pipe? p = some q) (served : Pipe.Served) :
    Uniform L b (s.refresh p served) a :=
  h.mono (fun _ hu => line_refresh hq served a ▸ hu) rfl

/-- The gate is free, and nobody is woken yet. -/
theorem freed (h : Uniform L b s (.gate g)) :
    Uniform L b { s with gates := s.gates.modify g fun gate => { gate with holder := none } } (.gate g) := by
  obtain ⟨x, hx, -⟩ := h.gate
  refine h.mono (fun u hu => ?_) (gatePipe?_modify_gate fun _ => rfl)
  rwa [Session.line, waiters_modify_gate _ hx, Function.update_self, ← waiters_gate hx] at hu

end Uniform

/-! ### What is shown of the members -/

theorem task_focus (ht : t ∈ L.tasks) (hlt : t < s.tasks.length) :
    (s.focus L).tasks[L.place t]? = s.tasks[t]? := by
  rw [focus, Lens.tasksOf, List.getElem?_map, L.getElem?_place ht, Option.map_some, List.getElem?_eq_getElem hlt]
  rfl

theorem gates_focus (g : Nat) : (s.focus L).gates[g]? = (s.gates[g]?).map L.gate := List.getElem?_map ..

theorem gate_follow {x : Gate} (hx : s.gates[g]? = some x) : (s.follow L ns k).gates[g]? = some (L.gate x) := by
  rw [follow, gates_focus, hx]
  rfl

theorem pipe?_focus (hp : L.scope.pipe p = true) : (s.focus L).pipe? p = s.pipe? p := by
  rw [pipe?, focus, List.getElem?_mapIdx, pipe?, Option.map_map]
  congr 1
  funext c
  simp only [Function.comp_apply, Lens.channel, hp, if_true]

theorem waiters_focus_pipe (hp : L.scope.pipe p = true) :
    (s.focus L).waiters (.pipe p) = (s.waiters (.pipe p)).map L.waiter := by
  rw [waiters, waiters, focus, List.getElem?_mapIdx]
  cases s.channels[p]? with
  | none => rfl
  | some c => simp [Lens.channel, hp]

theorem waiters_focus_gate {x : Gate} (hx : s.gates[g]? = some x) (hp : L.scope.pipe x.pipe = true) :
    (s.focus L).waiters (.gate g) = (s.waiters (.gate g)).map L.waiter := by
  rw [waiters, waiters, gates_focus, hx, Option.map_some, L.gate_eq hp]
  rfl

/-! ### What a task that is shown does -/

theorem focus_modify (hlt : t < s.tasks.length) (f : Task → Task) :
    ({ s with tasks := s.tasks.modify t f } : Session).follow L ns k
      = { s.follow L ns k with tasks := (s.follow L ns k).tasks.modify (L.place t) f } := by
  simp only [follow, focus, L.tasksOf_modify hlt]

theorem setStage_focus (hlt : t < s.tasks.length) (st : Stage) :
    (s.follow L ns k).setStage (L.place t) st = (s.setStage t st).follow L ns k :=
  (focus_modify hlt _).symm

theorem finish_focus (ht : t ∈ L.tasks) (hlt : t < s.tasks.length) (outcome : Outcome) :
    (s.follow L ns k).finish (L.place t) outcome = (s.finish t outcome).follow L ns k := by
  rw [finish, setStage_focus hlt]
  simp [finish, follow, focus, setStage, ht]

theorem enqueue_focus {ts : List Nat} (hts : ∀ u ∈ ts, u ∈ L.tasks) :
    (s.follow L ns k).enqueue (ts.map L.place) = (s.enqueue ts).follow L ns k := by
  have hjobs : (ts.map Job.task).filterMap L.job = (ts.map L.place).map .task := by
    rw [List.filterMap_map, List.map_map, ← List.filterMap_eq_map]
    exact List.filterMap_congr fun u hu => if_pos (hts u hu)
  simp only [enqueue, follow, focus, List.filterMap_append, hjobs]

/-- A notice is put in the queue of what is shown only if the journal is. -/
theorem post_focus (n : Notice) : (s.follow L ns k).post n = (s.post n).follow L ns k := by
  cases hall : L.scope.isAll with
  | true =>
    have hjournal : (s.follow L ns k).journal = s.journal := if_pos hall
    unfold post
    rw [hjournal]
    split
    · simp [follow, focus, Lens.job, hall]
    · rfl
  | false =>
    have hjournal : (s.follow L ns k).journal = .start := if_neg (by simp [hall])
    have hnone : (s.follow L ns k).post n = s.follow L ns k := by
      rw [post, hjournal]
      rfl
    rw [hnone, post]
    split
    · simp [follow, focus, Lens.job, hall]
    · rfl

theorem emit_focus (hk : k ≤ s.notices.length) (n : Notice) :
    (s.follow L ns k).emit n = (s.emit n).follow L ns k := by
  have hnotice : ({ s.follow L ns k with notices := (s.follow L ns k).notices ++ [n] } : Session)
      = { s with notices := s.notices ++ [n] }.follow L ns k := by
    simp only [follow, focus, List.drop_append_of_le_length hk, List.append_assoc]
  rw [emit, hnotice, post_focus, emit]

theorem announce_focus (hk : k ≤ s.notices.length) (task : Task) (outcome : Outcome) :
    (s.follow L ns k).announce task outcome = (s.announce task outcome).follow L ns k := by
  have hnotice : (s.follow L ns k).noticeOf? task outcome = s.noticeOf? task outcome := rfl
  rw [announce, announce, hnotice]
  cases s.noticeOf? task outcome with
  | none => rfl
  | some n => exact emit_focus hk n

theorem goOn_focus (ht : t ∈ L.tasks) (hlt : t < s.tasks.length) (c : Call) :
    (s.follow L ns k).goOn (L.place t) c = (s.goOn t c).follow L ns k := by
  have hjob : L.job (.task t) = some (.task (L.place t)) := if_pos ht
  simp only [goOn, follow, focus, L.tasksOf_modify hlt, List.filterMap_cons, hjob]

theorem complete_focus (ht : t ∈ L.tasks) (hk : k ≤ s.notices.length) (hlt : t < s.tasks.length)
    (outcome : Outcome) : (s.follow L ns k).complete (L.place t) outcome = (s.complete t outcome).follow L ns k := by
  have htask : (s.follow L ns k).tasks[L.place t]? = some s.tasks[t] :=
    (task_focus ht hlt).trans (List.getElem?_eq_getElem hlt)
  have hd : ∀ o, (s.follow L ns k).destinationOf o = s.destinationOf o := fun o => rfl
  have hlt' : ∀ task, t < (s.announce task outcome).tasks.length := fun task => by
    rw [(fields_announce s task outcome).2.2.2]
    exact hlt
  rw [complete_eq htask, complete_eq (List.getElem?_eq_getElem hlt), hd, announce_focus hk]
  cases s.tasks[t].call.resume (s.destinationOf s.tasks[t].call.outlet?) outcome with
  | done outcome' => exact finish_focus ht (hlt' _) outcome'
  | more c => exact goOn_focus ht (hlt' _) c

theorem refresh_focus (h : Uniform L true s (.pipe p)) (served : Pipe.Served) :
    (s.follow L ns k).refresh p served = (s.refresh p served).follow L ns k := by
  have hp := h.inPipe
  have hw : (s.follow L ns k).waiters (.pipe p) = (s.waiters (.pipe p)).map L.waiter := waiters_focus_pipe hp
  have hset : ∀ ws, ({ s with channels := s.channels.set p ⟨served.pipe, ws⟩ } : Session).follow L ns k
      = { s.follow L ns k with
          channels := (s.follow L ns k).channels.set p ⟨served.pipe, ws.map L.waiter⟩ } := by
    intro ws
    have hchannel : L.channel p ⟨served.pipe, ws⟩ = ⟨served.pipe, ws.map L.waiter⟩ := if_pos hp
    simp only [follow, focus, List.mapIdx_set, hchannel]
  have hwoken : ∀ u ∈ (Waiter.wakeAll (s.waiters (.pipe p))).2, u ∈ L.tasks :=
    fun u hu => h.shown ((Waiter.roused_wakeAll _).mem hu)
  rw [refresh, refresh, hw, L.map_wakeAll]
  cases served.wakes with
  | true =>
    rw [if_pos rfl, if_pos rfl, ← hset]
    exact enqueue_focus hwoken
  | false =>
    rw [if_neg (by simp), if_neg (by simp), ← hset]
    have hnobody : ∀ u ∈ ([] : List Nat), u ∈ L.tasks := by simp
    exact enqueue_focus hnobody

/-- A change of the gate at a place that is looked at. -/
theorem modifyGate_focus {x : Gate} (hx : s.gates[g]? = some x) (hp : L.scope.pipe x.pipe = true) {f f' : Gate → Gate}
    (hf : f' ⟨x.pipe, x.holder.map L.place, x.queue.map L.waiter⟩ = L.gate (f x)) :
    ({ s with gates := s.gates.modify g f } : Session).follow L ns k
      = { s.follow L ns k with gates := (s.follow L ns k).gates.modify g f' } := by
  have hmap : (s.gates.modify g f).map L.gate = (s.gates.map L.gate).modify g f' := by
    refine map_modify fun y hy => ?_
    rw [hx] at hy
    cases hy
    rw [L.gate_eq hp, hf]
  simp only [follow, focus, hmap]

/-- A change of a waiting list. -/
theorem alter_focus {a : Place} (h : Uniform L true s a) {f f' : List Waiter → List Waiter}
    (hf : ∀ ws, f' (ws.map L.waiter) = (f ws).map L.waiter) :
    (s.follow L ns k).alter f' a = (s.alter f a).follow L ns k := by
  cases a with
  | gate g =>
    obtain ⟨x, hx, hp⟩ := h.gate
    refine (modifyGate_focus hx hp ?_).symm
    rw [L.gate_eq (x := { x with queue := f x.queue }) hp, hf]
  | pipe p =>
    have hp := h.inPipe
    have hmap : (s.channels.modify p fun c => { c with waiting := f c.waiting }).mapIdx L.channel
        = (s.channels.mapIdx L.channel).modify p fun c => { c with waiting := f' c.waiting } := by
      refine mapIdx_modify fun c _ => ?_
      simp only [Lens.channel, hp, if_true, hf]
    simp only [alter, follow, focus, hmap]

/-- Joining a waiting list. -/
theorem join_focus {a : Place} (h : Uniform L true s a) :
    (s.follow L ns k).alter (fun ws => ws ++ [(⟨L.place t, .parked⟩ : Waiter)]) a
      = (s.alter (fun ws => ws ++ [(⟨t, .parked⟩ : Waiter)]) a).follow L ns k :=
  alter_focus h fun ws => by rw [List.map_append]; rfl

theorem park_focus (hlt : t < s.tasks.length) (h : Uniform L true s (.pipe p)) (gate : Option Nat) (r : Pipe.Request) :
    (s.follow L ns k).park (L.place t) gate p r = (s.park t gate p r).follow L ns k :=
  (congrArg (setStage · (L.place t) _) (join_focus h)).trans (setStage_focus (s := s.alter _ (.pipe p)) hlt _)

theorem queue_focus (hlt : t < s.tasks.length) (h : Uniform L true s (.gate g)) (r : Pipe.Request) :
    (s.follow L ns k).queue (L.place t) g r = (s.queue t g r).follow L ns k :=
  (congrArg (setStage · (L.place t) _) (join_focus h)).trans (setStage_focus (s := s.alter _ (.gate g)) hlt _)

theorem leave_focus (ht : t ∈ L.tasks) {a : Place} (h : Uniform L true s a) :
    (s.follow L ns k).leave (L.place t) a = (s.leave t a).follow L ns k :=
  alter_focus h fun ws => (L.map_without ht ws).symm

theorem take_focus (ht : t ∈ L.tasks) (h : Uniform L true s (.gate g)) :
    (s.follow L ns k).take (L.place t) g = (s.take t g).follow L ns k := by
  obtain ⟨x, hx, hp⟩ := h.gate
  refine (modifyGate_focus hx hp ?_).symm
  rw [L.gate_eq (x := { x with holder := some t, queue := Waiter.without t x.queue }) hp, L.map_without ht]
  rfl

theorem wakeGate_eq {x : Gate} (hx : s.gates[g]? = some x) : s.wakeGate g
    = (s.alter (fun ws => (Waiter.wakeFirst ws).1) (.gate g)).enqueue (Waiter.wakeFirst (s.waiters (.gate g))).2 := by
  simp only [wakeGate, hx, waiters_gate hx, alter, ← set_eq_modify hx]

theorem wakeGate_focus (h : Uniform L true s (.gate g)) :
    (s.follow L ns k).wakeGate g = (s.wakeGate g).follow L ns k := by
  obtain ⟨x, hx, hp⟩ := h.gate
  have hx' : (s.follow L ns k).gates[g]? = some (L.gate x) := gate_follow hx
  have hw : (s.follow L ns k).waiters (.gate g) = (s.waiters (.gate g)).map L.waiter := waiters_focus_gate hx hp
  have hwoken : ∀ u ∈ (Waiter.wakeFirst (s.waiters (.gate g))).2, u ∈ L.tasks :=
    fun u hu => h.shown ((Waiter.roused_wakeFirst _).mem hu)
  have halter : (s.follow L ns k).alter (fun ws => (Waiter.wakeFirst ws).1) (.gate g)
      = (s.alter (fun ws => (Waiter.wakeFirst ws).1) (.gate g)).follow L ns k :=
    alter_focus h fun ws => by rw [L.map_wakeFirst]
  rw [wakeGate_eq hx, wakeGate_eq hx', hw, L.map_wakeFirst, halter]
  exact enqueue_focus hwoken

/-- The gate that a task has, if it has one, is given back. -/
theorem release_focus {gate : Option Nat} (h : ∀ g, gate = some g → Uniform L true s (.gate g)) :
    (s.follow L ns k).release gate = (s.release gate).follow L ns k := by
  cases gate with
  | none => rfl
  | some g =>
    have hg := h g rfl
    obtain ⟨x, hx, hp⟩ := hg.gate
    have hfreed : ({ s.follow L ns k with gates := (s.follow L ns k).gates.modify g fun gate =>
          { gate with holder := none } } : Session)
        = ({ s with gates := s.gates.modify g fun gate => { gate with holder := none } } : Session).follow L ns k := by
      refine (modifyGate_focus hx hp ?_).symm
      rw [L.gate_eq (x := { x with holder := none }) hp, Option.map_none]
    rw [release, release, hfreed]
    exact wakeGate_focus hg.freed

/-- A pipe that is looked at meets a request of a task that is shown. -/
theorem serve_focus (ht : t ∈ L.tasks) (hk : k ≤ s.notices.length) (hlt : t < s.tasks.length)
    (hp : Uniform L true s (.pipe p)) {gate : Option Nat} (hg : ∀ g, gate = some g → Uniform L true s (.gate g))
    {b : Pipe} (hb : s.pipe? p = some b) (r : Pipe.Request) :
    (s.follow L ns k).serve (L.place t) gate p r = (s.serve t gate p r).follow L ns k := by
  have hb' : (s.follow L ns k).pipe? p = some b := (pipe?_focus hp.inPipe).trans hb
  rw [serve_eq hb, serve_eq hb', refresh_focus hp]
  cases (b.serve r).reply with
  | wait again => exact park_focus (s := s.refresh p (b.serve r)) hlt (hp.refresh hb _) gate again
  | done outcome =>
    dsimp only
    rw [release_focus fun g he => (hg g he).refresh hb _]
    refine complete_focus ht ?_ ?_ outcome
    · rw [(records_release ..).1]
      exact hk
    · rw [tasks_release]
      exact hlt

theorem enter_focus (ht : t ∈ L.tasks) (hk : k ≤ s.notices.length) (hlt : t < s.tasks.length)
    (hg : Uniform L true s (.gate g)) (hgp : s.gatePipe? g = some p) (hp : Uniform L true s (.pipe p)) {b : Pipe}
    (hb : s.pipe? p = some b) (r : Pipe.Request) :
    (s.follow L ns k).enter (L.place t) g r = (s.enter t g r).follow L ns k := by
  obtain ⟨x, hx, rfl⟩ := Option.map_eq_some_iff.1 hgp
  have hx' : (s.follow L ns k).gates[g]? = some (L.gate x) := gate_follow hx
  rw [enter_eq hx, enter_eq hx', take_focus ht hg, L.pipe_gate]
  exact serve_focus (s := s.take t g) ht hk hlt (hp.take t g) (fun g' he => by cases he; exact hg.take t g) hb r

theorem approach_of_open {x : Gate} (hx : s.gates[g]? = some x) (hopen : x.isOpen = true) (r : Sink.Request) :
    s.approach t (.gate g) r = s.enter t g (.ofSink r) := by
  simp only [approach, hx, hopen, if_true]

theorem approach_of_not_open {x : Gate} (hx : s.gates[g]? = some x) (hopen : x.isOpen = false) (r : Sink.Request) :
    s.approach t (.gate g) r = s.queue t g (.ofSink r) := by
  simp only [approach, hx, hopen, Bool.false_eq_true, if_false, queue, ← set_eq_modify hx]

/-- What is asked of a backing that is looked at. -/
theorem approach_focus (ht : t ∈ L.tasks) (hk : k ≤ s.notices.length) (hlt : t < s.tasks.length) {b : Backing}
    (hall : ∀ n, b = .stream n → L.scope.isAll = true)
    (hp : ∀ p, s.LeadsTo b p → Uniform L true s (.pipe p) ∧ s.Has (.pipe p))
    (hg : ∀ g, b = .gate g → Uniform L true s (.gate g)) (r : Sink.Request) :
    (s.follow L ns k).approach (L.place t) b r = (s.approach t b r).follow L ns k := by
  cases b with
  | stream n =>
    have hstdio : (s.follow L ns k).stdio = s.stdio := if_pos (hall n rfl)
    have hafter : ({ s with stdio := (s.stdio.perform n r).1 } : Session).follow L ns k
        = { s.follow L ns k with stdio := (s.stdio.perform n r).1 } := by
      simp only [follow, focus, hall n rfl, if_true]
    simp only [approach, hstdio, ← hafter]
    exact complete_focus (s := { s with stdio := (s.stdio.perform n r).1 }) ht hk hlt _
  | pipe p =>
    obtain ⟨hshown, b, hb⟩ := hp p (.inl rfl)
    exact serve_focus ht hk hlt hshown (by simp) hb _
  | gate g =>
    have hshown := hg g rfl
    obtain ⟨x, hx, hin⟩ := hshown.gate
    have hx' : (s.follow L ns k).gates[g]? = some (L.gate x) := gate_follow hx
    have hgp : s.gatePipe? g = some x.pipe := by rw [gatePipe?, hx]; rfl
    obtain ⟨hpipe, b, hb⟩ := hp x.pipe (.inr ⟨g, rfl, hgp⟩)
    have hopen := L.isOpen_gate hin
    cases ho : x.isOpen with
    | true =>
      rw [approach_of_open hx ho, approach_of_open hx' (hopen.trans ho)]
      exact enter_focus ht hk hlt hshown hgp hpipe hb _
    | false =>
      rw [approach_of_not_open hx ho, approach_of_not_open hx' (hopen.trans ho)]
      exact queue_focus hlt hshown _

/-! ### Calls -/

/-- What calls have to do with. -/
inductive Region
  | pipe (p : Nat)
  | streams

/-- Whether a part is looked at. -/
def Scope.Has (σ : Scope) : Region → Prop
  | .pipe p => σ.pipe p = true
  | .streams => σ.isAll = true

/-- Whether a call has to do with a pipe, or with the standard streams. -/
def Regards (s : Session) (c : Call) : Region → Prop
  | .pipe p => s.Concerns c p
  | .streams => ∃ n, c.backing? = some (.stream n) ∨
    ∃ o x, c.outlet? = some o ∧ s.outlets[o]? = some x ∧ x.backing = some (.stream n)

/-- Whether the tasks that are shown are those whose calls have to do with what is looked at. -/
def Parted (L : Lens) (s : Session) : Prop :=
  ∀ (t : Nat) task, s.tasks[t]? = some task → ∀ r, s.Regards task.call r → (L.scope.Has r ↔ t ∈ L.tasks)

theorem Aims.concerns {c : Call} {b : Backing} {r : Sink.Request} (h : s.Aims c b r) (hl : s.LeadsTo b p) :
    s.Concerns c p := by
  rcases h with hop | ⟨o, x, hop, hx, hb⟩
  · exact .inr (.inl ⟨b, Call.backing?_of_operation hop, hl⟩)
  · exact .inr (.inr ⟨o, x, b, Call.outlet?_of_operation hop, hx, hb, hl⟩)

theorem Aims.streams {c : Call} {n : StreamName} {r : Sink.Request} (h : s.Aims c (.stream n) r) :
    s.Regards c .streams := by
  rcases h with hop | ⟨o, x, hop, hx, hb⟩
  · exact ⟨n, .inl (Call.backing?_of_operation hop)⟩
  · exact ⟨n, .inr ⟨o, x, Call.outlet?_of_operation hop, hx, hb⟩⟩

/-- Whoever waits at a place has to do with the pipe there. -/
theorem concerns_of_place (hs : Sound s none none) {task : Task} {a : Place} (hk : s.tasks[t]? = some task)
    (ha : task.stage.place? = some a) : ∃ p, s.pipeAt? a = some p ∧ s.Concerns task.call p := by
  have hpur := hs.employed.pursues t task hk (by simp)
  cases hst : task.stage with
  | fresh => rw [hst] at ha; cases ha
  | ended o => rw [hst] at ha; cases ha
  | atGate g r =>
    rw [hst] at ha hpur
    cases ha
    obtain ⟨q, -, haim, p, hp⟩ := hpur
    exact ⟨p, hp, haim.concerns (.inr ⟨g, rfl, hp⟩)⟩
  | inPipe gate p r =>
    rw [hst] at ha hpur
    cases ha
    exact ⟨p, rfl, hpur.concerns⟩

/-- Of those who wait at a place, all are shown or none, as the place is looked at or not. -/
theorem Parted.mem_iff (h : Parted L s) (hs : Sound s none none) {a : Place} (ht : t ∈ s.line a) (hp : s.pipeAt? a = some p) :
    t ∈ L.tasks ↔ L.scope.pipe p = true := by
  obtain ⟨w, hw, rfl⟩ := List.mem_map.1 ht
  have hpl := (hs.placed.place_of_mem a w hw).2
  obtain ⟨st, hst, ha⟩ := Option.bind_eq_some_iff.1 hpl
  obtain ⟨task, hk, rfl⟩ := Option.map_eq_some_iff.1 hst
  obtain ⟨p', hp', hc⟩ := concerns_of_place hs hk ha
  rw [hp] at hp'
  cases hp'
  exact (h _ task hk (.pipe p) hc).symm

theorem Parted.uniform (h : Parted L s) (hs : Sound s none none) {a : Place} (hp : s.pipeAt? a = some p) :
    Uniform L (L.scope.pipe p) s a :=
  ⟨⟨p, hp, rfl⟩, fun _ hu => h.mem_iff hs hu hp⟩

/-- All that a call has to do with is there, and is looked at, as `b` tells; and all tasks that wait there are
shown, or none. -/
structure Attends (L : Lens) (b : Bool) (s : Session) (c : Call) : Prop where
  has : ∀ x r, s.Aims c x r → s.Has x
  pipes : ∀ p, s.Concerns c p → s.Has (.pipe p)
  places : ∀ p, s.Concerns c p → ∀ a, s.pipeAt? a = some p → Uniform L b s a
  streams : s.Regards c .streams → L.scope.isAll = b

theorem Attends.congr {s' : Session} {b : Bool} {c : Call} (h : Attends L b s c) (hl : s'.line = s.line)
    (hg : s'.gatePipe? = s.gatePipe?) (ho : s'.outlets = s.outlets) (hp : s'.pipe? = s.pipe?) : Attends L b s' c := by
  have hconcerns : ∀ p, s'.Concerns c p → s.Concerns c p := fun p => (concerns_congr ho hg).1
  have hhas : ∀ x, s.Has x → s'.Has x := by
    intro x hx
    cases x with
    | stream n => trivial
    | gate g => simpa only [Has, hg] using hx
    | pipe p => simpa only [Has, hp] using hx
  refine ⟨fun x r haim => hhas x (h.has x r ?_), fun p hc => hhas _ (h.pipes p (hconcerns p hc)),
    fun p hc a ha => ?_, fun hc => h.streams ?_⟩
  · simpa only [Aims, ho] using haim
  · refine (h.places p (hconcerns p hc) a ?_).mono (fun u hu => hl ▸ hu) hg
    cases a with
    | pipe p' => exact ha
    | gate g => exact (congrFun hg g).symm.trans ha
  · simpa only [Regards, ho] using hc

theorem Fits.pipe {c : Call} (h : s.Fits c) (hp : c.pipe? = some p) : s.Has (.pipe p) := by
  cases c <;> cases hp <;> first | exact h | exact h.1

theorem Fits.backing {c : Call} (h : s.Fits c) {b : Backing} (hb : c.backing? = some b) : s.Has b := by
  cases c <;> cases hb
  exact h

/-- The task is shown if what its call has to do with is looked at, and only then. -/
theorem Parted.attends (h : Parted L s) (hs : Sound s none none) {task : Task} (hkt : s.tasks[t]? = some task) :
    Attends L (decide (t ∈ L.tasks)) s task.call := by
  have hfits := hs.employed.fits t task hkt
  have hleads : ∀ x, s.Has x → ∀ p, s.LeadsTo x p → s.Has (.pipe p) := by
    rintro x hx p (rfl | ⟨g, rfl, hg⟩)
    · exact hx
    · exact hs.housed.gatePipe g p hg
  have hiff := h t task hkt
  refine ⟨fun x r haim => ?_, fun p hc => ?_, fun p hc a ha => ?_, fun hc => ?_⟩
  · rcases haim with hop | ⟨o, y, hop, hy, hx⟩
    · exact hfits.onBacking hop
    · exact (hs.housed.backing y (List.mem_of_getElem? hy) x hx).1
  · rcases hc with hc | ⟨x, hx, hl⟩ | ⟨o, y, x, -, hy, hx, hl⟩
    · exact hfits.pipe hc
    · exact hleads x (hfits.backing hx) p hl
    · exact hleads x (hs.housed.backing y (List.mem_of_getElem? hy) x hx).1 p hl
  · have hin : L.scope.pipe p = decide (t ∈ L.tasks) := Bool.eq_iff_iff.2 ((hiff (.pipe p) hc).trans decide_eq_true_iff.symm)
    exact hin ▸ h.uniform hs ha
  · exact Bool.eq_iff_iff.2 ((hiff .streams hc).trans decide_eq_true_iff.symm)

/-- A task that queues for a gate. -/
theorem Attends.atGate {b : Bool} {c : Call} {r : Pipe.Request} (h : Attends L b s c)
    (hpur : s.Pursues c (.atGate g r)) :
    ∃ p q, s.gatePipe? g = some p ∧ s.pipe? p = some q ∧ Uniform L b s (.gate g) ∧ Uniform L b s (.pipe p) := by
  obtain ⟨q, -, haim, p, hp⟩ := hpur
  have hc := haim.concerns (.inr ⟨g, rfl, hp⟩)
  obtain ⟨q, hq⟩ := h.pipes p hc
  exact ⟨p, q, hp, hq, h.places p hc (.gate g) hp, h.places p hc (.pipe p) rfl⟩

/-- A task that waits for a pipe. -/
theorem Attends.inPipe {b : Bool} {c : Call} {gate : Option Nat} {r : Pipe.Request} (h : Attends L b s c)
    (hpur : s.Pursues c (.inPipe gate p r)) :
    ∃ q, s.pipe? p = some q ∧ Uniform L b s (.pipe p) ∧ ∀ g, gate = some g → Uniform L b s (.gate g) := by
  have hc := hpur.concerns
  obtain ⟨q, hq⟩ := h.pipes p hc
  refine ⟨q, hq, h.places p hc (.pipe p) rfl, fun g hg => ?_⟩
  subst hg
  obtain ⟨q, -, -, hgp⟩ := hpur
  exact h.places p hc (.gate g) hgp

theorem begin_focus {c : Call} (h : Attends L true s c) (ht : t ∈ L.tasks) (hk : k ≤ s.notices.length)
    (hlt : t < s.tasks.length) :
    (s.follow L ns k).begin (L.place t) c.operation = (s.begin t c.operation).follow L ns k := by
  have happroach : ∀ {s' : Session} {b : Backing} {r : Sink.Request}, Attends L true s' c → s'.Aims c b r →
      k ≤ s'.notices.length → t < s'.tasks.length →
      (s'.follow L ns k).approach (L.place t) b r = (s'.approach t b r).follow L ns k := by
    intro s' b r h' haim hk' hlt'
    refine approach_focus ht hk' hlt' (fun n hb => ?_) (fun p hl => ?_) (fun g hb => ?_) r
    · subst hb
      exact h'.streams haim.streams
    · have hc := haim.concerns hl
      exact ⟨h'.places p hc (.pipe p) rfl, h'.pipes p hc⟩
    · subst hb
      obtain ⟨p, hp⟩ := h'.has _ r haim
      exact h'.places p (haim.concerns (.inr ⟨g, rfl, hp⟩)) (.gate g) hp
  cases ho : c.operation with
  | answered outcome => exact complete_focus ht hk hlt outcome
  | onPipe p r =>
    have hc : s.Concerns c p := .inl (Call.pipe?_of_operation ho)
    obtain ⟨b, hb⟩ := h.pipes p hc
    exact serve_focus ht hk hlt (h.places p hc (.pipe p) rfl) (by simp) hb r
  | onBacking b r => exact happroach h (.inl ho) hk hlt
  | onOutlet o r =>
    have hx' : (s.follow L ns k).outlets[o]? = s.outlets[o]? := rfl
    simp only [begin, hx']
    cases hx : s.outlets[o]? with
    | none => rfl
    | some x =>
      have hentry : (s.follow L ns k).setEntry (L.place t) x.destination
          = (s.setEntry t x.destination).follow L ns k := (focus_modify hlt _).symm
      have hlt' : t < (s.setEntry t x.destination).tasks.length := by
        rw [setEntry, List.length_modify]
        exact hlt
      have h' : Attends L true (s.setEntry t x.destination) c := h.congr rfl rfl rfl rfl
      have hanswer := fun outcome => (congrArg (complete · (L.place t) outcome) hentry).trans
        (complete_focus (s := s.setEntry t x.destination) ht hk hlt' outcome)
      have hask := fun b hb => (congrArg (approach · (L.place t) b r) hentry).trans
        (happroach h' (b := b) (.inr ⟨o, x, ho, hx, hb⟩) hk hlt')
      obtain ⟨d, backing⟩ := x
      cases d <;> cases backing <;> first | exact hanswer _ | exact hask _ rfl

theorem tasks_leave (s : Session) (t : Nat) (a : Place) : (s.leave t a).tasks = s.tasks := (fields_alter ..).1

theorem gateHeld_follow (h : Uniform L true s (.gate g)) : (s.follow L ns k).gateHeld g = s.gateHeld g := by
  obtain ⟨x, hx, hp⟩ := h.gate
  have hx' : (s.follow L ns k).gates[g]? = some (L.gate x) := gate_follow hx
  rw [gateHeld, gateHeld, hx, hx', Option.map_some, Option.map_some, L.gate_eq hp, Gate.isHeld, Option.isSome_map]
  rfl

theorem tasks_wakeGate (s : Session) (g : Nat) : (s.wakeGate g).tasks = s.tasks := by
  unfold wakeGate
  split <;> rfl

theorem abandon_focus {c : Call} {st : Stage} (h : Attends L true s c) (hpur : s.Pursues c st) (ht : t ∈ L.tasks)
    (hlt : t < s.tasks.length) :
    (s.follow L ns k).abandon (L.place t) st = (s.abandon t st).follow L ns k := by
  cases st with
  | fresh => exact finish_focus ht hlt _
  | ended o => exact finish_focus ht hlt _
  | atGate g r =>
    obtain ⟨p, b, -, -, hg, -⟩ := h.atGate hpur
    have hleft := hg.leave t (.gate g)
    have hlt' : t < (s.leave t (.gate g)).tasks.length := by rwa [tasks_leave]
    change (if ((s.follow L ns k).leave (L.place t) (.gate g)).gateHeld g
        then (s.follow L ns k).leave (L.place t) (.gate g)
        else ((s.follow L ns k).leave (L.place t) (.gate g)).wakeGate g).finish _ _
      = ((if (s.leave t (.gate g)).gateHeld g then s.leave t (.gate g)
        else (s.leave t (.gate g)).wakeGate g).finish t _).follow L ns k
    rw [leave_focus ht hg, gateHeld_follow hleft, wakeGate_focus hleft]
    split
    · exact finish_focus ht hlt' _
    · exact finish_focus ht (by rwa [tasks_wakeGate]) _
  | inPipe gate p r =>
    obtain ⟨b, -, hp, hg⟩ := h.inPipe hpur
    change (((s.follow L ns k).leave (L.place t) (.pipe p)).release gate).finish _ _
      = (((s.leave t (.pipe p)).release gate).finish t _).follow L ns k
    rw [leave_focus ht hp, release_focus fun g he => (hg g he).leave t (.pipe p)]
    exact finish_focus ht (by rwa [tasks_release, tasks_leave]) _

/-- The turn of a task that is shown. -/
theorem runTask_focus {task : Task} (hkt : s.tasks[t]? = some task) (h : Attends L true s task.call)
    (hpur : s.Pursues task.call task.stage) (ht : t ∈ L.tasks) (hk : k ≤ s.notices.length) :
    (s.follow L ns k).runTask (L.place t) = (s.runTask t).follow L ns k := by
  obtain ⟨hlt, -⟩ := List.getElem?_eq_some_iff.1 hkt
  have hkt' : (s.follow L ns k).tasks[L.place t]? = some task := (task_focus ht hlt).trans hkt
  simp only [runTask, hkt, hkt']
  cases hc : task.cancelling with
  | true =>
    have habandon : (s.follow L ns k).abandon (L.place t) task.stage = (s.abandon t task.stage).follow L ns k :=
      abandon_focus h hpur ht hlt
    cases hst : task.stage with
    | ended o => rfl
    | fresh => rw [hst] at habandon; exact habandon
    | atGate g r => rw [hst] at habandon; exact habandon
    | inPipe gate p r => rw [hst] at habandon; exact habandon
  | false =>
    cases hst : task.stage with
    | ended o => rfl
    | fresh => exact begin_focus h ht hk hlt
    | atGate g r =>
      rw [hst] at hpur
      obtain ⟨p, b, hgp, hb, hg, hp⟩ := h.atGate hpur
      exact enter_focus ht hk hlt hg hgp hp hb r
    | inPipe gate p r =>
      rw [hst] at hpur
      obtain ⟨b, hb, hp, hg⟩ := h.inPipe hpur
      have hlt' : t < (s.leave t (.pipe p)).tasks.length := by rwa [tasks_leave]
      have hb' : (s.leave t (.pipe p)).pipe? p = some b := (congrFun (pipe?_alter ..) p).trans hb
      exact (congrArg (serve · (L.place t) gate p r) (leave_focus ht hp)).trans
        (serve_focus (s := s.leave t (.pipe p)) ht hk hlt' (hp.leave t _) (fun g he => (hg g he).leave t _) hb' r)

/-- A turn of a task that is shown is a turn of what is shown. -/
theorem turn_follow (h : Parted L s) (hs : Sound s none none) (hk : k ≤ s.notices.length) {rest : List Job}
    (hr : s.ready = .task t :: rest) (ht : t ∈ L.tasks) :
    (s.follow L ns k).turn = s.turn.follow L ns k := by
  obtain ⟨task, hkt, -⟩ := exists_task hs hr
  have hjob : L.job (.task t) = some (.task (L.place t)) := if_pos ht
  have hr' : (s.follow L ns k).ready = .task (L.place t) :: rest.filterMap L.job := by
    simp only [follow, focus, hr, List.filterMap_cons, hjob]
  have hattends : Attends L true s task.call := by
    have h' := h.attends hs hkt
    rwa [decide_eq_true ht] at h'
  have hnow : Attends L true { s with ready := rest } task.call := hattends.congr rfl rfl rfl rfl
  simp only [turn, hr, hr']
  exact runTask_focus (s := { s with ready := rest }) hkt hnow (hs.employed.pursues t task hkt (by simp)) ht hk

/-- A notice is recorded by what is shown if the journal is. -/
theorem turn_follow_deliver (hall : L.scope.isAll = true) {rest : List Job} {n : Notice} {copies : Nat}
    (hr : s.ready = .deliver n copies :: rest) : (s.follow L ns k).turn = s.turn.follow L ns k := by
  have hjob : L.job (.deliver n copies) = some (.deliver n copies) := if_pos hall
  have hr' : (s.follow L ns k).ready = .deliver n copies :: rest.filterMap L.job := by
    simp only [follow, focus, hr, List.filterMap_cons, hjob]
  simp only [turn, hr, hr', deliver]
  simp [follow, focus, hall]

end Session

end Outflow
