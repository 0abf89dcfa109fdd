import Outflow.Proofs.Conservation
import Outflow.Proofs.Session.Order
import Outflow.Proofs.Waiting

/-!
# Settling ends

Without forwarding calls the queue of a session is empty after as many turns as its budget says.

* `Call.more_cases`: a call that goes on has written some bytes, or has got a line;
* `Task.weight`, `Session.load`: the bytes that are still to be written, twice, those that are buffered,
  and the ends of the tasks that have not ended;
* `Fate.lighter`, `Course.lighter`: a turn makes the load smaller, or the task is put off and wakes
  nobody;
* `ready_length_le`: each task that has not ended stands in the ready queue once at most;
* `budget_turn_lt`: every turn lowers the budget;
* `ready_settle`, `settling_ends`: so the queue is worked off, and whoever has not ended waits.
-/

namespace Outflow

/-! ### Calls that go on -/

theorem Call.isForward_of_more {c c' : Call} {d : Destination} {outcome : Outcome}
    (h : c.resume d outcome = .more c') : c'.isForward = c.isForward := by
  unfold resume at h
  split at h
  all_goals try split at h
  all_goals cases h
  all_goals rfl

/-- A call that goes on has written some of its bytes, or has got a line, or it forwards. -/
theorem Call.more_cases {c c' : Call} {d : Destination} {outcome : Outcome}
    (h : c.resume d outcome = .more c') (hf : c.isForward = false) :
    (∃ o rest n, c = .writeAll o rest ∧ rest ≠ [] ∧ outcome = .ok (.count n) ∧ n ≠ 0 ∧
        c' = .writeAll o (rest.drop n)) ∨
      ∃ p got line, c = .lines p got ∧ outcome = .ok (.bytes line) ∧ line ≠ [] ∧
        c' = .lines p (got ++ [line]) := by
  unfold resume at h
  split at h
  case h_2 o rest hne =>
    split at h
    · cases h
    · cases h
    · rename_i left hleft₀ hleft
      cases h
      -- only a count that is not zero leaves anything
      unfold leftAfter at hleft
      split at hleft
      · cases hleft
      · cases hleft
      · rename_i n hn
        cases hleft
        exact .inl ⟨o, rest, n, rfl, hne, rfl, hn, rfl⟩
      · cases hleft
        exact absurd rfl hleft₀
  case h_5 p got line hne =>
    cases h
    exact .inr ⟨p, got, line, rfl, rfl, hne, rfl⟩
  all_goals try split at h
  all_goals cases h
  all_goals cases hf

/-- A call that writes owes the bytes of its present operation. -/
theorem Session.Aims.owed {s : Session} {c : Call} {b : Backing} {data : Bytes}
    (h : s.Aims c b (.write data)) : c.owed = data.length := by
  have hread : ∀ p limit (b : Backing) (o : Nat) (q : Sink.Request),
      Operation.read p limit ≠ .onBacking b q ∧ Operation.read p limit ≠ .onOutlet o q := by
    intro p limit b o q
    unfold Operation.read
    split
    · simp
    · split <;> simp
  rcases h with h | ⟨o, x, h, -, -⟩
  · cases c with
    | backing b' r => cases h; rfl
    | writeAll o rest => cases rest <;> cases h
    | read p limit => exact absurd h (hread p limit b 0 _).1
    | forward p limit o total leg =>
      cases leg with
      | read => exact absurd h (hread p limit b 0 _).1
      | write => cases h
      | flush => cases h
    | idle | outlet | readLine | close | nextLine | lines => cases h
  · cases c with
    | outlet o' r => cases h; rfl
    | writeAll o' rest =>
      cases rest with
      | nil => cases h
      | cons => cases h; rfl
    | read p limit => exact absurd h (hread p limit b o _).2
    | forward p limit o' total leg =>
      cases leg with
      | read => exact absurd h (hread p limit b o _).2
      | write => cases h; rfl
      | flush => cases h
    | idle | backing | readLine | close | nextLine | lines => cases h

/-! ### Pipes -/

/-- What a request adds is what the pipe holds more, at most, and what it removes is what it holds
less. -/
theorem Pipe.length_serve_le {p : Pipe} (h : p.Valid) (r : Request) :
    (p.serve r).pipe.buffer.length + (p.removed r).length ≤
      p.buffer.length + (p.accepted r).length := by
  by_cases hr : p.readClosed = true
  · have hb := h.buffer_eq_nil hr
    simp [buffer_serve_of_readClosed hr hb, removed_of_nil hb]
  · rw [Bool.not_eq_true] at hr
    by_cases hc : r = .close
    · subst hc
      simp [serve_close, removed, Request.isRead]
    · have hl := congrArg List.length (buffer_append_accepted hr hc)
      rw [List.length_append, List.length_append] at hl
      omega

/-- A request that is put off leaves the pipe as it was, or with fewer bytes. -/
theorem Pipe.length_of_wait {p : Pipe} {r again : Request} (h : (p.serve r).reply = .wait again) :
    (p.serve r).pipe = p ∨ (p.serve r).pipe.buffer.length < p.buffer.length := by
  obtain ⟨-, hs⟩ | ⟨-, hs⟩ := serve_cases p r
  · left
    rw [hs]
  · obtain ⟨-, ⟨-, he⟩ | ⟨got, rfl, -⟩⟩ := wait_cases h
    · exact .inl he
    · by_cases hc : p.readClosed = true
      · simp [hs, perform, drained, hc] at h
      · rw [Bool.not_eq_true] at hc
        rw [hs, perform_drain_of_open hc]
        by_cases hb : p.buffer = []
        · left
          simp only [← hb]
        · right
          exact List.length_pos_iff.2 hb

/-- A count that a pipe answers is at least as large as what it accepted. -/
theorem Service.accepted_le_of_count {v : Service} {k : Nat}
    (h : v.answer? = some (.ok (.count k))) : v.accepted.length ≤ k := by
  cases hr : v.request with
  | write data =>
    rcases accepted_of_write hr with ⟨-, ha⟩ | ⟨k', hans, ha⟩ | ⟨f, -, ha⟩
    · simp [ha]
    · rw [h] at hans
      cases hans
      rw [ha]
      exact List.length_take_le ..
    · simp [ha]
  | _ => simp [accepted, Pipe.accepted, hr]

namespace Session

variable {s s' : Session} {t : Nat} {task task' : Task} {rest : List Job}

/-- A service adds no more than the call owes. -/
theorem Pursues.accepted_le {v : Service} {c : Call}
    (h : s.Pursues c (.inPipe v.gate v.place v.request)) : v.accepted.length ≤ c.owed := by
  cases hr : v.request with
  | write data =>
    -- nothing is written at the read end
    have haim : ∃ b, s.Aims c b (.write data) := by
      rw [hr] at h
      have hwrite : ∀ q : Sink.Request, .write data = Pipe.Request.ofSink q → q = .write data := by
        intro q hq
        cases q <;> cases hq
        rfl
      cases hg : v.gate with
      | some g =>
        rw [hg] at h
        obtain ⟨q, hq, haim, -⟩ := h
        exact ⟨_, hwrite q hq ▸ haim⟩
      | none =>
        rw [hg] at h
        rcases h.2 with ⟨q, hq, haim⟩ | ⟨r₀, hop, rfl | ⟨got, got', -, hd⟩⟩
        · exact ⟨_, hwrite q hq ▸ haim⟩
        · rcases operation_onPipe hop with he | he | ⟨limit, -, he⟩
          · cases he
          · cases he
          · have hread := reading_of_continues (he ▸ hop) (.inl rfl)
            simp at hread
        · cases hd
    obtain ⟨b, haim⟩ := haim
    rw [haim.owed]
    rcases Service.accepted_of_write hr with ⟨-, ha⟩ | ⟨k, -, ha⟩ | ⟨f, -, ha⟩
    · simp [ha]
    · rw [ha]
      exact List.length_take_le' ..
    · simp [ha]
  | _ => simp [Service.accepted, Pipe.accepted, hr]

/-- A change of one member changes the sum by what that member gives. -/
theorem sum_map_set {α : Type} (f : α → Nat) {l : List α} {i : Nat} {a : α} (h : l[i]? = some a)
    (b : α) : ((l.set i b).map f).sum + f a = (l.map f).sum + f b := by
  induction l generalizing i with
  | nil => cases h
  | cons x l ih =>
    cases i with
    | zero =>
      cases h
      simp only [List.set_cons_zero, List.map_cons, List.sum_cons]
      omega
    | succ i =>
      have hi := ih h
      simp only [List.set_cons_succ, List.map_cons, List.sum_cons]
      omega

/-! ### The load of a session -/

/-- What a task still sets going: twice each byte that it is to write, and twice its end. -/
def weight (task : Task) : Nat := if task.isUnfinished then 2 * task.call.owed + 2 else 0

/-- The pipes of a session. -/
def pipes (s : Session) : List Pipe := s.channels.map Channel.pipe

/-- What a session is still to do. -/
def load (s : Session) : Nat :=
  (s.tasks.map weight).sum + (s.pipes.map fun b => b.buffer.length).sum

theorem pipe?_eq_pipes (s : Session) (p : Nat) : s.pipe? p = s.pipes[p]? := by
  rw [pipe?, pipes, List.getElem?_map]

theorem forwards_eq_zero_iff : s.forwards = 0 ↔
    ∀ (t : Nat) task, s.tasks[t]? = some task → task.isUnfinished = true →
      task.call.isForward = false := by
  simp only [forwards, unfinished, List.length_eq_zero_iff, List.filter_eq_nil_iff, List.mem_filter,
    and_imp, Bool.not_eq_true]
  constructor
  · exact fun h t task hk => h task (List.mem_of_getElem? hk)
  · intro h task hmem
    obtain ⟨t, hk⟩ := List.mem_iff_getElem?.1 hmem
    exact h t task hk

theorem potential_eq_load (h : s.forwards = 0) : s.potential = s.load := by
  have hweight : ∀ ts : List Task, 2 * ((ts.filter Task.isUnfinished).map fun t => t.call.owed).sum +
      2 * (ts.filter Task.isUnfinished).length = (ts.map weight).sum := by
    intro ts
    induction ts with
    | nil => rfl
    | cons task ts ih =>
      rw [List.map_cons, List.sum_cons, ← ih, weight]
      by_cases hu : task.isUnfinished = true
      · rw [List.filter_cons_of_pos hu, if_pos hu, List.map_cons, List.sum_cons, List.length_cons]
        omega
      · rw [List.filter_cons_of_neg hu, if_neg hu, Nat.zero_add]
  have hbuf : s.buffered = (s.pipes.map fun b => b.buffer.length).sum := by
    rw [pipes, List.map_map]
    rfl
  rw [load, ← hweight, ← hbuf, potential, h]
  change (2 * s.owed + s.buffered) * 1 + 2 * s.unfinished.length =
    2 * s.owed + 2 * s.unfinished.length + s.buffered
  omega

/-! ### What a turn takes -/

/-- An answer takes more from the weight of a task than a pipe got from it, or it is a line. -/
theorem weight_after (hu : task.isUnfinished = true) (hf : task.call.isForward = false)
    (d : Destination) (outcome : Outcome) {n : Nat} (hn : n ≤ task.call.owed)
    (hcount : ∀ k, outcome = .ok (.count k) → n ≤ k) :
    weight (task.after d outcome) + n < weight task ∨
      ∃ p got line, task.call = .lines p got ∧ outcome = .ok (.bytes line) ∧ line ≠ [] ∧
        weight (task.after d outcome) = weight task := by
  have hw : weight task = 2 * task.call.owed + 2 := if_pos hu
  rw [Task.after]
  cases hr : task.call.resume d outcome with
  | done outcome' =>
    left
    have hz : weight { task with stage := .ended outcome' } = 0 := rfl
    rw [hz, hw]
    omega
  | more c' =>
    have hw' : weight { task with call := c', stage := .fresh } = 2 * c'.owed + 2 := rfl
    rw [hw', hw]
    rcases Call.more_cases hr hf with
      ⟨o, left, k, hc, hne, ho, hk, rfl⟩ | ⟨p, got, line, hc, ho, hne, rfl⟩
    · left
      have hle := hcount k ho
      have hpos := List.length_pos_iff.2 hne
      rw [hc] at hn ⊢
      simp only [Call.owed, List.length_drop] at hn ⊢
      omega
    · exact .inr ⟨p, got, line, hc, ho, hne, by rw [hc]; rfl⟩

/-- The turn of a task that forwards nothing makes it lighter, with the pipe that it comes to; or the task
is put off, and no pipe is changed. -/
theorem Fate.lighter (h : Fate s t task task') (hs : Housed s) (hu : task.isUnfinished = true)
    (hf : task.call.isForward = false) :
    (s.service? = none ∧ weight task' < weight task) ∨
      (weight task' = weight task ∧ task'.stage.place? ≠ none ∧
        ∀ v, s.service? = some v → v.after = v.before) ∨
      ∃ v, s.service? = some v ∧
        weight task' + v.after.buffer.length < weight task + v.before.buffer.length := by
  have hwt : weight task = 2 * task.call.owed + 2 := if_pos hu
  cases h with
  | cancelled entry hc hv =>
    refine .inl ⟨hv, ?_⟩
    have hz : weight { task with entry, stage := .ended (.error .cancelled) } = 0 := rfl
    omega
  | answered entry d outcome hv hst hop hout =>
    refine .inl ⟨hv, ?_⟩
    have hw : weight { task with entry } = weight task := rfl
    rcases weight_after (show Task.isUnfinished { task with entry } = true from hu) hf d outcome
      (Nat.zero_le _) (fun _ _ => Nat.zero_le _) with hlt | ⟨p, got, line, hcall, -⟩
    · rwa [← hw]
    · -- a line is asked for at a pipe
      refine absurd ?_ (hop p .readLine)
      rw [show task.call = .lines p got from hcall]
      rfl
  | queued entry hv hst haim =>
    refine .inr (.inl ⟨?_, by simp [Stage.place?], fun v h => ?_⟩)
    · rw [hwt]
      rfl
    · rw [hv] at h
      cases h
  | @waits entry v again hv ht hpur hrep =>
    have hw : weight { task with entry, stage := .inPipe v.gate v.place again } = weight task := by
      rw [hwt]
      rfl
    rcases Pipe.length_of_wait hrep with he | hlt
    · refine .inr (.inl ⟨hw, by simp [Stage.place?], fun v' hv' => ?_⟩)
      rw [hv] at hv'
      cases hv'
      exact he
    · exact .inr (.inr ⟨v, hv, by rw [hw]; exact Nat.add_lt_add_left hlt _⟩)
  | @served entry d v outcome hv ht hpur hans =>
    refine .inr (.inr ⟨v, hv, ?_⟩)
    have hw : weight { task with entry } = weight task := rfl
    have hle := Pipe.length_serve_le (hs.valid _ _ (before_of_service? hv)) v.request
    rcases weight_after (show Task.isUnfinished { task with entry } = true from hu) hf d outcome
      hpur.accepted_le (fun k hk => Service.accepted_le_of_count (by rw [hans, hk])) with
      hlt | ⟨p, got, line, hcall, ho, hne, hsame⟩
    · rw [hw] at hlt
      rw [Service.accepted] at hlt
      rw [Service.after]
      omega
    · -- the line came out of the buffer
      have hop : task.call.operation = .onPipe p .readLine := by
        rw [show task.call = .lines p got from hcall]
        rfl
      obtain ⟨-, -, hr | ⟨got₀, got₁, hd, -⟩⟩ := hpur.of_onPipe hop
      · have hrem : line = v.removed := by
          rcases Service.answer?_of_chunk (.inr hr) with ⟨hnone, -⟩ | hans'
          · rw [hans] at hnone
            cases hnone
          · rw [hans, ho] at hans'
            simpa using hans'
        have hpos := List.length_pos_iff.2 hne
        rw [hrem, Service.removed] at hpos
        have hacc : v.before.accepted v.request = [] := by simp [Pipe.accepted, hr]
        rw [hacc] at hle
        rw [hsame, hw, Service.after]
        simp only [List.length_nil] at hle
        omega
      · cases hd

/-- The pipes after a turn, as a list. -/
theorem Course.pipes (h : Course s t task s') :
    (s.service? = none ∧ s'.pipes = s.pipes) ∨
      ∃ v, s.service? = some v ∧ s.pipes[v.place]? = some v.before ∧
        s'.pipes = s.pipes.set v.place v.after := by
  have hp := h.pipe
  cases hv : s.service? with
  | none =>
    rw [pipesAfter_of_none hv] at hp
    refine .inl ⟨rfl, List.ext_getElem? fun q => ?_⟩
    rw [← pipe?_eq_pipes, hp, pipe?_eq_pipes]
  | some v =>
    rw [pipesAfter_of_service hv] at hp
    have hb := before_of_service? hv
    rw [pipe?_eq_pipes] at hb
    obtain ⟨hlt, -⟩ := List.getElem?_eq_some_iff.1 hb
    refine .inr ⟨v, rfl, hb, List.ext_getElem? fun q => ?_⟩
    rw [← pipe?_eq_pipes, hp]
    by_cases hq : q = v.place
    · rw [hq, List.getElem?_set_self hlt, Function.update_self]
    · rw [List.getElem?_set_ne (Ne.symm hq), Function.update_of_ne hq, pipe?_eq_pipes]

/-- A turn makes the load smaller, or the task is put off and wakes nobody. -/
theorem Course.lighter (h : Course s t task s') (hs : Housed s) (hr : s.ready = .task t :: rest)
    (hk : s.tasks[t]? = some task) (hu : task.isUnfinished = true)
    (hf : task.call.isForward = false) :
    s'.load < s.load ∨ (s'.load = s.load ∧ s'.ready = rest) := by
  obtain ⟨task', ht, hfate⟩ := h.tasks hk
  have hw := sum_map_set weight hk task'
  rw [← ht] at hw
  have hk' : s'.tasks[t]? = some task' := by
    obtain ⟨hlt, -⟩ := List.getElem?_eq_some_iff.1 hk
    rw [ht, List.getElem?_set_self hlt]
  -- what the pipes hold more or less is what the pipe of the service does
  have hpipes : (s.service? = none ∧ s'.pipes = s.pipes) ∨ ∃ v, s.service? = some v ∧
      s'.pipes = s.pipes.set v.place v.after ∧ s.pipes[v.place]? = some v.before ∧
      (s'.pipes.map fun b => b.buffer.length).sum + v.before.buffer.length =
        (s.pipes.map fun b => b.buffer.length).sum + v.after.buffer.length := by
    rcases h.pipes with hnone | ⟨v, hv, hb, he⟩
    · exact .inl hnone
    · refine .inr ⟨v, hv, he, hb, ?_⟩
      rw [he]
      exact sum_map_set _ hb v.after
  rw [load, load]
  rcases hfate.lighter hs hu hf with ⟨hv, hlt⟩ | ⟨hsame, hpl, hafter⟩ | ⟨v, hv, hlt⟩
  · rcases hpipes with ⟨-, he⟩ | ⟨v, hv', -⟩
    · rw [he]
      left
      omega
    · rw [hv] at hv'
      cases hv'
  · right
    have he : s'.pipes = s.pipes := by
      rcases hpipes with ⟨-, he⟩ | ⟨v, hv, he, hb, -⟩
      · exact he
      · obtain ⟨hlt, hb⟩ := List.getElem?_eq_some_iff.1 hb
        rw [he, hafter v hv, ← hb, List.set_getElem_self hlt]
    refine ⟨by rw [he]; omega, h.ready_of_put_off hr ?_ ?_⟩
    · rwa [place?_of_task hk']
    · funext q
      rw [pipe?_eq_pipes, he, pipe?_eq_pipes]
  · rcases hpipes with ⟨hv', -⟩ | ⟨v', hv', -, -, hsum⟩
    · rw [hv] at hv'
      cases hv'
    · rw [hv] at hv'
      cases hv'
      left
      omega

/-! ### The ready queue -/

/-- Whether a job is a notice. -/
def isNotice : Job → Bool
  | .deliver _ _ => true
  | .task _ => false

/-- The task of a job. -/
def taskOf? : Job → Option Nat
  | .task t => some t
  | .deliver _ _ => none

theorem count_taskOf? (js : List Job) (u : Nat) :
    (js.filterMap taskOf?).count u = js.count (.task u) := by
  induction js with
  | nil => rfl
  | cons j js ih =>
    cases j with
    | task v => simp [taskOf?, List.count_cons, ih]
    | deliver n k =>
      rw [List.filterMap_cons_none rfl, ih, List.count_cons_of_ne (by simp)]

theorem length_eq_tasks_add_notices (js : List Job) :
    js.length = (js.filterMap taskOf?).length + js.countP isNotice := by
  induction js with
  | nil => rfl
  | cons j js ih =>
    cases j with
    | task v =>
      simp only [List.length_cons, List.filterMap_cons, taskOf?, List.countP_cons, isNotice]
      simp only [Bool.false_eq_true, if_false]
      omega
    | deliver n k =>
      simp only [List.length_cons, List.filterMap_cons, taskOf?, List.countP_cons, isNotice]
      simp only [if_true]
      omega

/-- Only tasks that have not ended stand in the ready queue, and each of them once. -/
theorem ready_length_le (h : Sound s none none) :
    s.ready.length ≤ s.unfinished.length + s.ready.countP isNotice := by
  have hnodup : (s.ready.filterMap taskOf?).Nodup := by
    rw [List.nodup_iff_count_le_one]
    intro u
    rw [count_taskOf?]
    exact h.placed.turnsOf_le u
  -- the places of the tasks that have not ended
  have hsub : s.ready.filterMap taskOf? ⊆
      (s.tasks.zipIdx.filter fun e => e.1.isUnfinished).map Prod.snd := by
    intro u hu
    rw [← List.count_pos_iff, count_taskOf?, List.count_pos_iff] at hu
    obtain ⟨task, hk, hended⟩ := exists_task_of_mem h hu
    exact List.mem_map.2 ⟨(task, u), List.mem_filter.2 ⟨List.mem_zipIdx_iff_getElem?.2 hk,
      Task.isUnfinished_iff.2 hended⟩, rfl⟩
  have hle := (List.subperm_of_subset hnodup hsub).length_le
  have hunf : s.unfinished =
      (s.tasks.zipIdx.filter fun e => e.1.isUnfinished).map Prod.fst := by
    rw [unfinished]
    conv_lhs => rw [← List.zipIdx_map_fst 0 s.tasks]
    rw [List.filter_map]
    rfl
  rw [length_eq_tasks_add_notices, hunf, List.length_map]
  rw [List.length_map] at hle
  omega

/-- The notices in the ready queue after the turn of a task: one more, at most. -/
theorem Course.countP_isNotice_le (h : Course s t task s') (hr : s.ready = .task t :: rest) :
    s'.ready.countP isNotice ≤ s.ready.length := by
  obtain ⟨ts, ns, he, hlen, -⟩ := h.ready hr
  have hfront : (s'.front t).countP isNotice = 0 := by
    unfold front
    split <;> rfl
  have htasks : (ts.map Job.task).countP isNotice = 0 := by
    rw [List.countP_eq_zero]
    intro j hj
    obtain ⟨u, -, rfl⟩ := List.mem_map.1 hj
    simp [isNotice]
  have hrest := List.countP_le_length (p := isNotice) (l := rest)
  have hns := List.countP_le_length (p := isNotice) (l := ns)
  rw [he, hr]
  simp only [List.countP_append, List.length_cons]
  omega

/-! ### Settling -/

theorem Fate.isForward (h : Fate s t task task') : task'.call.isForward = task.call.isForward := by
  have hafter : ∀ (entry : Destination) (d : Destination) (outcome : Outcome),
      (Task.after { task with entry } d outcome).call.isForward = task.call.isForward := by
    intro entry d outcome
    rw [Task.after]
    cases hr : task.call.resume d outcome with
    | done outcome' => rfl
    | more c' => exact Call.isForward_of_more hr
  cases h with
  | cancelled => rfl
  | queued => rfl
  | waits => rfl
  | answered => exact hafter ..
  | served => exact hafter ..

theorem Course.forwards (h : Course s t task s') (hk : s.tasks[t]? = some task)
    (hu : task.isUnfinished = true) (hf : s.forwards = 0) : s'.forwards = 0 := by
  obtain ⟨task', hk', hfate⟩ := h.fate
  rw [forwards_eq_zero_iff] at hf ⊢
  intro u task'' hk'' hu''
  by_cases hut : u = t
  · rw [hut, hk'] at hk''
    cases hk''
    rw [hfate.isForward]
    exact hf t task hk hu
  · rw [h.others hut] at hk''
    exact hf u task'' hk'' hu''

/-- No task that has ended begins anew. -/
theorem Course.unfinished_length_le (h : Course s t task s') (hk : s.tasks[t]? = some task)
    (hu : task.isUnfinished = true) : s'.unfinished.length ≤ s.unfinished.length := by
  obtain ⟨task', ht, -⟩ := h.tasks hk
  obtain ⟨hlt, he⟩ := List.getElem?_eq_some_iff.1 hk
  rw [unfinished, unfinished, ← List.countP_eq_length_filter, ← List.countP_eq_length_filter, ht,
    List.countP_set hlt, he, if_pos hu]
  have hpos : 0 < s.tasks.countP Task.isUnfinished :=
    List.countP_pos_iff.2 ⟨task, List.mem_of_getElem? hk, hu⟩
  split <;> omega

theorem forwards_turn (h : Sound s none none) (hf : s.forwards = 0) : s.turn.forwards = 0 := by
  obtain ⟨-, he⟩ | ⟨n, k, rest, -, he⟩ | ⟨t, rest, task, -, hk, hended, hc⟩ := turn_cases h
  · rw [he, hf]
  · rw [he]
    exact hf
  · exact hc.forwards hk (Task.isUnfinished_iff.2 hended) hf

theorem forwards_spawn {c : Call} (hc : c.isForward = false) (hf : s.forwards = 0) :
    (s.spawn c).1.forwards = 0 := by
  rw [forwards_eq_zero_iff] at hf ⊢
  intro t task hk hu
  rcases getElem?_concat_cases hk with hold | ⟨-, rfl⟩
  · exact hf t task hold hu
  · exact hc

/-- Every turn lowers the budget. -/
theorem budget_turn_lt (h : Sound s none none) (hf : s.forwards = 0) (hr : s.ready ≠ []) :
    s.turn.budget < s.budget := by
  obtain ⟨hnil, -⟩ | ⟨n, k, rest, hrest, he⟩ | ⟨t, rest, task, hrest, hk, hended, hc⟩ := turn_cases h
  · exact absurd hnil hr
  · rw [he, budget, budget, hrest]
    exact Nat.add_lt_add_left (Nat.lt_succ_self _) _
  · have hu := Task.isUnfinished_iff.2 hended
    have hunf := hc.unfinished_length_le hk hu
    rw [budget, budget, potential_eq_load (forwards_turn h hf), potential_eq_load hf]
    rcases hc.lighter h.housed hrest hk hu (forwards_eq_zero_iff.1 hf t task hk hu) with
      hlt | ⟨hsame, hready⟩
    · have hlen := ready_length_le h.turn
      have hnotices := hc.countP_isNotice_le hrest
      calc s.turn.load * (s.turn.unfinished.length + 3) + s.turn.ready.length
          ≤ s.turn.load * (s.unfinished.length + 3) +
              (s.unfinished.length + s.ready.length) := by
            gcongr
            omega
        _ < (s.turn.load + 1) * (s.unfinished.length + 3) + s.ready.length := by
            rw [Nat.add_mul]
            omega
        _ ≤ s.load * (s.unfinished.length + 3) + s.ready.length := by
            gcongr
            omega
    · rw [hsame, hready, hrest, List.length_cons]
      have hle : s.load * (s.turn.unfinished.length + 3) ≤ s.load * (s.unfinished.length + 3) := by
        gcongr
      omega

/-- Turns lower the budget until nothing is ready. -/
theorem exists_iterate_ready (h : Sound s none none) (hf : s.forwards = 0) :
    ∃ n ≤ s.budget, (turn^[n] s).ready = [] ∧ ∀ m < n, (turn^[m] s).ready ≠ [] := by
  induction hb : s.budget using Nat.strong_induction_on generalizing s with
  | _ b ih =>
    by_cases hr : s.ready = []
    · exact ⟨0, Nat.zero_le _, hr, fun m hm => absurd hm (Nat.not_lt_zero m)⟩
    · have hlt := budget_turn_lt h hf hr
      obtain ⟨n, hn, hnil, hbefore⟩ := ih _ (hb ▸ hlt) h.turn (forwards_turn h hf) rfl
      refine ⟨n + 1, by omega, hnil, fun m hm => ?_⟩
      cases m with
      | zero => exact hr
      | succ m => exact hbefore m (Nat.lt_of_succ_lt_succ hm)

/-- More turns than are needed do no more. -/
theorem run_eq_of_ready_nil {n m : Nat} (h : (turn^[n] s).ready = []) (hn : n ≤ m) :
    s.run m = turn^[n] s := by
  obtain ⟨k, rfl⟩ := Nat.exists_eq_add_of_le' hn
  have ht : (turn^[n] s).turn = turn^[n] s := by simp only [turn, h]
  rw [run_eq_iterate, Function.iterate_add_apply]
  exact Function.iterate_fixed ht k

theorem ready_settle (h : Sound s none none) (hf : s.forwards = 0) : s.settle.ready = [] := by
  obtain ⟨n, hn, hnil, -⟩ := exists_iterate_ready h hf
  rw [settle, run_eq_of_ready_nil hnil hn, hnil]

/-- Without forwarding calls settling ends, whatever was done to the session before: the turns that are
taken are as many as the budget at most, then nothing is ready, and every task has left its loop and has
ended, or waits for something that only a new call brings about. -/
theorem settling_ends (h : Reachable s) (hf : s.forwards = 0) :
    ∃ n ≤ s.budget, (∀ m < n, (turn^[m] s).ready ≠ []) ∧ s.settle = turn^[n] s ∧
      s.settle.ready = [] ∧
        ∀ (t : Nat) task, s.settle.tasks[t]? = some task → task.isUnfinished = true →
          ∃! k, s.settle.Awaits t k := by
  obtain ⟨n, hn, hnil, hbefore⟩ := exists_iterate_ready h.sound hf
  have hsettle : s.settle = turn^[n] s := run_eq_of_ready_nil hnil hn
  have hr := ready_settle h.sound hf
  exact ⟨n, hn, hbefore, hsettle, hr,
    fun t task hk hu => existsUnique_awaits h.settle.sound hr hk hu⟩

/-- A byte is to be read from the contended pipe: the queue is worked off, and then the read and the second
write have ended, and the third task waits. -/
theorem contendedRead_settles : contendedRead.forwards = 0 ∧ contendedRead.ready = [.task 3] ∧
    contendedRead.settle.endings = [0, 3, 1] ∧ contendedRead.settle.ready = [] ∧
      (∃ n ≤ contendedRead.budget, contendedRead.settle = turn^[n] contendedRead) ∧
        ∃! k, contendedRead.settle.Awaits 2 k := by
  have h : Reachable contendedRead :=
    reachable_contended.move (@Move.spawn _ (.read 0 1) ⟨_, rfl⟩)
  obtain ⟨n, hn, -, hsettle, hr, hwait⟩ := settling_ends h rfl
  exact ⟨rfl, rfl, rfl, hr, ⟨n, hn, hsettle⟩, hwait 2 _ rfl rfl⟩

end Session

end Outflow
