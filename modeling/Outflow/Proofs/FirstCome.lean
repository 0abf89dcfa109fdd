import Outflow.Proofs.Session.Account
import Outflow.Proofs.Session.Order
import Outflow.Proofs.Exclusion

/-!
# First come, first served

The operations at a gate come to the pipe in the order in which they have come to the gate.

* `Session.door?`: the gate that a task queues for, or has;
* `Session.Asks`, `Touches`, `Answers`: the turns in which an operation comes to a gate, comes through it
  to the pipe, and is answered;
* `Session.Behind`: whoever came later does not go before;
* `Behind.not_touches`, `Behind.turn`, `Behind.move`, `Run.behind`: it does not, turn by turn and on a run;
* `Session.Unbegun`, `Run.unbegun`: calls begin in the order in which they were made;
* `first_come_first_served`: all this together.
-/

namespace Outflow

/-- The gate that a task at a stage queues for, or has. -/
def Stage.door? : Stage → Option Nat
  | .atGate g _ => some g
  | .inPipe gate _ _ => gate
  | _ => none

/-- A task that has had an answer is at no gate. -/
theorem Task.door?_after (task : Task) (d : Destination) (outcome : Outcome) :
    (task.after d outcome).stage.door? = none := by
  unfold Task.after
  split <;> rfl

namespace Session

variable {s s' s₀ : Session} {past : List Session} {t u t₁ t₂ g : Nat} {task task' : Task}

/-- The gate that a task queues for, or has. -/
def door? (s : Session) (t : Nat) : Option Nat := (s.stage? t).bind Stage.door?

/-- The next turn begins an operation of a task at a gate; no outlet answers it by itself. -/
def Asks (s : Session) (t g : Nat) : Prop :=
  ∃ rest task q, s.ready = .task t :: rest ∧ s.tasks[t]? = some task ∧ task.cancelling = false ∧
    task.stage = .fresh ∧ s.Aims task.call (.gate g) q ∧ s.answer? task.call.operation = none

/-- The next turn brings a request of a task through a gate to the pipe. -/
def Touches (s : Session) (t g : Nat) : Prop :=
  ∃ v, s.service? = some v ∧ v.task = t ∧ v.gate = some g

/-- The next turn ends an operation of a task at a gate: the pipe answers. -/
def Answers (s : Session) (t g : Nat) : Prop :=
  ∃ v o, s.service? = some v ∧ v.task = t ∧ v.gate = some g ∧ v.answer? = some o

/-- An operation of a task at a gate was answered. -/
def AnsweredIn (past : List Session) (t g : Nat) : Prop := ∃ u ∈ past, u.Answers t g

/-- The task `t₂` does not go before the task `t₁` at a gate: it is not inside, and if it queues, then
`t₁` is inside or queues before it. -/
def Behind (s : Session) (t₁ t₂ g : Nat) : Prop :=
  ¬ s.Inside g t₂ ∧
    (t₂ ∈ s.line (.gate g) → s.Inside g t₁ ∨ [t₁, t₂].Sublist (s.line (.gate g)))

/-! ### Tasks at a gate -/

theorem AnsweredIn.mono {past past' : List Session} (h : AnsweredIn past t g)
    (hsub : past ⊆ past') : AnsweredIn past' t g := by
  obtain ⟨u, hu, hans⟩ := h
  exact ⟨u, hsub hu, hans⟩

theorem door?_eq_some : s.door? t = some g ↔
    s.Inside g t ∨ ∃ r, s.stage? t = some (.atGate g r) := by
  rw [door?, Option.bind_eq_some_iff]
  constructor
  · rintro ⟨st, hst, hd⟩
    cases st with
    | fresh => cases hd
    | ended o => cases hd
    | atGate g' r => cases hd; exact .inr ⟨r, hst⟩
    | inPipe gate p r => cases hd; exact .inl ⟨p, r, hst⟩
  · rintro (⟨p, r, hst⟩ | ⟨r, hst⟩)
    · exact ⟨_, hst, rfl⟩
    · exact ⟨_, hst, rfl⟩

theorem door?_congr (h : s'.stage? t = s.stage? t) : s'.door? t = s.door? t := by
  rw [door?, h, door?]

theorem inside_congr (h : s'.stage? t = s.stage? t) : s'.Inside g t ↔ s.Inside g t := by
  rw [Inside, h, Inside]

/-- Whoever queues for a gate is in its line. -/
theorem mem_line_iff (h : Sound s none none) :
    t ∈ s.line (.gate g) ↔ ∃ r, s.stage? t = some (.atGate g r) := by
  constructor
  · intro ht
    obtain ⟨w, hw, rfl⟩ := List.mem_map.1 ht
    have hpl := (h.placed.place_of_mem _ w hw).2
    obtain ⟨st, hst, hp⟩ := Option.bind_eq_some_iff.1 hpl
    cases st with
    | atGate g' r => cases hp; exact ⟨r, hst⟩
    | fresh => cases hp
    | ended o => cases hp
    | inPipe gate p r => cases hp
  · rintro ⟨r, hst⟩
    refine h.placed.mem_of_place t _ (by simp) ?_
    rw [place?, hst]
    rfl

/-- A task that has not come to a gate is behind. -/
theorem behind_of_door (h : Sound s none none) (hd : s.door? t₂ ≠ some g) : s.Behind t₁ t₂ g := by
  refine ⟨fun hin => hd (door?_eq_some.2 (.inl hin)), fun hmem => ?_⟩
  exact absurd (door?_eq_some.2 (.inr ((mem_line_iff h).1 hmem))) hd

/-- Whoever is inside has all others behind. -/
theorem behind_of_inside (h : Sound s none none) (hin : s.Inside g t₁) (hne : t₁ ≠ t₂) :
    s.Behind t₁ t₂ g := by
  refine ⟨fun hin₂ => hne ?_, fun _ => .inl hin⟩
  rw [← holder_iff_inside h] at hin hin₂
  rw [hin] at hin₂
  exact Option.some.inj hin₂

/-- A task that has come to a gate asks for something there. -/
theorem aims_of_door (h : Sound s none none) (hk : s.tasks[t]? = some task)
    (hd : s.door? t = some g) : ∃ q, s.Aims task.call (.gate g) q := by
  have hpur := h.employed.pursues t task hk (by simp)
  rw [door?, stage?_of_task hk, Option.bind_some] at hd
  cases hst : task.stage with
  | fresh => rw [hst] at hd; cases hd
  | ended o => rw [hst] at hd; cases hd
  | atGate g' r =>
    rw [hst] at hd hpur
    cases hd
    obtain ⟨q, -, haim, -⟩ := hpur
    exact ⟨q, haim⟩
  | inPipe gate p r =>
    rw [hst] at hd hpur
    cases hd
    obtain ⟨q, -, haim, -⟩ := hpur
    exact ⟨q, haim⟩

/-- A gate is not open for newcomers while a task that is not to end has it or queues for it. -/
theorem not_isOpen_of_door (h : Sound s none none) (hd : s.door? t = some g)
    (hlive : s.isCancelling t = false) {gate : Gate} (hg : s.gates[g]? = some gate) :
    gate.isOpen = false := by
  rcases door?_eq_some.1 hd with hin | hat
  · have hheld : gate.holder = some t := by
      have hh := (holder_iff_inside h).2 hin
      rwa [holder?, hg, Option.bind_some] at hh
    simp [Gate.isOpen, Gate.isHeld, hheld]
  · obtain ⟨w, hw, rfl⟩ := List.mem_map.1 ((mem_line_iff h).2 hat)
    have hm : w.mark ≠ .cancelled := by
      intro hm
      have hc := h.placed.isCancelling_of_mem _ w hw (by simp [hm])
      rw [hm, hlive] at hc
      cases hc
    rw [waiters_gate hg] at hw
    have hall : (gate.queue.all fun w => w.mark == .cancelled) = false := by
      rw [List.all_eq_false]
      exact ⟨w, hw, by simpa using hm⟩
    rw [Gate.isOpen, hall, Bool.and_false]

/-! ### Coming through a gate -/

/-- An operation that comes through a gate at once finds it open. -/
theorem isOpen_of_opening {op : Operation} {e : Errand} (h : s.opening? op = some e)
    (he : e.gate = some g) : ∃ gate, s.gates[g]? = some gate ∧ gate.isOpen = true := by
  have hat : ∀ b q, s.errandAt? b q = some e → ∃ gate, s.gates[g]? = some gate ∧ gate.isOpen = true := by
    intro b q hb
    cases b with
    | stream n => cases hb
    | pipe p => cases hb; cases he
    | gate g' =>
      obtain ⟨gate, hg, hopen⟩ := Option.bind_eq_some_iff.1 hb
      split at hopen
      · rename_i ho
        cases hopen
        cases he
        exact ⟨gate, hg, ho⟩
      · cases hopen
  cases op with
  | answered o => cases h
  | onPipe p r => cases h; cases he
  | onBacking b q => exact hat b q h
  | onOutlet o q =>
    obtain ⟨x, -, hx⟩ := Option.bind_eq_some_iff.1 h
    split at hx
    · cases hx
    · cases hx
    · obtain ⟨b, -, hb⟩ := Option.bind_eq_some_iff.1 hx
      exact hat b q hb

/-- A task that comes through a gate has its turn, is not to end, and has come to the gate before, or
the gate is open. -/
theorem Touches.cases (h : s.Touches t g) : ∃ rest task, s.ready = .task t :: rest ∧
    s.tasks[t]? = some task ∧ task.cancelling = false ∧
      ((task.stage = .fresh ∧ ∃ gate, s.gates[g]? = some gate ∧ gate.isOpen = true) ∨
        s.door? t = some g) := by
  obtain ⟨v, hv, rfl, hg⟩ := h
  obtain ⟨rest, task, hr, hk, hc, -⟩ := service?_eq_some hv
  refine ⟨rest, task, hr, hk, hc, ?_⟩
  rw [service?_eq hr hk hc, serviceOf?] at hv
  obtain ⟨e, he, hb⟩ := Option.bind_eq_some_iff.1 hv
  obtain ⟨b, -, hveq⟩ := Option.map_eq_some_iff.1 hb
  have hge : e.gate = some g := by
    rw [← hveq] at hg
    exact hg
  rw [door?, stage?_of_task hk, Option.bind_some]
  rw [errand?] at he
  cases hst : task.stage with
  | fresh =>
    rw [hst] at he
    exact .inl ⟨rfl, isOpen_of_opening he hge⟩
  | ended o =>
    rw [hst] at he
    cases he
  | atGate g' r =>
    rw [hst] at he
    obtain ⟨p, -, rfl⟩ := Option.map_eq_some_iff.1 he
    exact .inr hge
  | inPipe gate p r =>
    rw [hst] at he
    cases he
    exact .inr hge

/-- Whoever is behind a task that is not to end does not come through. -/
theorem Behind.not_touches (h : s.Behind t₁ t₂ g) (hs : Sound s none none) (hne : t₁ ≠ t₂)
    (hd : s.door? t₁ = some g) (hlive : s.isCancelling t₁ = false) : ¬ s.Touches t₂ g := by
  intro htouch
  obtain ⟨rest, task, hr, hk, hc, ⟨-, gate, hg, hopen⟩ | hd₂⟩ := htouch.cases
  · rw [not_isOpen_of_door hs hd hlive hg] at hopen
    cases hopen
  · obtain ⟨r, hst⟩ := (door?_eq_some.1 hd₂).resolve_left h.1
    rw [stage?_of_task hk, Option.some.injEq] at hst
    -- whoever was woken at a gate is the first in the queue of a free gate
    obtain ⟨w, hw, rfl, hm⟩ := exists_waiter hs hr hk hst
    obtain ⟨hfree, hhead⟩ := (hs.ordered g).eq_head hw (hm.resolve_right (by simp [hc]))
    rcases h.2 (List.mem_map_of_mem hw) with hin | hsub
    · rw [← holder_iff_inside hs] at hin
      rw [hin] at hfree
      cases hfree
    · obtain ⟨ws, hws⟩ := List.head?_eq_some_iff.1 hhead
      have hnodup := hs.placed.nodup (.gate g)
      rw [line] at hsub
      rw [hws, List.map_cons] at hsub hnodup
      have htail := List.Sublist.of_cons_of_ne hne hsub
      exact (List.nodup_cons.1 hnodup).1 (htail.subset (by simp))

/-! ### Turns and moves -/

/-- An operation that has come to a gate, or comes to it, is answered or stays there. -/
theorem Fate.door (h : Fate s t task task') (hc : task.cancelling = false) {q : Sink.Request}
    (haim : s.Aims task.call (.gate g) q)
    (hans : task.stage ≠ .fresh ∨ s.answer? task.call.operation = none) :
    s.Answers t g ∨ task'.stage.door? = some g := by
  cases h with
  | cancelled entry hcan =>
    rw [hc] at hcan
    cases hcan
  | answered entry d outcome hv hst hop hout hc' hans' =>
    rcases hans with hne | hnone
    · exact absurd hst hne
    · rw [hnone] at hans'
      cases hans'
  | queued entry hv hst haim' =>
    obtain ⟨hg, -⟩ := haim.unique haim'
    cases hg
    exact .inr rfl
  | waits entry hv ht hpur hrep => exact .inr ((hpur.of_aims haim).2.2 g |>.1 rfl)
  | served entry d hv ht hpur hans' =>
    exact .inl ⟨_, _, hv, ht, (hpur.of_aims haim).2.2 g |>.1 rfl, hans'⟩

/-- An operation that is not answered by an outlet comes to its gate. -/
theorem Asks.turn (h : s.Asks t g) (hs : Sound s none none) :
    s.Answers t g ∨ s.turn.door? t = some g := by
  obtain ⟨rest, task, q, hr, hk, hc, hst, haim, hnone⟩ := h
  obtain ⟨task', hk', hf⟩ := (turn_course hs hr hk).fate
  rw [door?, stage?_of_task hk', Option.bind_some]
  exact hf.door hc haim (.inr hnone)

theorem Asks.stage (h : s.Asks t g) : s.stage? t = some .fresh := by
  obtain ⟨rest, task, q, hr, hk, hc, hst, -⟩ := h
  rw [stage?_of_task hk, hst]

theorem Asks.door_ne (h : s.Asks t g) {g' : Nat} : s.door? t ≠ some g' := by
  rw [door?, h.stage]
  simp [Stage.door?]

/-- A task whose stage changes has had its turn. -/
theorem stage?_turn (h : Sound s none none) (hne : ∀ rest, s.ready ≠ .task t :: rest) :
    s.turn.stage? t = s.stage? t := by
  rw [stage?, tasks_turn_of_ne h hne, stage?]

/-- A task at a gate is answered or stays there, unless it is to end. -/
theorem door?_turn (h : Sound s none none) (hd : s.door? t = some g)
    (hlive : s.isCancelling t = false) : s.Answers t g ∨ s.turn.door? t = some g := by
  by_cases hr : ∃ rest, s.ready = .task t :: rest
  · obtain ⟨rest, hr⟩ := hr
    obtain ⟨task, hk, -⟩ := exists_task h hr
    obtain ⟨q, haim⟩ := aims_of_door h hk hd
    obtain ⟨task', hk', hf⟩ := (turn_course h hr hk).fate
    rw [isCancelling, hk] at hlive
    rw [door?, stage?_of_task hk, Option.bind_some] at hd
    rw [door?, stage?_of_task hk', Option.bind_some]
    refine hf.door hlive haim (.inl ?_)
    intro hst
    rw [hst] at hd
    cases hd
  · right
    rw [door?_congr (stage?_turn h fun rest hr' => hr ⟨rest, hr'⟩), hd]

/-- A task that is at a gate after its turn has come through it to wait in the pipe, or has come to it and
queues. -/
theorem Fate.of_door (h : Fate s t task task') (hd : task'.stage.door? = some g) :
    (s.Touches t g ∧ ∃ p r, task'.stage = .inPipe (some g) p r) ∨
      (task.stage = .fresh ∧ ∃ r, task'.stage = .atGate g r) := by
  cases h with
  | cancelled => cases hd
  | answered => rw [Task.door?_after] at hd; cases hd
  | served => rw [Task.door?_after] at hd; cases hd
  | queued entry hv hst haim => cases hd; exact .inr ⟨hst, _, rfl⟩
  | @waits entry v again hv ht hpur hrep =>
    have hg : v.gate = some g := hd
    exact .inl ⟨⟨v, hv, ht, hg⟩, v.place, again, by rw [← hg]⟩

/-- A task that a pipe answers is at no gate after it. -/
theorem Fate.door_of_answer (h : Fate s t task task') {v : Service} {o : Outcome}
    (hv : s.service? = some v) (ho : v.answer? = some o) : task'.stage.door? = none := by
  cases h with
  | cancelled => rfl
  | answered => rw [Task.door?_after]
  | served => rw [Task.door?_after]
  | queued entry hv' => rw [hv] at hv'; cases hv'
  | waits entry hv' ht hpur hrep =>
    rw [hv] at hv'
    cases hv'
    rw [Service.answer?, hrep] at ho
    cases ho

/-- The stage of a task at a gate, after the turn of the task. -/
theorem door?_of_turn (h : Sound s none none) {rest : List Job} (hr : s.ready = .task t :: rest)
    (hd : s.turn.door? t = some g) : (s.Touches t g ∧ s.turn.Inside g t) ∨
      (s.stage? t = some .fresh ∧ ∃ r, s.turn.stage? t = some (.atGate g r)) := by
  obtain ⟨task, hk, -⟩ := exists_task h hr
  obtain ⟨task', hk', hf⟩ := (turn_course h hr hk).fate
  rw [door?, stage?_of_task hk', Option.bind_some] at hd
  rw [Inside, stage?_of_task hk, stage?_of_task hk']
  simp only [Option.some.injEq]
  exact hf.of_door hd

/-- Whoever is behind stays so as long as the task before it is not answered, and not to end. -/
theorem Behind.turn (h : s.Behind t₁ t₂ g) (hs : Sound s none none) (hne : t₁ ≠ t₂)
    (hd : s.door? t₁ = some g) (hlive : s.isCancelling t₁ = false) (hans : ¬ s.Answers t₁ g) :
    s.turn.Behind t₁ t₂ g := by
  have hd' := (door?_turn hs hd hlive).resolve_left hans
  obtain ⟨-, he⟩ | ⟨n, k, rest, -, he⟩ | ⟨u, rest, task, hr, hk, -, hc⟩ := turn_cases hs
  · rw [he]
    exact h
  · rw [he]
    exact h
  · have hline := hc.line (.gate g)
    by_cases hu₁ : u = t₁
    · subst hu₁
      rcases door?_of_turn hs hr hd' with ⟨-, hin⟩ | ⟨hfresh, -⟩
      · exact behind_of_inside hs.turn hin hne
      · rw [door?, hfresh] at hd
        cases hd
    have hst₁ : s.turn.stage? t₁ = s.stage? t₁ := by
      rw [stage?, hc.others (Ne.symm hu₁), stage?]
    by_cases hu₂ : u = t₂
    · -- the task does not come through, so at most it joins the line, at the end
      subst hu₂
      have hnot := h.not_touches hs hne hd hlive
      refine ⟨fun hin => ?_, fun hmem => ?_⟩
      · rcases door?_of_turn hs hr (door?_eq_some.2 (.inl hin)) with ⟨htouch, -⟩ | ⟨-, r, hst⟩
        · exact hnot htouch
        · obtain ⟨p, r', hst'⟩ := hin
          rw [hst] at hst'
          cases hst'
      · rcases door?_eq_some.1 hd with hin | hat
        · exact .inl ((inside_congr hst₁).2 hin)
        · right
          have hmem₁ : t₁ ∈ (s.line (.gate g)).filter (· != u) :=
            List.mem_filter.2 ⟨(mem_line_iff hs).2 hat, by simpa using hne⟩
          rw [hline] at hmem ⊢
          split at hmem
          · rename_i hpl
            rw [if_pos hpl]
            exact (List.singleton_sublist.2 hmem₁).append (List.Sublist.refl [u])
          · simp at hmem
    · have hst₂ : s.turn.stage? t₂ = s.stage? t₂ := by
        rw [stage?, hc.others (Ne.symm hu₂), stage?]
      refine ⟨fun hin => h.1 ((inside_congr hst₂).1 hin), fun hmem => ?_⟩
      rw [mem_line_iff hs.turn, hst₂, ← mem_line_iff hs] at hmem
      rcases h.2 hmem with hin | hsub
      · exact .inl ((inside_congr hst₁).2 hin)
      · right
        have hf := hsub.filter (· != u)
        rw [List.filter_eq_self.2 (by simp [Ne.symm hu₁, Ne.symm hu₂])] at hf
        rw [hline]
        exact hf.trans (List.sublist_append_left ..)

/-- What is done from outside changes the stage of no task. -/
theorem stage?_move (hm : Move s s') (hs : Sound s none none) (hst : s.stage? t ≠ none) :
    s'.stage? t = s.stage? t := by
  cases hk : s.tasks[t]? with
  | none =>
    rw [stage?, hk] at hst
    exact absurd rfl hst
  | some task =>
    obtain ⟨hlt, -⟩ := List.getElem?_eq_some_iff.1 hk
    have hlt' := Nat.lt_of_lt_of_le hlt (hm.length_le hs)
    have hk' := List.getElem?_eq_getElem hlt'
    rcases hm.task hs hk' with ⟨task₀, hk₀, -, he, -⟩ | ⟨hnone, -⟩
    · rw [hk] at hk₀
      cases hk₀
      rw [stage?_of_task hk', stage?_of_task hk, he]
    · rw [hk] at hnone
      cases hnone

theorem door?_move (hm : Move s s') (hs : Sound s none none) (hd : s.door? t = some g) :
    s'.door? t = some g := by
  rw [door?_congr (stage?_move hm hs ?_), hd]
  intro hst
  rw [door?, hst] at hd
  cases hd

/-- A task that is not there before is not inside after. -/
theorem inside_move (hm : Move s s') (hs : Sound s none none) : s'.Inside g t ↔ s.Inside g t := by
  by_cases hst : s.stage? t = none
  · refine ⟨fun ⟨p, r, hst'⟩ => ?_, fun ⟨p, r, hst'⟩ => ?_⟩
    · obtain ⟨task', hk', he⟩ := Option.map_eq_some_iff.1 hst'
      rcases hm.task hs hk' with ⟨task₀, hk₀, -⟩ | ⟨-, hfresh⟩
      · rw [stage?_of_task hk₀] at hst
        cases hst
      · rw [hfresh] at he
        cases he
    · rw [hst] at hst'
      cases hst'
  · exact inside_congr (stage?_move hm hs hst)

/-- Nothing that is done from outside brings anybody forward. -/
theorem Behind.move (h : s.Behind t₁ t₂ g) (hs : Sound s none none) (hm : Move s s') :
    s'.Behind t₁ t₂ g := by
  rw [Behind, inside_move hm hs, inside_move hm hs, hm.line hs]
  exact h

/-! ### Runs -/

/-- An operation at a gate stays there until it is answered, or is to end. -/
theorem Run.door (h : Run s₀ past s) (hs : Sound s₀ none none) (hd : s₀.door? t = some g) :
    AnsweredIn past t g ∨ s.isCancelling t = true ∨ s.door? t = some g := by
  induction h with
  | refl => exact .inr (.inr hd)
  | @turn past s h ih =>
    have hsound := hs.run h
    rw [cancelling_turn hsound]
    rcases ih with hans | hcan | hd
    · exact .inl (hans.mono (List.subset_append_left ..))
    · exact .inr (.inl hcan)
    · cases hc : s.isCancelling t with
      | true => exact .inr (.inl rfl)
      | false =>
        rcases door?_turn hsound hd hc with hans | hd'
        · exact .inl ⟨s, by simp, hans⟩
        · exact .inr (.inr hd')
  | @move past s s' h hm ih =>
    have hsound := hs.run h
    rcases ih with hans | hcan | hd
    · exact .inl hans
    · exact .inr (.inl (hm.cancelling hsound hcan))
    · exact .inr (.inr (door?_move hm hsound hd))

/-- Whoever is behind an operation at a gate stays so until that is answered, or is to end. -/
theorem Run.behind (h : Run s₀ past s) (hs : Sound s₀ none none) (hne : t₁ ≠ t₂)
    (hd : s₀.door? t₁ = some g) (hb : s₀.Behind t₁ t₂ g) :
    AnsweredIn past t₁ g ∨ s.isCancelling t₁ = true ∨
      (s.door? t₁ = some g ∧ s.Behind t₁ t₂ g) := by
  induction h with
  | refl => exact .inr (.inr ⟨hd, hb⟩)
  | @turn past s h ih =>
    have hsound := hs.run h
    rw [cancelling_turn hsound]
    rcases ih with hans | hcan | ⟨hd, hb⟩
    · exact .inl (hans.mono (List.subset_append_left ..))
    · exact .inr (.inl hcan)
    · cases hc : s.isCancelling t₁ with
      | true => exact .inr (.inl rfl)
      | false =>
        by_cases hans : s.Answers t₁ g
        · exact .inl ⟨s, by simp, hans⟩
        · exact .inr (.inr ⟨(door?_turn hsound hd hc).resolve_left hans,
            hb.turn hsound hne hd hc hans⟩)
  | @move past s s' h hm ih =>
    have hsound := hs.run h
    rcases ih with hans | hcan | ⟨hd, hb⟩
    · exact .inl hans
    · exact .inr (.inl (hm.cancelling hsound hcan))
    · exact .inr (.inr ⟨door?_move hm hsound hd, hb.move hsound hm⟩)

/-- Whoever is behind an operation at a gate does not touch the pipe before that is answered, or is to
end. -/
theorem Run.answered_before (h : Run s₀ past s) (hs : Sound s₀ none none) (hne : t₁ ≠ t₂)
    (hd : s₀.door? t₁ = some g) (hb : s₀.Behind t₁ t₂ g) (ht : s.Touches t₂ g) :
    AnsweredIn past t₁ g ∨ s.isCancelling t₁ = true := by
  rcases h.behind hs hne hd hb with hans | hcan | ⟨hd', hb'⟩
  · exact .inl hans
  · exact .inr hcan
  · cases hc : s.isCancelling t₁ with
    | true => exact .inr rfl
    | false => exact absurd ht (hb'.not_touches (hs.run h) hne hd' hc)

/-- Of two operations that come to a gate, the first is answered before the second touches the pipe. -/
theorem Run.answered_of_asks {u₁ u₂ : Session} (h : Run u₁.turn past s) (hs : Sound u₁ none none)
    (h₁ : u₁.Asks t₁ g) (hu₂ : u₂ ∈ past ++ [s]) (h₂ : u₂.Asks t₂ g) (ht : s.Touches t₂ g) :
    AnsweredIn (u₁ :: past) t₁ g ∨ s.isCancelling t₁ = true := by
  rcases h₁.turn hs with hans | hd
  · exact .inl ⟨u₁, List.mem_cons_self, hans⟩
  · obtain ⟨us, vs, rfl, hus, hvs⟩ := h.through hu₂
    have hs₂ := hs.turn.run hus
    rcases hus.door hs.turn hd with hans | hcan | hd
    · exact .inl (hans.mono (by simp))
    · exact .inr (hvs.cancelling hs₂ hcan)
    · -- the second has only just come, and so is behind
      have hne : t₁ ≠ t₂ := by
        rintro rfl
        exact h₂.door_ne hd
      rcases hvs.answered_before hs₂ hne hd (behind_of_door hs₂ h₂.door_ne) ht with hans | hcan
      · exact .inl (hans.mono (by simp))
      · exact .inr hcan

/-- An operation that is answered is followed, at its gate, by those that queued there. -/
theorem Run.answered_of_answers {u : Session} (h : Run u.turn past s) (hs : Sound u none none)
    (hans : u.Answers t₂ g) (hne : t₁ ≠ t₂) (hd : u.door? t₁ = some g) (ht : s.Touches t₂ g) :
    AnsweredIn past t₁ g ∨ s.isCancelling t₁ = true := by
  obtain ⟨v, o, hv, rfl, hg, ho⟩ := hans
  obtain ⟨rest, task, hr, hk, -⟩ := service?_eq_some hv
  obtain ⟨task', hk', hf⟩ := (turn_course hs hr hk).fate
  have hd₁ : u.turn.door? t₁ = some g := by
    rw [door?_congr, hd]
    rw [stage?, (turn_course hs hr hk).others hne, stage?]
  have hd₂ : u.turn.door? v.task ≠ some g := by
    rw [door?, stage?_of_task hk', Option.bind_some, hf.door_of_answer hv ho]
    simp
  exact h.answered_before hs.turn hne hd₁ (behind_of_door hs.turn hd₂) ht

theorem Answers.touches (h : s.Answers t g) : s.Touches t g := by
  obtain ⟨v, o, hv, ht, hg, -⟩ := h
  exact ⟨v, hv, ht, hg⟩

/-- Whoever comes to a gate at which another task is goes to the end of its line. -/
theorem Asks.line (h : s.Asks t₂ g) (hs : Sound s none none) (hd : s.door? t₁ = some g)
    (hlive : s.isCancelling t₁ = false) :
    s.turn.line (.gate g) = s.line (.gate g) ++ [t₂] := by
  have hne : t₁ ≠ t₂ := by
    rintro rfl
    exact h.door_ne hd
  have hnot := (behind_of_door hs h.door_ne).not_touches hs hne hd hlive
  have hd' := (h.turn hs).resolve_left fun hans => hnot hans.touches
  obtain ⟨rest, task, q, hr, hk, -⟩ := id h
  obtain ⟨-, r, hst⟩ := (door?_of_turn hs hr hd').resolve_left fun hin => hnot hin.1
  have hout : t₂ ∉ s.line (.gate g) := by
    rw [mem_line_iff hs, h.stage]
    simp
  have hkeep : (s.line (.gate g)).filter (· != t₂) = s.line (.gate g) := by
    rw [List.filter_eq_self]
    intro u hu
    have hne : u ≠ t₂ := by
      rintro rfl
      exact hout hu
    simpa using hne
  have hpl : s.turn.place? t₂ = some (.gate g) := place?_of_stage hst
  rw [(turn_course hs hr hk).line (.gate g), hkeep, if_pos hpl]

/-! ### Calls begin in the order in which they were made -/

/-- A task has a call of one operation. -/
def SingleCall (s : Session) (t : Nat) : Prop :=
  ∃ task, s.tasks[t]? = some task ∧ task.call.isSingle = true

/-- If the task `t₁` has not begun, nor has `t₂`, and `t₁` is to run before it. -/
def BeginsFirst (s : Session) (t₁ t₂ : Nat) : Prop :=
  s.SingleCall t₁ → s.SingleCall t₂ → s.stage? t₁ = some .fresh →
    s.stage? t₂ = some .fresh ∧ [Job.task t₁, Job.task t₂].Sublist s.ready

/-- A task with a call of one operation had it before its turn. -/
theorem SingleCall.of_turn (h : s.turn.SingleCall t) (hs : Sound s none none) : s.SingleCall t := by
  obtain ⟨task', hk', hc⟩ := h
  obtain ⟨task, hk⟩ := task_before_turn hs hk'
  rcases task_turn hs hk with ⟨rest, task'', -, hk'', hf⟩ | ⟨hk'', -⟩
  · rw [hk'] at hk''
    cases hk''
    rw [hf.call hc] at hc
    exact ⟨task, hk, hc⟩
  · rw [hk'] at hk''
    cases hk''
    exact ⟨_, hk, hc⟩

/-- A task with a call of one operation that has begun does not begin anew. -/
theorem Fate.not_fresh (h : Fate s t task task') (hc : task'.call.isSingle = true) :
    task'.stage ≠ .fresh := by
  have hc₀ := hc
  rw [h.call hc] at hc₀
  have hafter : ∀ (entry d : Destination) (outcome : Outcome),
      (Task.after { task with entry } d outcome).stage ≠ .fresh := by
    intro entry d outcome
    rw [Task.after_of_isSingle (show ({ task with entry } : Task).call.isSingle = true from hc₀)]
    simp
  cases h with
  | cancelled => simp
  | queued => simp
  | waits => simp
  | answered => exact hafter _ _ _
  | served => exact hafter _ _ _

/-- A task with a call of one operation had it before a move, if it was there. -/
theorem SingleCall.of_move (h : s'.SingleCall t) (hm : Move s s') (hs : Sound s none none)
    (hst : s.stage? t ≠ none) : s.SingleCall t := by
  obtain ⟨task', hk', hc⟩ := h
  rcases hm.task hs hk' with ⟨task, hk, hcall, -⟩ | ⟨hnone, -⟩
  · exact ⟨task, hk, by rwa [← hcall]⟩
  · rw [stage?, hnone] at hst
    exact absurd rfl hst

/-- Whoever has the turn is behind nobody in the ready queue. -/
theorem ready_ne_of_order (h : Sound s none none) {rest : List Job}
    (hsub : [Job.task t₁, Job.task t₂].Sublist s.ready) (hne : t₁ ≠ t₂) :
    s.ready ≠ .task t₂ :: rest := by
  intro hr
  have hle := h.placed.turnsOf_le t₂
  rw [hr] at hsub
  have hmem : Job.task t₂ ∈ rest :=
    (List.Sublist.of_cons_of_ne (by simpa using hne) hsub).subset (by simp)
  rw [turnsOf, hr, List.count_cons_self] at hle
  have hpos := List.count_pos_iff.2 hmem
  omega

theorem BeginsFirst.turn (h : s.BeginsFirst t₁ t₂) (hs : Sound s none none) (hne : t₁ ≠ t₂) :
    s.turn.BeginsFirst t₁ t₂ := by
  intro hc₁ hc₂ hf
  obtain ⟨-, he⟩ | ⟨n, k, rest, hr, he⟩ | ⟨u, rest, task, hr, hk, -, hc⟩ := turn_cases hs
  · rw [he] at hc₁ hc₂ hf ⊢
    exact h hc₁ hc₂ hf
  · rw [he] at hf ⊢
    obtain ⟨hf₂, hsub⟩ := h (hc₁.of_turn hs) (hc₂.of_turn hs) hf
    rw [hr] at hsub
    exact ⟨hf₂, List.Sublist.of_cons_of_ne (by simp) hsub⟩
  · -- the task itself cannot begin anew
    have hu₁ : t₁ ≠ u := by
      rintro rfl
      obtain ⟨task', hk', hfate⟩ := hc.fate
      obtain ⟨task'', hk'', hsingle⟩ := hc₁
      rw [hk'] at hk''
      cases hk''
      rw [stage?_of_task hk', Option.some.injEq] at hf
      exact hfate.not_fresh hsingle hf
    rw [stage?, hc.others hu₁] at hf
    obtain ⟨hf₂, hsub⟩ := h (hc₁.of_turn hs) (hc₂.of_turn hs) hf
    have hu₂ : t₂ ≠ u := by
      rintro rfl
      exact ready_ne_of_order hs hsub hne hr
    rw [hr] at hsub
    have hrest := List.Sublist.of_cons_of_ne (by simpa using hu₁) hsub
    obtain ⟨ts, ns, hready, -⟩ := hc.ready hr
    refine ⟨by rw [stage?, hc.others hu₂]; exact hf₂, ?_⟩
    rw [hready, List.append_assoc, List.append_assoc]
    exact (hrest.trans (List.sublist_append_left ..)).trans (List.sublist_append_right ..)

theorem BeginsFirst.move (h : s.BeginsFirst t₁ t₂) (hs : Sound s none none) (hlt : t₁ < t₂)
    (hm : Move s s') : s'.BeginsFirst t₁ t₂ := by
  intro hc₁ hc₂ hf
  obtain ⟨js, hready⟩ := hm.ready hs
  have hthere : ∀ {u}, s'.SingleCall u → u < s.tasks.length + 1 := by
    intro u hu
    obtain ⟨task, hk, -⟩ := hu
    obtain ⟨hlt, -⟩ := List.getElem?_eq_some_iff.1 hk
    exact Nat.lt_of_lt_of_le hlt (hm.length_le_succ hs)
  have hst₁ : s.stage? t₁ ≠ none := by
    have hlt₁ : t₁ < s.tasks.length := by
      have h₂ := hthere hc₂
      omega
    rw [stage?_of_task (List.getElem?_eq_getElem hlt₁)]
    simp
  rw [stage?_move hm hs hst₁] at hf
  by_cases hst₂ : s.stage? t₂ = none
  · -- a new task is the last
    obtain ⟨task, hk, -⟩ := hc₂
    rcases hm.task hs hk with ⟨task₀, hk₀, -⟩ | ⟨hnone, hfresh⟩
    · rw [stage?_of_task hk₀] at hst₂
      cases hst₂
    · have hf₂ : s'.stage? t₂ = some .fresh := by rw [stage?_of_task hk, hfresh]
      refine ⟨hf₂, ?_⟩
      have hmem := mem_ready_of_fresh (hs.move hm) hf₂
      rw [hready] at hmem ⊢
      rcases List.mem_append.1 hmem with hold | hnew
      · obtain ⟨task₀, hk₀, -⟩ := exists_task_of_mem hs hold
        rw [hnone] at hk₀
        cases hk₀
      · exact (List.singleton_sublist.2 (mem_ready_of_fresh hs hf)).append
          (List.singleton_sublist.2 hnew)
  · obtain ⟨hf₂, hsub⟩ := h (hc₁.of_move hm hs hst₁) (hc₂.of_move hm hs hst₂) hf
    rw [hready, stage?_move hm hs hst₂]
    exact ⟨hf₂, hsub.trans (List.sublist_append_left ..)⟩

/-- If the task `t₁` is at a gate, and is not to end, then `t₂` is behind. -/
def InOrder (s : Session) (t₁ t₂ g : Nat) : Prop :=
  s.SingleCall t₁ → s.SingleCall t₂ → s.door? t₁ = some g → s.isCancelling t₁ = false →
    s.Behind t₁ t₂ g

theorem door?_of_fresh (hst : s.stage? t = some .fresh) : s.door? t ≠ some g := by
  rw [door?, hst]
  simp [Stage.door?]

theorem InOrder.turn (h : s.InOrder t₁ t₂ g) (hb : s.BeginsFirst t₁ t₂) (hs : Sound s none none)
    (hne : t₁ ≠ t₂) : s.turn.InOrder t₁ t₂ g := by
  intro hc₁ hc₂ hd hlive
  rw [cancelling_turn hs] at hlive
  by_cases hr : ∃ rest, s.ready = .task t₁ :: rest
  · obtain ⟨rest, hr⟩ := hr
    rcases door?_of_turn hs hr hd with ⟨-, hin⟩ | ⟨hfresh, -⟩
    · exact behind_of_inside hs.turn hin hne
    · -- the task has only just begun, so the other has not
      obtain ⟨hf₂, -⟩ := hb (hc₁.of_turn hs) (hc₂.of_turn hs) hfresh
      refine behind_of_door hs.turn (door?_of_fresh ?_)
      rw [stage?_turn hs fun rest' hr' => ?_, hf₂]
      rw [hr] at hr'
      cases hr'
      exact hne rfl
  · have hst := stage?_turn hs fun rest hr' => hr ⟨rest, hr'⟩
    rw [door?_congr hst] at hd
    refine (h (hc₁.of_turn hs) (hc₂.of_turn hs) hd hlive).turn hs hne hd hlive fun hans => ?_
    obtain ⟨rest, task, hr', -⟩ := hans.touches.cases
    exact hr ⟨rest, hr'⟩

theorem InOrder.move (h : s.InOrder t₁ t₂ g) (hs : Sound s none none) (hm : Move s s') :
    s'.InOrder t₁ t₂ g := by
  intro hc₁ hc₂ hd hlive
  -- a task that the move makes has not begun
  have hnew : ∀ {u}, s'.SingleCall u → s.stage? u = none → s'.stage? u = some .fresh := by
    intro u hu hst
    obtain ⟨task, hk, -⟩ := hu
    rcases hm.task hs hk with ⟨task₀, hk₀, -⟩ | ⟨-, hfresh⟩
    · rw [stage?_of_task hk₀] at hst
      cases hst
    · rw [stage?_of_task hk, hfresh]
  by_cases hst₁ : s.stage? t₁ = none
  · exact absurd hd (door?_of_fresh (hnew hc₁ hst₁))
  by_cases hst₂ : s.stage? t₂ = none
  · exact behind_of_door (hs.move hm) (door?_of_fresh (hnew hc₂ hst₂))
  · rw [door?_congr (stage?_move hm hs hst₁)] at hd
    have hlive₀ : s.isCancelling t₁ = false := by
      rw [Bool.eq_false_iff] at hlive ⊢
      exact fun hc => hlive (hm.cancelling hs hc)
    exact (h (hc₁.of_move hm hs hst₁) (hc₂.of_move hm hs hst₂) hd hlive₀).move hs hm

/-- On a run calls of one operation begin, and come to a gate, in the order in which they were made. -/
theorem Run.inOrder {out err : Stream.Traits} (h : Run (start out err) past s) (hlt : t₁ < t₂) :
    s.BeginsFirst t₁ t₂ ∧ s.InOrder t₁ t₂ g := by
  have hne := Nat.ne_of_lt hlt
  induction h with
  | refl =>
    refine ⟨fun hc => ?_, fun hc => ?_⟩ <;>
    · obtain ⟨task, hk, -⟩ := hc
      cases hk
  | turn h ih =>
    have hs := (sound_start out err).run h
    exact ⟨ih.1.turn hs hne, ih.2.turn ih.1 hs hne⟩
  | move h hm ih =>
    have hs := (sound_start out err).run h
    exact ⟨ih.1.move hs hlt hm, ih.2.move hs hm⟩

/-- A task with a call of one operation does not come to a gate any more. -/
def Passed (s : Session) (t g : Nat) : Prop :=
  s.stage? t ≠ some .fresh ∧ (s.door? t = some g → s.isCancelling t = true)

theorem Passed.not_touches (h : s.Passed t g) : ¬ s.Touches t g := by
  intro ht
  obtain ⟨rest, task, -, hk, hc, ⟨hst, -⟩ | hd⟩ := ht.cases
  · exact h.1 (by rw [stage?_of_task hk, hst])
  · have hcan := h.2 hd
    rw [isCancelling, hk, Option.map_some, Option.getD_some, hc] at hcan
    cases hcan

/-- When a later call touches the pipe, an earlier one does not any more. -/
theorem Passed.of_touches (hb : s.BeginsFirst t₁ t₂) (ho : s.InOrder t₁ t₂ g)
    (hs : Sound s none none) (hne : t₁ ≠ t₂) (hc₁ : s.SingleCall t₁) (hc₂ : s.SingleCall t₂)
    (ht : s.Touches t₂ g) : s.Passed t₁ g := by
  refine ⟨fun hf => ?_, fun hd => ?_⟩
  · obtain ⟨-, hsub⟩ := hb hc₁ hc₂ hf
    obtain ⟨rest, task, hr, -⟩ := ht.cases
    exact ready_ne_of_order hs hsub hne hr
  · cases hlive : s.isCancelling t₁ with
    | true => rfl
    | false => exact absurd ht ((ho hc₁ hc₂ hd hlive).not_touches hs hne hd hlive)

theorem Passed.turn (h : s.Passed t g) (hs : Sound s none none) (hc : s.turn.SingleCall t) :
    s.turn.Passed t g := by
  by_cases hr : ∃ rest, s.ready = .task t :: rest
  · obtain ⟨rest, hr⟩ := hr
    refine ⟨fun hf => ?_, fun hd => ?_⟩
    · obtain ⟨task, hk, -⟩ := exists_task hs hr
      obtain ⟨task', hk', hfate⟩ := (turn_course hs hr hk).fate
      obtain ⟨task'', hk'', hsingle⟩ := hc
      rw [hk'] at hk''
      cases hk''
      rw [stage?_of_task hk', Option.some.injEq] at hf
      exact hfate.not_fresh hsingle hf
    · rcases door?_of_turn hs hr hd with ⟨ht, -⟩ | ⟨hf, -⟩
      · exact absurd ht h.not_touches
      · exact absurd hf h.1
  · have hst := stage?_turn hs fun rest hr' => hr ⟨rest, hr'⟩
    rw [Passed, hst, door?_congr hst, cancelling_turn hs]
    exact h

theorem Passed.move (h : s.Passed t g) (hs : Sound s none none) (hm : Move s s')
    (hst : s.stage? t ≠ none) : s'.Passed t g := by
  rw [Passed, stage?_move hm hs hst, door?_congr (stage?_move hm hs hst)]
  exact ⟨h.1, fun hd => hm.cancelling hs (h.2 hd)⟩

/-- Once a later call of one operation has touched the pipe, an earlier one does not any more. -/
theorem Run.passed {out err : Stream.Traits} (h : Run (start out err) past s) (hlt : t₁ < t₂)
    (hc₁ : s.SingleCall t₁) (hc₂ : s.SingleCall t₂) {u : Session} (hu : u ∈ past)
    (ht : u.Touches t₂ g) : s.Passed t₁ g := by
  have hne := Nat.ne_of_lt hlt
  induction h with
  | refl => cases hu
  | @turn past s h ih =>
    have hs := (sound_start out err).run h
    have hc₁' := hc₁.of_turn hs
    have hc₂' := hc₂.of_turn hs
    obtain ⟨hb, ho⟩ := h.inOrder (g := g) hlt
    refine Passed.turn ?_ hs hc₁
    rcases List.mem_append.1 hu with hu | hu
    · exact ih hc₁' hc₂' hu
    · rw [List.mem_singleton.1 hu] at ht
      exact .of_touches hb ho hs hne hc₁' hc₂' ht
  | @move past s s' h hm ih =>
    have hs := (sound_start out err).run h
    -- a task that has had its turn is there
    have hlt₂ : t₂ < s.tasks.length := by
      obtain ⟨us, vs, -, hus, hvs⟩ := h.through (List.mem_append_left _ hu)
      obtain ⟨rest, task, -, hk, -⟩ := ht.cases
      obtain ⟨hlt, -⟩ := List.getElem?_eq_some_iff.1 hk
      exact Nat.lt_of_lt_of_le hlt (hvs.length_le ((sound_start out err).run hus))
    have hthere : ∀ u < s.tasks.length, s.stage? u ≠ none := by
      intro u hu
      rw [stage?_of_task (List.getElem?_eq_getElem hu)]
      simp
    have hst₁ := hthere t₁ (Nat.lt_trans hlt hlt₂)
    exact (ih (hc₁.of_move hm hs hst₁) (hc₂.of_move hm hs (hthere t₂ hlt₂)) hu).move hs hm hst₁

/-! ### The whole statement -/

/-- On every run, whoever is cancelled, and whatever else is done: of two operations that come to a gate
the first is answered before the second touches the pipe, unless it is to end.  So calls of one operation
touch the pipe in the order in which they were made.  And whoever was answered while another task is at
the gate, does not touch the pipe again before that task is answered; if it comes to the gate again it
queues behind all others. -/
theorem first_come_first_served {out err : Stream.Traits} (h : Run (start out err) past s) (g : Nat) :
    (∀ us u₁ vs u₂ t₁ t₂, past = us ++ u₁ :: vs → u₁.Asks t₁ g → u₂ ∈ vs ++ [s] → u₂.Asks t₂ g →
        s.Touches t₂ g → AnsweredIn (u₁ :: vs) t₁ g ∨ s.isCancelling t₁ = true) ∧
      (∀ u t₁ t₂, u ∈ past → t₁ < t₂ → s.SingleCall t₁ → s.SingleCall t₂ → u.Touches t₂ g →
        ¬ s.Touches t₁ g) ∧
      (∀ us u vs t₁ t₂, past = us ++ u :: vs → u.Answers t₂ g → u.door? t₁ = some g → t₁ ≠ t₂ →
        s.Touches t₂ g → AnsweredIn vs t₁ g ∨ s.isCancelling t₁ = true) ∧
      (∀ t₁ t₂, s.Asks t₂ g → s.door? t₁ = some g → s.isCancelling t₁ = false →
        s.turn.line (.gate g) = s.line (.gate g) ++ [t₂]) := by
  have hs₀ := sound_start out err
  refine ⟨?_, ?_, ?_, ?_⟩
  · rintro us u₁ vs u₂ t₁ t₂ rfl h₁ hu₂ h₂ ht
    obtain ⟨hus, hvs⟩ := h.split rfl
    exact hvs.answered_of_asks (hs₀.run hus) h₁ hu₂ h₂ ht
  · intro u t₁ t₂ hu hlt hc₁ hc₂ ht
    exact (h.passed hlt hc₁ hc₂ hu ht).not_touches
  · rintro us u vs t₁ t₂ rfl hans hd hne ht
    obtain ⟨hus, hvs⟩ := h.split rfl
    exact hvs.answered_of_answers (hs₀.run hus) hans hne hd ht
  · intro t₁ t₂ h₂ hd hlive
    exact h₂.line (hs₀.run h) hd hlive

/-- The second and the third task come to the contended gate one after the other; when the third is to touch
the pipe, the second was answered. -/
theorem handedOver_in_order : threeWriters.turn.Asks 1 0 ∧ threeWriters.turn.turn.Asks 2 0 ∧
    handedOver.Touches 2 0 ∧ AnsweredIn [threeWriters.turn, threeWriters.turn.turn, contendedRead,
      contendedRead.turn] 1 0 ∧ ¬ handedOver.Touches 1 0 := by
  have h₁ : threeWriters.turn.Asks 1 0 := ⟨_, _, .write [2], rfl, rfl, rfl, rfl, .inl rfl, rfl⟩
  have h₂ : threeWriters.turn.turn.Asks 2 0 := ⟨_, _, .write [3], rfl, rfl, rfl, rfl, .inl rfl, rfl⟩
  have ht : handedOver.Touches 2 0 := ⟨_, rfl, rfl, rfl⟩
  obtain ⟨hall, -⟩ := first_come_first_served run_handedOver 0
  have hans := hall [threeWriters] _ _ _ 1 2 rfl h₁ (List.mem_cons_self ..) h₂ ht
  refine ⟨h₁, h₂, ht, hans.resolve_right (by simp [show handedOver.isCancelling 1 = false from rfl]), ?_⟩
  rintro ⟨v, hv, htask, -⟩
  cases hv
  cases htask

end Session

end Outflow
