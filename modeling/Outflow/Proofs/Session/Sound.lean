import Outflow.Proofs.Pipe
import Outflow.Proofs.Session.Placement
import Outflow.Proofs.Session.Run

/-!
# Sound sessions

What holds of every session that a run leads to, and, with one task exempt, in the middle of that
task's turn.

* `Session.Housed`: the members: gates and outlets stand before what is there, and pipes are valid;
* `Session.Aims`, `Session.Pursues`, `Session.Employed`: the tasks: the request with which a task
  waits is the one that the present operation of its call comes to;
* `Session.Guarded`: a gate is held exactly by the task that is in the pipe through it;
* `Session.Ordered`: the queues of the gates are orderly;
* `Session.Refused`: whoever is parked at a pipe has a request that the pipe refuses;
* `Session.Consistent`, `Session.Sound`: all this, without and with the queues of the gates, and every
  task is where it should be.

Each part of a turn keeps a session sound; only between leaving the queue of a gate and taking the gate,
or waking the next, the queue is not in order.
-/

namespace Outflow.Session

variable {s s' : Session} {busy held : Option Nat} {t g p : Nat}

/-- The members of a session are in order. -/
structure Housed (s : Session) : Prop where
  gatePipe : ∀ g p, s.gatePipe? g = some p → s.Has (.pipe p)
  backing : ∀ x ∈ s.outlets, ∀ b, x.backing = some b → s.Has b ∧ x.destination ≠ .null
  valid : ∀ p b, s.pipe? p = some b → b.Valid

/-- Whether the present operation of a call asks a backing for something. -/
def Aims (s : Session) (c : Call) (b : Backing) (q : Sink.Request) : Prop :=
  c.operation = .onBacking b q ∨
    ∃ o x, c.operation = .onOutlet o q ∧ s.outlets[o]? = some x ∧ x.backing = some b

/-- Whether a backing is the write end of a pipe, or a gate before it. -/
def LeadsTo (s : Session) (b : Backing) (p : Nat) : Prop :=
  b = .pipe p ∨ ∃ g, b = .gate g ∧ s.gatePipe? g = some p

/-- Whether a request of a pipe's read end is what `r₀` comes to: reading to the end goes on with what
it has got. -/
def Continues (r₀ r : Pipe.Request) : Prop :=
  r = r₀ ∨ ∃ got got', r₀ = .drain got ∧ r = .drain got'

/-- Whether the stage of a task fits the present operation of its call. -/
def Pursues (s : Session) (c : Call) : Stage → Prop
  | .fresh | .ended _ => True
  | .atGate g r => ∃ q, r = .ofSink q ∧ s.Aims c (.gate g) q ∧ s.Has (.gate g)
  | .inPipe (some g) p r => ∃ q, r = .ofSink q ∧ s.Aims c (.gate g) q ∧ s.gatePipe? g = some p
  | .inPipe none p r => s.Has (.pipe p) ∧ ((∃ q, r = .ofSink q ∧ s.Aims c (.pipe p) q) ∨
      ∃ r₀, c.operation = .onPipe p r₀ ∧ Continues r₀ r)

/-- The calls of a session name what is there, and the tasks do what their calls say. -/
structure Employed (s : Session) (busy : Option Nat) : Prop where
  fits : ∀ (t : Nat) task, s.tasks[t]? = some task → s.Fits task.call
  pursues : ∀ (t : Nat) task, s.tasks[t]? = some task → busy ≠ some t →
    s.Pursues task.call task.stage

/-- The gate that a task has; the task `busy` has the gate `held`. -/
def gateOf (s : Session) (busy held : Option Nat) (u : Nat) : Option Nat :=
  if busy = some u then held else (s.stage? u).bind Stage.gate?

/-- A gate is held by the task that has it. -/
def Guarded (s : Session) (busy held : Option Nat) : Prop :=
  ∀ g u, s.holder? g = some u ↔ s.gateOf busy held u = some g

/-- The queues of the gates are orderly. -/
def Ordered (s : Session) : Prop :=
  ∀ g, Waiter.Orderly (s.holder? g).isSome (s.waiters (.gate g))

/-- Whoever is parked at a pipe has a request that the pipe refuses. -/
def Refused (s : Session) : Prop :=
  ∀ p, ∀ w ∈ s.waiters (.pipe p), w.mark = .parked → ∃ gate r b,
    s.stage? w.task = some (.inPipe gate p r) ∧ s.pipe? p = some b ∧ b.admits r = false

/-- What holds of a session, but for the queues of its gates, in the middle of the turn of `busy`, which
has the gate `held`. -/
structure Consistent (s : Session) (busy held : Option Nat) : Prop where
  placed : Placed s busy
  guarded : Guarded s busy held
  refused : Refused s
  housed : Housed s
  employed : Employed s busy

/-- What holds of a session in the middle of the turn of `busy`, which has the gate `held`; between
turns nobody is busy. -/
structure Sound (s : Session) (busy held : Option Nat) : Prop extends Consistent s busy held where
  ordered : Ordered s

/-! ### Members and tasks -/

theorem Extends.aims (h : Extends s s') {c : Call} {b : Backing} {q : Sink.Request}
    (hc : s.Aims c b q) : s'.Aims c b q := by
  rcases hc with hc | ⟨o, x, hc, hx, hb⟩
  · exact .inl hc
  · obtain ⟨x', hx', hb'⟩ := h.outlet o x hx
    exact .inr ⟨o, x', hc, hx', hb'.trans hb⟩

theorem Extends.pursues (h : Extends s s') {c : Call} {st : Stage} (hc : s.Pursues c st) :
    s'.Pursues c st := by
  cases st with
  | fresh => trivial
  | ended outcome => trivial
  | atGate g r =>
    obtain ⟨q, hr, ha, hg⟩ := hc
    exact ⟨q, hr, h.aims ha, h.has (b := .gate g) hg⟩
  | inPipe gate p r =>
    cases gate with
    | none =>
      obtain ⟨hp, hq⟩ := hc
      refine ⟨h.has (b := .pipe p) hp, ?_⟩
      rcases hq with ⟨q, hr, ha⟩ | hq
      · exact .inl ⟨q, hr, h.aims ha⟩
      · exact .inr hq
    | some g =>
      obtain ⟨q, hr, ha, hg⟩ := hc
      exact ⟨q, hr, h.aims ha, h.gatePipe g p hg⟩

/-- No task does anything new. -/
theorem Employed.congr (h : Employed s busy) (he : Extends s s') (ht : s'.tasks = s.tasks) :
    Employed s' busy :=
  ⟨fun t task hk => he.fits (h.fits t task (ht ▸ hk)),
    fun t task hk hb => he.pursues (h.pursues t task (ht ▸ hk) hb)⟩

/-- A task may be exempt. -/
theorem Employed.exempt (h : Employed s none) (t : Nat) : Employed s (some t) :=
  ⟨h.fits, fun u task hu _ => h.pursues u task hu (by simp)⟩

/-- Only the busy task is changed. -/
theorem Employed.modify (h : Employed s (some t)) (he : Extends s s') {f : Task → Task}
    (ht : s'.tasks = s.tasks.modify t f)
    (hf : ∀ task, s.tasks[t]? = some task → s'.Fits (f task).call ∧
      (busy ≠ some t → s'.Pursues (f task).call (f task).stage))
    (hb : ∀ u, u ≠ t → busy ≠ some u) : Employed s' busy := by
  have hk : ∀ u task, s'.tasks[u]? = some task →
      (u ≠ t ∧ s.tasks[u]? = some task) ∨ ∃ task₀, u = t ∧ s.tasks[t]? = some task₀ ∧ task = f task₀ := by
    intro u task hu
    rw [ht, List.getElem?_modify] at hu
    by_cases e : t = u
    · subst e
      rw [Option.map_eq_map, Option.map_eq_some_iff] at hu
      obtain ⟨task₀, h₀, h₁⟩ := hu
      exact .inr ⟨task₀, rfl, h₀, by simpa using h₁.symm⟩
    · exact .inl ⟨Ne.symm e, by simpa [e] using hu⟩
  have hne : ∀ u, u ≠ t → some t ≠ some u := fun u hu e => hu (Option.some.inj e).symm
  refine ⟨fun u task hu => ?_, fun u task hu hbu => ?_⟩
  · rcases hk u task hu with ⟨-, h₁⟩ | ⟨task₀, rfl, h₀, rfl⟩
    · exact he.fits (h.fits u task h₁)
    · exact (hf task₀ h₀).1
  · rcases hk u task hu with ⟨h₀, h₁⟩ | ⟨task₀, rfl, h₀, rfl⟩
    · exact he.pursues (h.pursues u task h₁ (hne u h₀))
    · exact (hf task₀ h₀).2 hbu

/-- Nothing that is housed is changed, except what the pipes hold. -/
theorem Housed.congr (h : Housed s) (he : Extends s s') (hg : s'.gatePipe? = s.gatePipe?)
    (ho : s'.outlets = s.outlets) (hv : ∀ p b, s'.pipe? p = some b → b.Valid) : Housed s' := by
  refine ⟨fun g p hp => ?_, fun x hx b hb => ?_, hv⟩
  · rw [hg] at hp
    exact he.has (h.gatePipe g p hp)
  · rw [ho] at hx
    obtain ⟨h₁, h₂⟩ := h.backing x hx b hb
    exact ⟨he.has h₁, h₂⟩

/-! ### Gates -/

theorem gateOf_none (s : Session) (held : Option Nat) (u : Nat) :
    s.gateOf none held u = (s.stage? u).bind Stage.gate? := by simp [gateOf]

theorem gateOf_self (s : Session) (held : Option Nat) (t : Nat) : s.gateOf (some t) held t = held := by
  simp [gateOf]

theorem gateOf_of_ne (s : Session) (held : Option Nat) {u : Nat} (h : u ≠ t) :
    s.gateOf (some t) held u = (s.stage? u).bind Stage.gate? := by simp [gateOf, Ne.symm h]

/-- Between turns, whoever holds a gate is in the pipe through it. -/
theorem Guarded.inPipe (h : Guarded s none none) (hh : s.holder? g = some t) :
    ∃ task p r, s.tasks[t]? = some task ∧ task.stage = .inPipe (some g) p r := by
  have hg := (h g t).1 hh
  rw [gateOf_none] at hg
  obtain ⟨st, hst, hg⟩ := Option.bind_eq_some_iff.1 hg
  obtain ⟨task, hk, rfl⟩ := Option.map_eq_some_iff.1 hst
  obtain ⟨p, r, hp⟩ := Stage.gate?_eq_some.1 hg
  exact ⟨task, p, r, hk, hp⟩

/-- Only the holders and the stages matter. -/
theorem Guarded.congr (h : Guarded s busy held) (hh : s'.holder? = s.holder?)
    (hs : s'.stage? = s.stage?) : Guarded s' busy held := by
  intro g u
  rw [hh, h g u, gateOf, gateOf, hs]

/-- A turn begins: the task keeps the gate that its stage names. -/
theorem Guarded.depart (h : Guarded s none none) (hh : s'.holder? = s.holder?)
    (hs : s'.stage? = s.stage?) (t : Nat) :
    Guarded s' (some t) ((s.stage? t).bind Stage.gate?) := by
  intro g u
  rw [hh, h g u, gateOf_none]
  by_cases hu : u = t
  · subst hu
    rw [gateOf_self]
  · rw [gateOf_of_ne _ _ hu, hs]

/-- A turn ends: the new stage names the gate that the task has. -/
theorem Guarded.settle (h : Guarded s (some t) held) {st : Stage} (hh : s'.holder? = s.holder?)
    (hs : s'.stage? = Function.update s.stage? t (some st)) (hg : st.gate? = held) :
    Guarded s' none none := by
  intro g u
  rw [hh, h g u, gateOf_none, hs]
  by_cases hu : u = t
  · subst hu
    rw [gateOf_self, Function.update_self, Option.bind_some, hg]
  · rw [gateOf_of_ne _ _ hu, Function.update_of_ne hu]

/-- The busy task takes a gate, or gives one back. -/
theorem Guarded.update {held' : Option Nat} (h : Guarded s (some t) held) {h? : Option Nat}
    (hold : ∀ u, u ≠ t → s.holder? g ≠ some u) (hnew : ∀ u, u ≠ t → h? ≠ some u)
    (hh : s'.holder? = Function.update s.holder? g h?) (hs : s'.stage? = s.stage?)
    (hg : h? = some t ↔ held' = some g) (hg' : ∀ g', g' ≠ g → (held = some g' ↔ held' = some g')) :
    Guarded s' (some t) held' := by
  intro g' u
  have h₀ := h g' u
  by_cases hu : u = t
  · subst hu
    rw [gateOf_self] at h₀ ⊢
    by_cases hgg : g' = g
    · subst hgg
      rw [hh, Function.update_self, hg]
    · rw [hh, Function.update_of_ne hgg, h₀, hg' g' hgg]
  · rw [gateOf_of_ne _ _ hu] at h₀ ⊢
    by_cases hgg : g' = g
    · subst hgg
      rw [hh, Function.update_self, hs, ← h₀]
      exact ⟨fun e => absurd e (hnew u hu), fun e => absurd e (hold u hu)⟩
    · rw [hh, Function.update_of_ne hgg, hs, h₀]

/-- The busy task takes a gate that is free. -/
theorem Guarded.take (h : Guarded s (some t) none) (hfree : s.holder? g = none)
    (hh : s'.holder? = Function.update s.holder? g (some t)) (hs : s'.stage? = s.stage?) :
    Guarded s' (some t) (some g) := by
  refine h.update (fun u _ => by simp [hfree]) (fun u hu e => hu (Option.some.inj e).symm) hh hs
    (by simp) fun g' hg => ?_
  simp [Ne.symm hg]

/-- The busy task gives its gate back. -/
theorem Guarded.free (h : Guarded s (some t) (some g))
    (hh : s'.holder? = Function.update s.holder? g none) (hs : s'.stage? = s.stage?) :
    Guarded s' (some t) none := by
  have hold : s.holder? g = some t := (h g t).2 (gateOf_self ..)
  refine h.update (fun u hu e => ?_) (by simp) hh hs (by simp) fun g' hg => ?_
  · rw [hold] at e
    exact hu (Option.some.inj e).symm
  · simp [Ne.symm hg]

/-! ### Waiting at pipes -/

/-- Nobody new is parked at a pipe, and the pipes hold what they held. -/
theorem Refused.mono (h : Refused s)
    (hw : ∀ p, ∀ w ∈ s'.waiters (.pipe p), w.mark = .parked →
      w ∈ s.waiters (.pipe p) ∧ s'.stage? w.task = s.stage? w.task)
    (hp : s'.pipe? = s.pipe?) : Refused s' := by
  intro p w hwp hm
  obtain ⟨h₁, h₂⟩ := hw p w hwp hm
  obtain ⟨gate, r, b, hst, hb, hr⟩ := h p w h₁ hm
  exact ⟨gate, r, b, by rw [h₂, hst], by rw [hp, hb], hr⟩

/-! ### Beginning and ending a turn -/

/-- A task leaves its place, and has its turn. -/
theorem Consistent.depart (h : Consistent s none none) {rest : List Job}
    (hr : s.ready = .task t :: rest) :
    Consistent (s.depart t rest) (some t) ((s.stage? t).bind Stage.gate?) := by
  have hs : (s.depart t rest).stage? = s.stage? := stage?_congr (tasks_depart ..)
  have he : Extends s (s.depart t rest) :=
    .of_eq (gatePipe?_depart ..) (fun p b hb => ⟨b, by rw [pipe?_depart, hb]⟩) (outlets_depart ..)
  constructor
  case placed =>
    refine h.placed.depart ?_ (fun u hu => ?_) hs (isCancelling_congr (tasks_depart ..))
      (waiters_depart s t rest)
    · rw [turnsOf, turnsOf, ready_depart, hr, List.count_cons_self]
    · have hne : Job.task t ≠ .task u := fun e => hu (by cases e; rfl)
      rw [turnsOf, turnsOf, ready_depart, hr, List.count_cons_of_ne hne]
  case guarded => exact h.guarded.depart (holder?_depart ..) hs t
  case refused =>
    refine h.refused.mono (fun p w hw _ => ⟨?_, by rw [hs]⟩) (pipe?_depart ..)
    rw [waiters_depart] at hw
    split at hw
    · exact (Waiter.mem_without.1 hw).1
    · exact hw
  case housed =>
    refine h.housed.congr he (gatePipe?_depart ..) (outlets_depart ..) fun p b hb => ?_
    rw [pipe?_depart] at hb
    exact h.housed.valid p b hb
  case employed => exact (h.employed.congr he (tasks_depart ..)).exempt t

/-- A task ends its turn at a new stage. -/
theorem Consistent.settle (h : Consistent s (some t) held) {task : Task}
    (hk : s.tasks[t]? = some task) {f : Task → Task} (ht : s'.tasks = s.tasks.modify t f)
    (hf : (f task).stage.place? ≠ none → (f task).cancelling = false)
    (hr : ∀ u, s'.turnsOf u = if u = t ∧ (f task).stage.isFresh = true then 1 else s.turnsOf u)
    (hw : ∀ a, s'.waiters a =
      if (f task).stage.place? = some a then s.waiters a ++ [⟨t, .parked⟩] else s.waiters a)
    (hh : s'.holder? = s.holder?) (hg : s'.gatePipe? = s.gatePipe?) (hp : s'.pipe? = s.pipe?)
    (ho : s'.outlets = s.outlets) (hgate : (f task).stage.gate? = held)
    (hfits : s.Fits (f task).call) (hpur : s.Pursues (f task).call (f task).stage)
    (href : ∀ gate p r, (f task).stage = .inPipe gate p r →
      ∃ b, s.pipe? p = some b ∧ b.admits r = false) :
    Consistent s' none none := by
  have hkt : s'.tasks[t]? = some (f task) := by
    rw [ht, List.getElem?_modify_eq, hk]
    rfl
  have hku : ∀ u, u ≠ t → s'.tasks[u]? = s.tasks[u]? := by
    intro u hu
    rw [ht, List.getElem?_modify_ne _ _ (Ne.symm hu)]
  have hs : s'.stage? = Function.update s.stage? t (some (f task).stage) := by
    funext u
    by_cases hu : u = t
    · subst hu
      rw [Function.update_self, stage?, hkt]
      rfl
    · rw [Function.update_of_ne hu, stage?, hku u hu, stage?]
  have he : Extends s s' := .of_eq hg (fun p b hb => ⟨b, by rw [hp, hb]⟩) ho
  constructor
  case placed =>
    refine h.placed.settle hs hr (fun u hu => ?_) (fun hpl => ?_) hw
    · rw [isCancelling, hku u hu, isCancelling]
    · rw [isCancelling, hkt]
      exact hf hpl
  case guarded => exact h.guarded.settle hh hs hgate
  case refused =>
    intro p w hwp hm
    rw [hw] at hwp
    -- whoever was parked there is another task
    have hold : w ∈ s.waiters (.pipe p) → ∃ gate r b, s'.stage? w.task = some (.inPipe gate p r) ∧
        s'.pipe? p = some b ∧ b.admits r = false := by
      intro hw₀
      have hne : w.task ≠ t := fun e => (h.placed.place_of_mem _ w hw₀).1 (by rw [e])
      obtain ⟨gate, r, b, hst, hb, hrf⟩ := h.refused p w hw₀ hm
      exact ⟨gate, r, b, by rw [hs, Function.update_of_ne hne, hst], by rw [hp, hb], hrf⟩
    split at hwp
    · rename_i hpl
      rcases List.mem_append.1 hwp with hw₀ | hw₀
      · exact hold hw₀
      · rw [List.mem_singleton.1 hw₀, hs, Function.update_self, hp]
        cases hst : (f task).stage with
        | inPipe gate q r =>
          rw [hst] at hpl
          cases hpl
          obtain ⟨b, hb, hrf⟩ := href gate p r hst
          exact ⟨gate, r, b, rfl, hb, hrf⟩
        | fresh => rw [hst] at hpl; cases hpl
        | atGate g r => rw [hst] at hpl; cases hpl
        | ended o => rw [hst] at hpl; cases hpl
    · exact hold hwp
  case housed =>
    refine h.housed.congr he hg ho fun p b hb => ?_
    rw [hp] at hb
    exact h.housed.valid p b hb
  case employed =>
    refine h.employed.modify he ht (fun task' hk' => ?_) (by simp)
    rw [hk] at hk'
    cases hk'
    exact ⟨he.fits hfits, fun _ => he.pursues hpur⟩

end Outflow.Session
