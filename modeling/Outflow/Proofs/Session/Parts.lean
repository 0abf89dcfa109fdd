import Outflow.Proofs.Session.Sound

/-!
# The parts of a turn keep a session sound

* `Sound.congr`, `Sound.announce`, `Sound.setEntry`: what changes nothing that matters;
* `Sound.refresh`: a pipe meets a request, and those who wait for it are woken;
* `Consistent.take`, `Consistent.free`, `Sound.release`: the gates;
* `Sound.park`, `Sound.queue`, `Sound.finish`, `Sound.goOn`: the ends of a turn.
-/

namespace Outflow.Session

variable {s s' : Session} {busy held : Option Nat} {t g p : Nat}

/-! ### What changes nothing -/

theorem waiters_congr (hc : s'.channels = s.channels) (hg : s'.gates = s.gates) :
    s'.waiters = s.waiters := by
  funext a
  cases a with
  | gate g => rw [waiters, waiters, hg]
  | pipe p => rw [waiters, waiters, hc]

theorem pipe?_congr (hc : s'.channels = s.channels) : s'.pipe? = s.pipe? := by
  funext p
  rw [pipe?, pipe?, hc]

theorem holder?_congr (hg : s'.gates = s.gates) : s'.holder? = s.holder? := by
  funext g
  rw [holder?, holder?, hg]

theorem gatePipe?_congr (hg : s'.gates = s.gates) : s'.gatePipe? = s.gatePipe? := by
  funext g
  rw [gatePipe?, gatePipe?, hg]

/-- A session is as sound as another with the same members, tasks and places in the queue. -/
theorem Sound.congr (h : Sound s busy held) (hc : s'.channels = s.channels)
    (hg : s'.gates = s.gates) (ho : s'.outlets = s.outlets) (ht : s'.tasks = s.tasks)
    (hr : s'.turnsOf = s.turnsOf) : Sound s' busy held := by
  have hw := waiters_congr hc hg
  have hp := pipe?_congr hc
  have hs := stage?_congr ht
  have he : Extends s s' := .of_eq (gatePipe?_congr hg) (fun p b hb => ⟨b, by rw [hp, hb]⟩) ho
  refine ⟨⟨?placed, ?guarded, ?refused, ?housed, ?employed⟩, ?ordered⟩
  case placed =>
    refine h.placed.congr hw hs hr fun a w _ _ => ?_
    rw [isCancelling_congr ht]
  case guarded => exact h.guarded.congr (holder?_congr hg) hs
  case refused =>
    refine h.refused.mono (fun p w hwp _ => ⟨?_, by rw [hs]⟩) hp
    rw [hw] at hwp
    exact hwp
  case housed =>
    refine h.housed.congr he (gatePipe?_congr hg) ho fun p b hb => ?_
    rw [hp] at hb
    exact h.housed.valid p b hb
  case employed => exact h.employed.congr he ht
  case ordered =>
    intro g
    rw [holder?_congr hg, hw]
    exact h.ordered g

theorem Sound.announce (h : Sound s busy held) (task : Task) (outcome : Outcome) :
    Sound (s.announce task outcome) busy held := by
  obtain ⟨hc, hg, ho, ht⟩ := fields_announce s task outcome
  exact h.congr hc hg ho ht (turnsOf_announce ..)

/-! ### Pipes -/

theorem extends_refresh {b : Pipe} (hb : s.pipe? p = some b) (served : Pipe.Served) :
    Extends s (s.refresh p served) := by
  refine .of_eq rfl (fun q b' hq => ?_) rfl
  rw [pipe?_refresh hb]
  by_cases hqp : q = p
  · exact ⟨served.pipe, by rw [hqp, Function.update_self]⟩
  · exact ⟨b', by rw [Function.update_of_ne hqp, hq]⟩

/-- The pipe meets a request. -/
theorem Sound.refresh (h : Sound s (some t) held) {b : Pipe} (hb : s.pipe? p = some b)
    (r : Pipe.Request) : Sound (s.refresh p (b.serve r)) (some t) held := by
  have hp := pipe?_refresh hb (b.serve r)
  have hw := waiters_refresh hb (b.serve r)
  have he := extends_refresh hb (b.serve r)
  refine ⟨⟨?placed, ?guarded, ?refused, ?housed, ?employed⟩, ?ordered⟩
  case placed =>
    refine h.placed.rouse (m := .woken) ?_ (by simp) hw (turnsOf_refresh s p (b.serve r)) rfl
      (fun _ _ => rfl) (by simp)
    split
    · exact Waiter.roused_wakeAll _
    · exact .refl _ _
  case guarded => exact h.guarded.congr rfl rfl
  case refused =>
    intro q w hwq hm
    by_cases hqp : q = p
    · subst hqp
      rw [hw, Function.update_self] at hwq
      -- whoever is still parked was not woken, and then the pipe is as it was
      cases hwk : (b.serve r).wakes with
      | true =>
        rw [hwk, if_pos rfl] at hwq
        obtain ⟨v, -, rfl⟩ := List.mem_map.1 hwq
        exact absurd hm (Waiter.wake_ne_parked v)
      | false =>
        rw [hwk, if_neg (by simp)] at hwq
        obtain ⟨gate, r', b', hst, hb', hr'⟩ := h.refused q w hwq hm
        rw [hb] at hb'
        cases hb'
        exact ⟨gate, r', b, hst, by rw [hp, Function.update_self, Pipe.serve_of_not_wakes hwk], hr'⟩
    · have hne : Place.pipe q ≠ .pipe p := fun e => hqp (by cases e; rfl)
      rw [hw, Function.update_of_ne hne] at hwq
      obtain ⟨gate, r', b', hst, hb', hr'⟩ := h.refused q w hwq hm
      exact ⟨gate, r', b', hst, by rw [hp, Function.update_of_ne hqp, hb'], hr'⟩
  case housed =>
    refine h.housed.congr he rfl rfl fun q b' hq => ?_
    rw [hp] at hq
    by_cases hqp : q = p
    · subst hqp
      rw [Function.update_self] at hq
      cases hq
      exact (h.housed.valid q b hb).serve r
    · rw [Function.update_of_ne hqp] at hq
      exact h.housed.valid q b' hq
  case employed => exact h.employed.congr he rfl
  case ordered =>
    intro g
    have hne : Place.gate g ≠ .pipe p := by simp
    rw [hw, Function.update_of_ne hne]
    exact h.ordered g

/-! ### Gates -/

/-- The gate of a place that is no pipe, or another gate. -/
theorem ordered_update (h : ∀ g', g' ≠ g → Waiter.Orderly (s.holder? g').isSome (s.waiters (.gate g')))
    {h? : Option Nat} {ws : List Waiter} (hh : s'.holder? = Function.update s.holder? g h?)
    (hw : s'.waiters = Function.update s.waiters (.gate g) ws) (ho : Waiter.Orderly h?.isSome ws) :
    Ordered s' := by
  intro g'
  rw [hh, hw]
  by_cases hg : g' = g
  · subst hg
    rw [Function.update_self, Function.update_self]
    exact ho
  · have hne : Place.gate g' ≠ .gate g := fun e => hg (by cases e; rfl)
    rw [Function.update_of_ne hg, Function.update_of_ne hne]
    exact h g' hg

/-- What changes no pipe and no task keeps refusals, members and what tasks do. -/
theorem Consistent.of_gates (h : Consistent s busy held) (hpl : Placed s' busy) {held' : Option Nat}
    (hgu : Guarded s' busy held') (hc : s'.channels = s.channels)
    (hg : s'.gatePipe? = s.gatePipe?) (ho : s'.outlets = s.outlets) (ht : s'.tasks = s.tasks) :
    Consistent s' busy held' := by
  have hp := pipe?_congr hc
  have he : Extends s s' := .of_eq hg (fun p b hb => ⟨b, by rw [hp, hb]⟩) ho
  refine ⟨hpl, hgu, ?_, ?_, h.employed.congr he ht⟩
  · refine h.refused.mono (fun p w hwp _ => ⟨?_, by rw [stage?_congr ht]⟩) hp
    rw [waiters, hc] at hwp
    exact hwp
  · refine h.housed.congr he hg ho fun p b hb => ?_
    rw [hp] at hb
    exact h.housed.valid p b hb

/-- The busy task takes a gate that is free and that nobody else was promised. -/
theorem Consistent.take (h : Consistent s (some t) none) {gate : Gate}
    (hg : s.gates[g]? = some gate) (hfree : gate.holder = none)
    (ho : ∀ g', g' ≠ g → Waiter.Orderly (s.holder? g').isSome (s.waiters (.gate g')))
    (hq : ∀ w ∈ gate.queue, w.mark ≠ .woken) : Sound (s.take t g) (some t) (some g) := by
  have hout : Waiter.without t gate.queue = gate.queue := by
    refine Waiter.without_eq_self ?_
    rw [← waiters_gate hg]
    exact h.placed.not_mem _
  have hw := waiters_take hg t
  rw [hout] at hw
  have hw' : (s.take t g).waiters = s.waiters := by
    rw [hw, ← waiters_gate hg]
    exact Function.update_eq_self _ _
  refine ⟨h.of_gates ?_ ?_ rfl (gatePipe?_modify_gate fun _ => rfl) rfl rfl, ?_⟩
  · exact h.placed.congr hw' rfl rfl fun _ _ _ _ => rfl
  · refine h.guarded.take ?_ (holder?_take hg t) rfl
    rw [holder?, hg, Option.bind_some, hfree]
  · exact ordered_update ho (holder?_take hg t) hw (Waiter.orderly_held_iff.2 hq)

/-- A gate that the busy task has, or nobody, is free, and the first who queues for it is woken. -/
theorem Consistent.free (h : Consistent s (some t) held) {gate : Gate}
    (hg : s.gates[g]? = some gate) (hheld : held = some g ∨ (held = none ∧ gate.holder = none))
    (ho : ∀ g', g' ≠ g → Waiter.Orderly (s.holder? g').isSome (s.waiters (.gate g')))
    (hq : ∀ w ∈ gate.queue.tail, w.mark ≠ .woken) : Sound (s.free g) (some t) none := by
  have hw := waiters_free hg
  have hh := holder?_free hg
  have hr : Waiter.Roused .woken (s.waiters (.gate g)) (Waiter.wakeFirst gate.queue).1
      (Waiter.wakeFirst (s.waiters (.gate g))).2 := by
    rw [← waiters_gate hg]
    exact Waiter.roused_wakeFirst _
  refine ⟨h.of_gates ?_ ?_ rfl (gatePipe?_modify_gate fun _ => rfl) rfl rfl, ?_⟩
  · exact h.placed.rouse hr (by simp) hw (turnsOf_enqueue _ _) rfl (fun _ _ => rfl) (by simp)
  · rcases hheld with rfl | ⟨rfl, hnone⟩
    · exact h.guarded.free hh rfl
    · refine h.guarded.congr ?_ rfl
      rw [hh]
      exact Function.update_eq_self_iff.2 (by rw [holder?, hg, Option.bind_some, hnone])
  · exact ordered_update ho hh hw (Waiter.orderly_wakeFirst hq)

/-- The busy task gives back the gate that it has, if any. -/
theorem Sound.release (h : Sound s (some t) held) : Sound (s.release held) (some t) none := by
  cases held with
  | none => exact h
  | some g =>
    have hh : s.holder? g = some t := (h.guarded g t).2 (gateOf_self ..)
    obtain ⟨gate, hg, -⟩ := Option.bind_eq_some_iff.1 hh
    rw [release_eq hg]
    refine h.toConsistent.free hg (.inl rfl) (fun g' _ => h.ordered g') ?_
    have ho := h.ordered g
    rw [hh, Option.isSome_some, Waiter.orderly_held_iff, waiters_gate hg] at ho
    exact fun w hw => ho w (List.mem_of_mem_tail hw)

/-! ### The ends of a turn -/

/-- The operation of a task begins: what its outlet is for is recorded. -/
def setEntry (s : Session) (t : Nat) (entry : Destination) : Session :=
  { s with tasks := s.tasks.modify t fun task => { task with entry } }

theorem Sound.setEntry (h : Sound s (some t) held) (d : Destination) :
    Sound (s.setEntry t d) (some t) held := by
  have hs : (s.setEntry t d).stage? = s.stage? := stage?_modify fun _ => rfl
  have hc : (s.setEntry t d).isCancelling = s.isCancelling := isCancelling_modify fun _ => rfl
  have he : Extends s (s.setEntry t d) := .of_eq rfl (fun p b hb => ⟨b, hb⟩) rfl
  refine ⟨⟨h.placed.congr rfl hs rfl (fun _ _ _ _ => by rw [hc]), h.guarded.congr rfl hs, ?_,
    h.housed.congr he rfl rfl h.housed.valid, ?_⟩, h.ordered⟩
  · exact h.refused.mono (fun p w hw _ => ⟨hw, by rw [hs]⟩) rfl
  · refine h.employed.modify he rfl (fun task hk => ⟨h.employed.fits t task hk, ?_⟩) ?_
    · intro hne
      exact absurd rfl hne
    · intro u hu e
      exact hu (Option.some.inj e).symm

/-- The busy task begins to wait for a pipe that refuses its request. -/
theorem Sound.park (h : Sound s (some t) held) {task : Task} (hk : s.tasks[t]? = some task)
    (hc : task.cancelling = false) {b : Pipe} (hb : s.pipe? p = some b) {r : Pipe.Request}
    (hr : b.admits r = false) (hpur : s.Pursues task.call (.inPipe held p r)) :
    Sound (s.park t held p r) none none := by
  have hw := waiters_park hb t held r
  refine ⟨h.toConsistent.settle hk rfl (fun _ => hc) (fun u => ?_) (fun a => ?_) rfl rfl
    (pipe?_park ..) rfl rfl (h.employed.fits t task hk) hpur ?_, fun g => ?_⟩
  · rw [if_neg (by simp [Stage.isFresh])]
    rfl
  · rw [hw]
    exact update_append ..
  · rintro _ _ _ ⟨⟩
    exact ⟨b, hb, hr⟩
  · have hne : Place.gate g ≠ .pipe p := by simp
    rw [hw, Function.update_of_ne hne]
    exact h.ordered g

/-- The busy task queues for a gate that does not admit it. -/
theorem Sound.queue (h : Sound s (some t) none) {task : Task} (hk : s.tasks[t]? = some task)
    (hc : task.cancelling = false) {gate : Gate} (hg : s.gates[g]? = some gate)
    (hopen : gate.isOpen = false) {r : Pipe.Request} (hpur : s.Pursues task.call (.atGate g r)) :
    Sound (s.queue t g r) none none := by
  have hw := waiters_queue hg t r
  have hh := holder?_queue hg t r
  refine ⟨h.toConsistent.settle hk rfl (fun _ => hc) (fun u => ?_) (fun a => ?_) hh
    (gatePipe?_modify_gate fun _ => rfl) rfl rfl rfl (h.employed.fits t task hk) hpur ?_, ?_⟩
  · rw [if_neg (by simp [Stage.isFresh])]
    rfl
  · rw [hw, ← waiters_gate hg]
    exact update_append ..
  · rintro _ _ _ ⟨⟩
  · have ho := h.ordered g
    rw [waiters_gate hg] at ho
    have hu : (s.queue t g r).holder? = Function.update s.holder? g (s.holder? g) := by
      rw [hh, Function.update_eq_self]
    refine ordered_update (fun g' _ => h.ordered g') hu hw (ho.append_parked t ?_)
    -- a gate that is not open is held, or somebody in its queue was not cancelled
    by_cases hheld : gate.isHeld = true
    · exact .inl (by rw [holder?, hg, Option.bind_some]; exact hheld)
    · refine .inr ?_
      rintro hnil
      simp [Gate.isOpen, hheld, hnil] at hopen

/-- The busy task ends. -/
theorem Sound.finish (h : Sound s (some t) none) {task : Task} (hk : s.tasks[t]? = some task)
    (outcome : Outcome) : Sound (s.finish t outcome) none none := by
  refine ⟨h.toConsistent.settle hk rfl (fun hpl => absurd rfl hpl) (fun u => ?_) (fun a => ?_) rfl
    rfl rfl rfl rfl (h.employed.fits t task hk) trivial ?_, h.ordered⟩
  · rw [if_neg (by simp [Stage.isFresh])]
    rfl
  · rw [if_neg (by simp [Stage.place?])]
    rfl
  · rintro _ _ _ ⟨⟩

/-- The busy task goes on with another operation. -/
theorem Sound.goOn (h : Sound s (some t) none) {task : Task} (hk : s.tasks[t]? = some task)
    {call : Call} (hfits : s.Fits call) : Sound (s.goOn t call) none none := by
  refine ⟨h.toConsistent.settle hk rfl (fun hpl => absurd rfl hpl) (fun u => ?_) (fun a => ?_) rfl
    rfl rfl rfl rfl hfits trivial ?_, h.ordered⟩
  · have hz := h.placed.turnsOf_busy t rfl
    by_cases hu : u = t
    · subst hu
      rw [if_pos ⟨rfl, rfl⟩, turnsOf, Session.goOn, List.count_cons_self]
      rw [turnsOf] at hz
      omega
    · have hne : Job.task t ≠ .task u := fun e => hu (by cases e; rfl)
      rw [if_neg fun e => hu e.1, turnsOf, Session.goOn, List.count_cons_of_ne hne, turnsOf]
  · rw [if_neg (by simp [Stage.place?])]
    rfl
  · rintro _ _ _ ⟨⟩

end Outflow.Session
