import Outflow.Proofs.Session.Effects

/-!
# One task at a time

A gate admits one task at a time to the write end of its pipe.

* `Session.Inside`: a task is in the pipe through a gate;
* `holder_iff_inside`: the gate is held by the task that is inside;
* `inside_of_service`: no turn brings a request through a gate while another task is inside;
* `head_ready`: the first who queues for a free gate is about to run;
* `gate_excludes`: all this together.
-/

namespace Outflow.Session

variable {s : Session} {g t : Nat}

/-- A task is in the pipe through a gate: it has made its request to the pipe, and waits there. -/
def Inside (s : Session) (g t : Nat) : Prop := ∃ p r, s.stage? t = some (.inPipe (some g) p r)

theorem inside_iff : s.Inside g t ↔ (s.stage? t).bind Stage.gate? = some g := by
  constructor
  · rintro ⟨p, r, hst⟩
    rw [hst]
    rfl
  · intro h
    obtain ⟨st, hst, hg⟩ := Option.bind_eq_some_iff.1 h
    obtain ⟨p, r, rfl⟩ := Stage.gate?_eq_some.1 hg
    exact ⟨p, r, hst⟩

theorem holder_iff_inside (h : Sound s none none) : s.holder? g = some t ↔ s.Inside g t := by
  rw [h.guarded g t, gateOf_none, inside_iff]

/-- A task whose turn brings a request through a gate to its pipe has the gate for itself. -/
theorem inside_of_service (h : Sound s none none) {v : Service} (hv : s.service? = some v)
    (hg : v.gate = some g) (ht : s.Inside g t) : t = v.task := by
  obtain ⟨rest, task, hr, hk, -⟩ := service?_eq_some hv
  obtain ⟨s₁, hp, -, -⟩ := (turn_course h hr hk).poised hv
  by_contra hne
  -- in its turn the task holds the gate, and so would the one inside
  have hheld : s₁.holder? g = some v.task := (hp.sound.guarded g v.task).2 (by rw [gateOf_self, hg])
  have hother : s₁.holder? g = some t := by
    refine (hp.sound.guarded g t).2 ?_
    rw [gateOf_of_ne _ _ hne, stage?, hp.others t hne]
    exact inside_iff.1 ht
  rw [hheld] at hother
  exact hne (Option.some.inj hother).symm

/-- The first who queues for a free gate was woken, or was cancelled, and is about to run. -/
theorem head_ready (h : Sound s none none) (hfree : s.holder? g = none)
    (hq : s.waiters (.gate g) ≠ []) : ∃ w, (s.waiters (.gate g)).head? = some w ∧
      (w.mark = .woken ∨ w.mark = .cancelled) ∧ Job.task w.task ∈ s.ready := by
  obtain ⟨w, ws, hw⟩ := List.exists_cons_of_ne_nil hq
  have horder := h.ordered g
  rw [hfree, hw, Option.isSome_none, Waiter.orderly_cons, if_neg (by simp)] at horder
  have hmem : w ∈ s.waiters (.gate g) := by
    rw [hw]
    exact List.mem_cons_self
  have hturn := h.placed.turnsOf_of_mem _ w hmem
  rw [if_neg horder.1] at hturn
  refine ⟨w, by rw [hw]; rfl, ?_, ?_⟩
  · cases hm : w.mark with
    | parked => exact absurd hm horder.1
    | woken => exact .inl rfl
    | cancelled => exact .inr rfl
  · rw [← List.count_pos_iff]
    rw [turnsOf] at hturn
    omega

/-- Whatever was done to a session, in any order: at most one task is in the pipe through a gate, also
in the middle of a turn; the gate is held exactly while there is one; a task that has ended neither
holds the gate nor queues for it; and while the gate is free and tasks queue for it, the first of them
was woken or is to pass the wake-up on, and is about to run. -/
theorem gate_excludes (h : Reachable s) {gate : Gate} (hg : s.gates[g]? = some gate) :
    (∀ t u, s.Inside g t → s.Inside g u → t = u) ∧
      (∀ v, s.service? = some v → v.gate = some g → ∀ t, s.Inside g t → t = v.task) ∧
      (gate.isHeld = true ↔ ∃ t, s.Inside g t) ∧
      (∀ t o, s.stage? t = some (.ended o) →
        gate.holder ≠ some t ∧ t ∉ gate.queue.map Waiter.task) ∧
      (gate.isHeld = false → (∃ t r, s.stage? t = some (.atGate g r)) →
        ∃ w, gate.queue.head? = some w ∧ (w.mark = .woken ∨ w.mark = .cancelled) ∧
          Job.task w.task ∈ s.ready) := by
  have hs := h.sound
  have hholder : gate.holder = s.holder? g := by rw [holder?, hg, Option.bind_some]
  have hqueue : gate.queue = s.waiters (.gate g) := (waiters_gate hg).symm
  refine ⟨fun t u ht hu => ?_, fun v hv hvg t ht => inside_of_service hs hv hvg ht, ?_,
    fun t o ho => ⟨?_, ?_⟩, fun hfree hlive => ?_⟩
  · rw [← holder_iff_inside hs] at ht hu
    rw [ht] at hu
    exact Option.some.inj hu
  · rw [Gate.isHeld, hholder, Option.isSome_iff_exists]
    exact exists_congr fun t => holder_iff_inside hs
  · rw [hholder]
    intro ht
    obtain ⟨p, r, hst⟩ := (holder_iff_inside hs).1 ht
    rw [ho] at hst
    cases hst
  · rw [hqueue]
    intro ht
    obtain ⟨w, hw, rfl⟩ := List.mem_map.1 ht
    have hpl := (hs.placed.place_of_mem _ w hw).2
    rw [place?, ho] at hpl
    cases hpl
  · obtain ⟨t, r, hst⟩ := hlive
    have hpl : s.place? t = some (.gate g) := by rw [place?, hst]; rfl
    have hmem := hs.placed.mem_of_place t _ (by simp) hpl
    rw [hqueue]
    refine head_ready hs ?_ fun hnil => ?_
    · rw [← hholder]
      exact Option.isNone_iff_eq_none.1 (by simpa [Gate.isHeld] using hfree)
    · rw [hnil] at hmem
      cases hmem

/-- In the first session the second task is inside, and no other; in the second session the third task,
which queues for the free gate, is about to run. -/
theorem contended_excludes : contended.Inside 0 1 ∧ (∀ u, contended.Inside 0 u → u = 1) ∧
    handedOver.gates[0]? = some ⟨0, none, [⟨2, .woken⟩]⟩ ∧ Job.task 2 ∈ handedOver.ready := by
  have hin : contended.Inside 0 1 := ⟨0, .write [2], rfl⟩
  have hg₀ : contended.gates[0]? = some ⟨0, some 1, [⟨2, .parked⟩]⟩ := rfl
  have hg : handedOver.gates[0]? = some ⟨0, none, [⟨2, .woken⟩]⟩ := rfl
  refine ⟨hin, fun u hu => ?_, hg, ?_⟩
  · exact (gate_excludes reachable_contended hg₀).1 u 1 hu hin
  · obtain ⟨w, hw, -, hr⟩ := (gate_excludes reachable_handedOver hg).2.2.2.2 rfl ⟨2, .write [3], rfl⟩
    cases hw
    exact hr

end Outflow.Session
