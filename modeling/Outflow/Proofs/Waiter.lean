import Outflow.Waiter
import Mathlib.Tactic

/-!
# Laws of waiting lists

All ways of waking or cancelling waiters are one: some waiters that were parked get another mark, and
their tasks are put in the ready queue.

* `Waiter.Roused m ws ws' ts`: the waiters of the tasks `ts` were parked in `ws`, and have the mark `m`
  in `ws'`;
* `roused_wakeAll`, `roused_wakeFirst`, `roused_cancel`: the three ways;
* `Waiter.Orderly`: the queue of a gate.  While the gate is held nobody in it has been woken; while the
  gate is free its first waiter is about to run, and only that one can have been woken.
-/

namespace Outflow.Waiter

/-- Some waiters that were parked are given the mark `m`; `ts` are their tasks, in order. -/
inductive Roused (m : Mark) : List Waiter → List Waiter → List Nat → Prop
  | nil : Roused m [] [] []
  | keep {w ws ws' ts} (h : Roused m ws ws' ts) : Roused m (w :: ws) (w :: ws') ts
  | rouse {t ws ws' ts} (h : Roused m ws ws' ts) :
    Roused m (⟨t, .parked⟩ :: ws) (⟨t, m⟩ :: ws') (t :: ts)

namespace Roused

variable {m : Mark} {ws ws' : List Waiter} {ts : List Nat}

theorem refl (m : Mark) (ws : List Waiter) : Roused m ws ws [] := by
  induction ws with
  | nil => exact .nil
  | cons w ws ih => exact .keep ih

theorem map_task (h : Roused m ws ws' ts) : ws'.map task = ws.map task := by
  induction h with
  | nil => rfl
  | keep _ ih => rw [List.map_cons, List.map_cons, ih]
  | rouse _ ih => rw [List.map_cons, List.map_cons, ih]

/-- Only waiting tasks are roused. -/
theorem count_eq_zero (h : Roused m ws ws' ts) {t : Nat} (ht : t ∉ ws.map task) :
    ts.count t = 0 := by
  induction h with
  | nil => rfl
  | keep _ ih => exact ih fun hm => ht (List.mem_cons_of_mem _ hm)
  | @rouse u _ _ _ _ ih =>
    have hu : u ≠ t := fun e => ht (by simp [e])
    rw [List.count_cons_of_ne hu]
    exact ih fun hm => ht (List.mem_cons_of_mem _ hm)

/-- Those who are roused wait. -/
theorem mem (h : Roused m ws ws' ts) {t : Nat} (ht : t ∈ ts) : t ∈ ws.map task := by
  by_contra hout
  exact List.count_eq_zero.1 (h.count_eq_zero hout) ht

/-- A waiter is as before and not roused, or it was parked and is roused once. -/
theorem cases_of_mem (h : Roused m ws ws' ts) (hn : (ws.map task).Nodup) {w : Waiter}
    (hw : w ∈ ws') :
    (w ∈ ws ∧ ts.count w.task = 0) ∨
      (⟨w.task, .parked⟩ ∈ ws ∧ w.mark = m ∧ ts.count w.task = 1) := by
  induction h with
  | nil => cases hw
  | @keep v ws ws' ts h ih =>
    rw [List.map_cons, List.nodup_cons] at hn
    rcases List.mem_cons.1 hw with rfl | hw
    · exact .inl ⟨List.mem_cons_self, h.count_eq_zero hn.1⟩
    · rcases ih hn.2 hw with ⟨h₁, h₂⟩ | ⟨h₁, h₂, h₃⟩
      · exact .inl ⟨List.mem_cons_of_mem _ h₁, h₂⟩
      · exact .inr ⟨List.mem_cons_of_mem _ h₁, h₂, h₃⟩
  | @rouse t ws ws' ts h ih =>
    rw [List.map_cons, List.nodup_cons] at hn
    rcases List.mem_cons.1 hw with rfl | hw
    · refine .inr ⟨List.mem_cons_self, rfl, ?_⟩
      simp [h.count_eq_zero hn.1]
    · have ht : t ≠ w.task := by
        intro e
        rw [← h.map_task] at hn
        exact hn.1 (List.mem_map.2 ⟨w, hw, e.symm⟩)
      rw [List.count_cons_of_ne ht]
      rcases ih hn.2 hw with ⟨h₁, h₂⟩ | ⟨h₁, h₂, h₃⟩
      · exact .inl ⟨List.mem_cons_of_mem _ h₁, h₂⟩
      · exact .inr ⟨List.mem_cons_of_mem _ h₁, h₂, h₃⟩

end Roused

/-! ### Waking and cancelling -/

theorem roused_wakeAll (ws : List Waiter) : Roused .woken ws (wakeAll ws).1 (wakeAll ws).2 := by
  induction ws with
  | nil => exact .nil
  | cons w ws ih =>
    obtain ⟨t, m⟩ := w
    cases m with
    | parked => exact .rouse ih
    | woken => exact .keep ih
    | cancelled => exact .keep ih

theorem roused_wakeFirst (ws : List Waiter) :
    Roused .woken ws (wakeFirst ws).1 (wakeFirst ws).2 := by
  cases ws with
  | nil => exact .nil
  | cons w ws =>
    obtain ⟨t, m⟩ := w
    cases m with
    | parked => exact .rouse (.refl _ ws)
    | woken => exact .keep (.refl _ ws)
    | cancelled => exact .keep (.refl _ ws)

/-- Cancelling a task that waits nowhere in a list leaves the list as it is. -/
theorem cancel_eq_self {t : Nat} {ws : List Waiter} (h : t ∉ ws.map task) : cancel t ws = ws := by
  unfold cancel
  conv_rhs => rw [← List.map_id ws]
  refine List.map_congr_left fun w hw => ?_
  have hne : w ≠ ⟨t, .parked⟩ := by
    rintro rfl
    exact h (List.mem_map_of_mem hw)
  rw [if_neg hne, id]

theorem isParked_iff {t : Nat} {ws : List Waiter} :
    isParked t ws = true ↔ (⟨t, .parked⟩ : Waiter) ∈ ws := by simp [isParked]

theorem roused_cancel {t : Nat} {ws : List Waiter} (hn : (ws.map task).Nodup)
    (h : (⟨t, .parked⟩ : Waiter) ∈ ws) : Roused .cancelled ws (cancel t ws) [t] := by
  induction ws with
  | nil => cases h
  | cons w ws ih =>
    rw [List.map_cons, List.nodup_cons] at hn
    by_cases hw : w = ⟨t, .parked⟩
    · subst hw
      have hc : cancel t (⟨t, .parked⟩ :: ws) = ⟨t, .cancelled⟩ :: ws := by
        conv_rhs => rw [← cancel_eq_self (t := t) hn.1]
        simp [cancel]
      rw [hc]
      exact .rouse (.refl _ ws)
    · have hc : cancel t (w :: ws) = w :: cancel t ws := by simp [cancel, hw]
      rw [hc]
      exact .keep (ih hn.2 ((List.mem_cons.1 h).resolve_left (Ne.symm hw)))

/-! ### Leaving -/

theorem mem_without {t : Nat} {ws : List Waiter} {w : Waiter} :
    w ∈ without t ws ↔ w ∈ ws ∧ w.task ≠ t := by simp [without]

theorem without_eq_self {t : Nat} {ws : List Waiter} (h : t ∉ ws.map task) :
    without t ws = ws := by
  unfold without
  rw [List.filter_eq_self]
  intro w hw
  have hne : w.task ≠ t := by
    rintro rfl
    exact h (List.mem_map_of_mem hw)
  simpa using hne

theorem nodup_without {t : Nat} {ws : List Waiter} (h : (ws.map task).Nodup) :
    ((without t ws).map task).Nodup :=
  h.sublist (List.filter_sublist.map _)

/-! ### The queue of a gate -/

/-- How the waiters at a gate stand, by whether the gate is held. -/
def Orderly (held : Bool) (ws : List Waiter) : Prop :=
  (∀ w ∈ ws.head?, w.mark ≠ if held then .woken else .parked) ∧ ∀ w ∈ ws.tail, w.mark ≠ .woken

theorem orderly_nil (held : Bool) : Orderly held [] := by simp [Orderly]

theorem orderly_cons {held : Bool} {w : Waiter} {ws : List Waiter} :
    Orderly held (w :: ws) ↔
      w.mark ≠ (if held then .woken else .parked) ∧ ∀ v ∈ ws, v.mark ≠ .woken := by
  simp [Orderly]

theorem orderly_held_iff {ws : List Waiter} :
    Orderly true ws ↔ ∀ w ∈ ws, w.mark ≠ .woken := by
  cases ws with
  | nil => simp [Orderly]
  | cons w ws => rw [orderly_cons, List.forall_mem_cons]; rfl

/-- The queue of a free gate, once its first waiter is woken. -/
theorem orderly_wakeFirst {ws : List Waiter} (h : ∀ w ∈ ws.tail, w.mark ≠ .woken) :
    Orderly false (wakeFirst ws).1 := by
  cases ws with
  | nil => exact orderly_nil _
  | cons w ws => exact orderly_cons.2 ⟨wake_ne_parked w, h⟩

theorem Orderly.tail_without {held : Bool} {ws : List Waiter} (h : Orderly held ws) (t : Nat) :
    ∀ w ∈ (without t ws).tail, w.mark ≠ .woken := by
  cases ws with
  | nil => simp [without]
  | cons v ws =>
    have hs : (without t (v :: ws)).tail.Sublist (without t ws) := by
      by_cases hv : v.task = t
      · simpa [without, hv] using List.tail_sublist _
      · simp [without, hv]
    intro w hw
    exact (orderly_cons.1 h).2 w (mem_without.1 (hs.subset hw)).1

/-- Whoever was woken at a gate is the first in its queue. -/
theorem Orderly.eq_head {held : Bool} {ws : List Waiter} (h : Orderly held ws) {w : Waiter}
    (hw : w ∈ ws) (hm : w.mark = .woken) : held = false ∧ ws.head? = some w := by
  cases ws with
  | nil => cases hw
  | cons v ws =>
    rw [orderly_cons] at h
    rcases List.mem_cons.1 hw with rfl | hw
    · refine ⟨?_, rfl⟩
      by_contra hh
      rw [Bool.not_eq_false] at hh
      exact h.1 (by rw [hm, hh]; rfl)
    · exact absurd hm (h.2 w hw)

/-- The one that was woken leaves nobody behind who was. -/
theorem Orderly.not_woken_without {held : Bool} {ws : List Waiter} (h : Orderly held ws) {t : Nat}
    (ht : (⟨t, .woken⟩ : Waiter) ∈ ws) : ∀ w ∈ without t ws, w.mark ≠ .woken := by
  intro w hw hm
  obtain ⟨hw, hne⟩ := mem_without.1 hw
  have h₁ := (h.eq_head ht rfl).2
  rw [(h.eq_head hw hm).2, Option.some.injEq] at h₁
  exact hne (congrArg task h₁)

/-- A newcomer parks itself at a gate that it is not admitted to. -/
theorem Orderly.append_parked {held : Bool} {ws : List Waiter} (h : Orderly held ws) (t : Nat)
    (hc : held = true ∨ ws ≠ []) : Orderly held (ws ++ [⟨t, .parked⟩]) := by
  cases ws with
  | nil =>
    rcases hc with rfl | hc
    · simp [Orderly]
    · exact absurd rfl hc
  | cons w ws =>
    rw [orderly_cons] at h
    rw [List.cons_append, orderly_cons]
    refine ⟨h.1, fun v hv => ?_⟩
    rcases List.mem_append.1 hv with hv | hv
    · exact h.2 v hv
    · simp [List.mem_singleton.1 hv]

theorem Orderly.cancel {held : Bool} {ws : List Waiter} (h : Orderly held ws) (t : Nat) :
    Orderly held (cancel t ws) := by
  cases ws with
  | nil => exact h
  | cons w ws =>
    rw [orderly_cons] at h
    rw [Waiter.cancel, List.map_cons, orderly_cons]
    refine ⟨?_, fun v hv => ?_⟩
    · split
      · cases held <;> simp
      · exact h.1
    · obtain ⟨u, hu, rfl⟩ := List.mem_map.1 hv
      split
      · simp
      · exact h.2 u hu

end Outflow.Waiter
