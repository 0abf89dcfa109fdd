import Outflow.Proofs.Session.Views
import Outflow.Proofs.Waiter

/-!
# Where the tasks are

A task that has not ended is in exactly one place: it stands in the ready queue and has not begun its
operation, or it is in the one waiting list that its stage names.  There it is parked, or it stands in
the ready queue as well; nobody who is parked is to end, and whoever was cancelled there is.

* `Session.Placed s busy`: all tasks of a session are where they should be, except the task `busy`, which
  is having its turn and is nowhere;
* `Placed.rouse`: waking or cancelling waiters;
* `Placed.depart`, `Placed.settle`: a turn begins, and a turn ends;
* `Placed.absent`: a task that is not there yet.
-/

namespace Outflow.Session

/-- The tasks of a session are where they should be, except for one that has its turn. -/
structure Placed (s : Session) (busy : Option Nat) : Prop where
  nodup : ∀ a, ((s.waiters a).map Waiter.task).Nodup
  place_of_mem : ∀ a, ∀ w ∈ s.waiters a, busy ≠ some w.task ∧ s.place? w.task = some a
  mem_of_place : ∀ t a, busy ≠ some t → s.place? t = some a → t ∈ (s.waiters a).map Waiter.task
  turnsOf_of_mem : ∀ a, ∀ w ∈ s.waiters a, s.turnsOf w.task = if w.mark = .parked then 0 else 1
  turnsOf_of_place : ∀ t, busy ≠ some t → s.place? t = none →
    s.turnsOf t = if (s.stage? t).any Stage.isFresh then 1 else 0
  turnsOf_busy : ∀ t, busy = some t → s.turnsOf t = 0
  isCancelling_of_mem : ∀ a, ∀ w ∈ s.waiters a, w.mark ≠ .woken →
    s.isCancelling w.task = decide (w.mark = .cancelled)

namespace Placed

variable {s s' : Session} {busy : Option Nat} {t : Nat} {a : Place}

/-- A task that has its turn waits nowhere. -/
theorem not_mem (h : Placed s (some t)) (a : Place) : t ∉ (s.waiters a).map Waiter.task := by
  intro ht
  obtain ⟨w, hw, rfl⟩ := List.mem_map.1 ht
  exact (h.place_of_mem a w hw).1 rfl

theorem turnsOf_le (h : Placed s none) (t : Nat) : s.turnsOf t ≤ 1 := by
  cases hp : s.place? t with
  | none =>
    rw [h.turnsOf_of_place t (by simp) hp]
    split <;> omega
  | some a =>
    obtain ⟨w, hw, rfl⟩ := List.mem_map.1 (h.mem_of_place t a (by simp) hp)
    rw [h.turnsOf_of_mem a w hw]
    split <;> omega

/-- Some waiters that were parked get another mark, and their tasks are put in the ready queue. -/
theorem rouse (h : Placed s busy) {ws : List Waiter} {ts : List Nat} {m : Mark}
    (hr : Waiter.Roused m (s.waiters a) ws ts) (hm : m ≠ .parked)
    (hw : s'.waiters = Function.update s.waiters a ws)
    (ht : ∀ u, s'.turnsOf u = s.turnsOf u + ts.count u) (hs : s'.stage? = s.stage?)
    (hc : ∀ u, ts.count u = 0 → s'.isCancelling u = s.isCancelling u)
    (hmc : m ≠ .woken → ∀ u, ts.count u = 1 → s'.isCancelling u = true) : Placed s' busy := by
  have hp := place?_congr hs
  -- whoever does not wait in the list is not among those roused
  have hout : ∀ u, s.place? u ≠ some a → ts.count u = 0 := by
    intro u hu
    refine hr.count_eq_zero fun hmem => ?_
    obtain ⟨w, hw, rfl⟩ := List.mem_map.1 hmem
    exact hu (h.place_of_mem a w hw).2
  have hbusy : ∀ u, busy = some u → ts.count u = 0 := by
    intro u hu
    refine hr.count_eq_zero fun hmem => ?_
    obtain ⟨w, hw, rfl⟩ := List.mem_map.1 hmem
    exact (h.place_of_mem a w hw).1 hu
  have htask : ∀ b, (s'.waiters b).map Waiter.task = (s.waiters b).map Waiter.task := by
    intro b
    rw [hw]
    by_cases hb : b = a
    · subst hb
      rw [Function.update_self, hr.map_task]
    · rw [Function.update_of_ne hb]
  -- every waiter is an old one, or an old one with its mark changed
  have hmem : ∀ b, ∀ w ∈ s'.waiters b, (w ∈ s.waiters b ∧ ts.count w.task = 0) ∨
      (⟨w.task, .parked⟩ ∈ s.waiters b ∧ w.mark = m ∧ ts.count w.task = 1) := by
    intro b w hwb
    rw [hw] at hwb
    by_cases hb : b = a
    · subst hb
      rw [Function.update_self] at hwb
      exact hr.cases_of_mem (h.nodup b) hwb
    · rw [Function.update_of_ne hb] at hwb
      refine .inl ⟨hwb, hout _ ?_⟩
      rw [(h.place_of_mem b w hwb).2]
      exact fun e => hb (Option.some.inj e)
  constructor
  case nodup =>
    intro b
    rw [htask]
    exact h.nodup b
  case place_of_mem =>
    intro b w hwb
    rw [hp]
    rcases hmem b w hwb with ⟨h₁, -⟩ | ⟨h₁, -⟩
    · exact h.place_of_mem b w h₁
    · have hold := h.place_of_mem b _ h₁
      exact hold
  case mem_of_place =>
    intro u b hu hub
    rw [hp] at hub
    rw [htask]
    exact h.mem_of_place u b hu hub
  case turnsOf_of_mem =>
    intro b w hwb
    rw [ht]
    rcases hmem b w hwb with ⟨h₁, h₂⟩ | ⟨h₁, h₂, h₃⟩
    · rw [h₂, h.turnsOf_of_mem b w h₁, Nat.add_zero]
    · have hz := h.turnsOf_of_mem b _ h₁
      rw [if_pos rfl] at hz
      rw [hz, h₃, h₂, if_neg hm]
  case turnsOf_of_place =>
    intro u hu hub
    rw [hp] at hub
    rw [ht, hs, hout u (by rw [hub]; simp), h.turnsOf_of_place u hu hub, Nat.add_zero]
  case turnsOf_busy =>
    intro u hu
    rw [ht, hbusy u hu, h.turnsOf_busy u hu]
  case isCancelling_of_mem =>
    intro b w hwb hwm
    rcases hmem b w hwb with ⟨h₁, h₂⟩ | ⟨-, h₂, h₃⟩
    · rw [hc _ h₂]
      exact h.isCancelling_of_mem b w h₁ hwm
    · rw [h₂] at hwm ⊢
      rw [hmc hwm _ h₃]
      cases m with
      | parked => exact absurd rfl hm
      | woken => exact absurd rfl hwm
      | cancelled => rfl

/-- A task begins its turn: it is taken from the ready queue, and from the list in which it waits. -/
theorem depart (h : Placed s none) (hpos : s.turnsOf t = s'.turnsOf t + 1)
    (ht : ∀ u, u ≠ t → s'.turnsOf u = s.turnsOf u) (hs : s'.stage? = s.stage?)
    (hc : s'.isCancelling = s.isCancelling)
    (hw : ∀ a, s'.waiters a =
      if s.place? t = some a then Waiter.without t (s.waiters a) else s.waiters a) :
    Placed s' (some t) := by
  have hp := place?_congr hs
  -- the lists have the waiters they had, but for `t`
  have hmem : ∀ a w, w ∈ s'.waiters a ↔ w ∈ s.waiters a ∧ w.task ≠ t := by
    intro a w
    rw [hw]
    split
    · exact Waiter.mem_without
    · rename_i ha
      refine ⟨fun hwa => ⟨hwa, ?_⟩, And.left⟩
      rintro rfl
      exact ha (h.place_of_mem a w hwa).2
  have hne : ∀ u, some t ≠ some u → u ≠ t := fun u hu e => hu (by rw [e])
  constructor
  case nodup =>
    intro a
    rw [hw]
    split
    · exact Waiter.nodup_without (h.nodup a)
    · exact h.nodup a
  case place_of_mem =>
    intro a w hwa
    obtain ⟨h₁, h₂⟩ := (hmem a w).1 hwa
    rw [hp]
    exact ⟨fun e => h₂ (Option.some.inj e).symm, (h.place_of_mem a w h₁).2⟩
  case mem_of_place =>
    intro u a hu hua
    rw [hp] at hua
    obtain ⟨w, hwa, rfl⟩ := List.mem_map.1 (h.mem_of_place u a (by simp) hua)
    exact List.mem_map_of_mem ((hmem a w).2 ⟨hwa, hne _ hu⟩)
  case turnsOf_of_mem =>
    intro a w hwa
    obtain ⟨h₁, h₂⟩ := (hmem a w).1 hwa
    rw [ht _ h₂, h.turnsOf_of_mem a w h₁]
  case turnsOf_of_place =>
    intro u hu hua
    rw [hp] at hua
    rw [ht u (hne u hu), hs, h.turnsOf_of_place u (by simp) hua]
  case turnsOf_busy =>
    intro u hu
    cases hu
    have hle := h.turnsOf_le t
    omega
  case isCancelling_of_mem =>
    intro a w hwa hwm
    rw [hc]
    exact h.isCancelling_of_mem a w ((hmem a w).1 hwa).1 hwm

/-- A task ends its turn: it is parked in the list that its new stage names, or it stands in the ready
queue with its next operation, or it has ended. -/
theorem settle (h : Placed s (some t)) {st : Stage}
    (hs : s'.stage? = Function.update s.stage? t (some st))
    (ht : ∀ u, s'.turnsOf u = if u = t ∧ st.isFresh = true then 1 else s.turnsOf u)
    (hc : ∀ u, u ≠ t → s'.isCancelling u = s.isCancelling u)
    (hct : st.place? ≠ none → s'.isCancelling t = false)
    (hw : ∀ a, s'.waiters a =
      if st.place? = some a then s.waiters a ++ [⟨t, .parked⟩] else s.waiters a) :
    Placed s' none := by
  have hpt : s'.place? t = st.place? := by rw [place?, hs, Function.update_self, Option.bind_some]
  have hpu : ∀ u, u ≠ t → s'.place? u = s.place? u := by
    intro u hu
    rw [place?, hs, Function.update_of_ne hu, place?]
  have hfresh : st.place? ≠ none → st.isFresh = false := by
    cases st <;> simp [Stage.place?, Stage.isFresh]
  have htu : ∀ u, u ≠ t → s'.turnsOf u = s.turnsOf u := by
    intro u hu
    rw [ht, if_neg fun e => hu e.1]
  have hne : ∀ u, u ≠ t → some t ≠ some u := fun u hu e => hu (Option.some.inj e).symm
  have hold : ∀ a, ∀ w ∈ s.waiters a, w.task ≠ t := by
    intro a w hwa e
    exact (h.place_of_mem a w hwa).1 (by rw [e])
  -- the lists have the waiters they had, and `t` is parked where its stage says
  have hmem : ∀ a w, w ∈ s'.waiters a ↔
      w ∈ s.waiters a ∨ (st.place? = some a ∧ w = ⟨t, .parked⟩) := by
    intro a w
    rw [hw]
    split
    · rename_i ha
      simp [ha]
    · rename_i ha
      simp [ha]
  constructor
  case nodup =>
    intro a
    rw [hw]
    split
    · rw [List.map_append, List.nodup_append]
      refine ⟨h.nodup a, by simp, ?_⟩
      rintro u hu v hv rfl
      have hut : u = t := by simpa using hv
      exact h.not_mem a (hut ▸ hu)
    · exact h.nodup a
  case place_of_mem =>
    intro a w hwa
    refine ⟨by simp, ?_⟩
    rcases (hmem a w).1 hwa with h₁ | ⟨h₁, rfl⟩
    · rw [hpu _ (hold a w h₁)]
      exact (h.place_of_mem a w h₁).2
    · rw [hpt, h₁]
  case mem_of_place =>
    intro u a _ hua
    by_cases hu : u = t
    · subst hu
      rw [hpt] at hua
      exact List.mem_map.2 ⟨⟨u, .parked⟩, (hmem a _).2 (.inr ⟨hua, rfl⟩), rfl⟩
    · rw [hpu u hu] at hua
      obtain ⟨w, hwa, rfl⟩ := List.mem_map.1 (h.mem_of_place u a (hne u hu) hua)
      exact List.mem_map_of_mem ((hmem a w).2 (.inl hwa))
  case turnsOf_of_mem =>
    intro a w hwa
    rcases (hmem a w).1 hwa with h₁ | ⟨h₁, rfl⟩
    · rw [htu _ (hold a w h₁), h.turnsOf_of_mem a w h₁]
    · rw [ht, hfresh (by simp [h₁]), if_neg (by simp), h.turnsOf_busy t rfl, if_pos rfl]
  case turnsOf_of_place =>
    intro u _ hua
    by_cases hu : u = t
    · subst hu
      rw [hs, Function.update_self, ht, h.turnsOf_busy u rfl]
      cases st <;> simp [Stage.isFresh]
    · rw [hpu u hu] at hua
      rw [htu u hu, hs, Function.update_of_ne hu]
      exact h.turnsOf_of_place u (hne u hu) hua
  case turnsOf_busy =>
    intro u hu
    cases hu
  case isCancelling_of_mem =>
    intro a w hwa hwm
    rcases (hmem a w).1 hwa with h₁ | ⟨h₁, rfl⟩
    · rw [hc _ (hold a w h₁)]
      exact h.isCancelling_of_mem a w h₁ hwm
    · rw [hct (by simp [h₁])]
      rfl

/-- A task that is not there yet is nowhere. -/
theorem absent (h : Placed s none) (hs : s.stage? t = none) : Placed s (some t) := by
  have hp : s.place? t = none := by rw [place?, hs]; rfl
  refine ⟨h.nodup, fun a w hwa => ⟨?_, (h.place_of_mem a w hwa).2⟩,
    fun u a _ hua => h.mem_of_place u a (by simp) hua, h.turnsOf_of_mem,
    fun u _ hua => h.turnsOf_of_place u (by simp) hua, ?_, h.isCancelling_of_mem⟩
  · rintro e
    have hw := (h.place_of_mem a w hwa).2
    rw [← Option.some.inj e, hp] at hw
    cases hw
  · rintro u hu
    cases hu
    rw [h.turnsOf_of_place t (by simp) hp, hs]
    rfl

/-- Only the views matter. -/
theorem congr (h : Placed s busy) (hw : s'.waiters = s.waiters) (hs : s'.stage? = s.stage?)
    (ht : s'.turnsOf = s.turnsOf)
    (hc : ∀ a, ∀ w ∈ s.waiters a, w.mark ≠ .woken → s'.isCancelling w.task = s.isCancelling w.task) :
    Placed s' busy := by
  have hp := place?_congr hs
  refine ⟨?_, ?_, ?_, ?_, ?_, ?_, fun a w hwa hwm => ?_⟩
  · rw [hw]; exact h.nodup
  · rw [hw, hp]; exact h.place_of_mem
  · rw [hw, hp]; exact h.mem_of_place
  · rw [hw, ht]; exact h.turnsOf_of_mem
  · rw [hp, hs, ht]; exact h.turnsOf_of_place
  · rw [ht]; exact h.turnsOf_busy
  · rw [hw] at hwa
    rw [hc a w hwa hwm]
    exact h.isCancelling_of_mem a w hwa hwm

end Placed

end Outflow.Session
