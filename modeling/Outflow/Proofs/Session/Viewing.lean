import Outflow.Proofs.Notices
import Outflow.Proofs.Session.Aside

/-!
# What a lens shows of a run

A lens that shows all tasks that have to do with what it looks at goes on showing them, and each turn of the
session is a turn of what it shows, or is not seen.

* `Session.Viewed`: a session of which a lens shows all that has to do with what is looked at;
* `Session.noticesOf`: the notices that some of the tasks give;
* `Viewed.exists_turn`, `Viewed.exists_settle`: what is shown of a turn, and of all turns to the end;
* `focus_settle`: sessions of which lenses show the same settle to sessions of which they show the same.
-/

namespace Outflow.Session

variable {s s' : Session} {L L' : Lens} {t p : Nat} {task task' : Task}

/-! ### Turns -/

/-- A call goes on with the members that it had. -/
theorem Fate.members (h : Fate s t task task') : task'.call.pipe? = task.call.pipe?
    ∧ task'.call.backing? = task.call.backing? ∧ task'.call.outlet? = task.call.outlet? := by
  have hafter : ∀ (entry d : Destination) (outcome : Outcome),
      (Task.after { task with entry } d outcome).call.pipe? = task.call.pipe?
        ∧ (Task.after { task with entry } d outcome).call.backing? = task.call.backing?
        ∧ (Task.after { task with entry } d outcome).call.outlet? = task.call.outlet? := by
    intro entry d outcome
    unfold Task.after
    split
    · exact ⟨rfl, rfl, rfl⟩
    · rename_i c hc
      exact Call.members_of_more hc
  cases h with
  | cancelled => exact ⟨rfl, rfl, rfl⟩
  | queued => exact ⟨rfl, rfl, rfl⟩
  | waits => exact ⟨rfl, rfl, rfl⟩
  | answered => exact hafter ..
  | served => exact hafter ..

theorem regards_congr {c c' : Call} (hp : c'.pipe? = c.pipe?) (hb : c'.backing? = c.backing?)
    (ho : c'.outlet? = c.outlet?) (r : Region) : s.Regards c' r ↔ s.Regards c r := by
  cases r <;> simp only [Regards, Concerns, hp, hb, ho]

/-- A turn ends one task at most. -/
theorem endings_turn (h : Sound s none none) :
    ∃ ts : List Nat, s.turn.endings = s.endings ++ ts ∧ ∀ t ∈ ts, t < s.tasks.length := by
  obtain ⟨-, he⟩ | ⟨n, k, rest, -, he⟩ | ⟨t, rest, task, -, hk, -, hc⟩ := turn_cases h
  · exact ⟨[], by rw [he, List.append_nil], by simp⟩
  · refine ⟨[], ?_, by simp⟩
    rw [he, List.append_nil]
    rfl
  · obtain ⟨-, he⟩ | ⟨-, he⟩ := hc.recorded
    · obtain ⟨hlt, -⟩ := List.getElem?_eq_some_iff.1 hk
      exact ⟨[t], he, by simpa using hlt⟩
    · exact ⟨[], by rw [he, List.append_nil], by simp⟩

theorem length_run (h : Sound s none none) (n : Nat) : (s.run n).tasks.length = s.tasks.length := by
  induction n generalizing s with
  | zero => rfl
  | succ n ih =>
    rw [Session.run]
    split
    · rfl
    · rw [ih h.turn, length_turn h]

theorem endings_run (h : Sound s none none) (n : Nat) : ∃ ts : List Nat, (s.run n).endings = s.endings ++ ts := by
  induction n generalizing s with
  | zero => exact ⟨[], (List.append_nil _).symm⟩
  | succ n ih =>
    rw [Session.run]
    split
    · exact ⟨[], (List.append_nil _).symm⟩
    · obtain ⟨ts, hts, -⟩ := endings_turn h
      obtain ⟨us, hus⟩ := ih h.turn
      exact ⟨ts ++ us, by rw [hus, hts, List.append_assoc]⟩

/-- All that has to do with what is looked at is shown. -/
structure Viewed (L : Lens) (s : Session) : Prop where
  sound : Sound s none none
  parted : Parted L s
  bounded : ∀ t ∈ L.tasks, t < s.tasks.length
  ended : ∀ t ∈ s.endings, t < s.tasks.length

theorem Viewed.turn (h : Viewed L s) : Viewed L s.turn := by
  refine ⟨h.sound.turn, fun t task' hk' r hr => ?_, fun t ht => ?_, fun t ht => ?_⟩
  · obtain ⟨task, hk⟩ := task_before_turn h.sound hk'
    have hr' : s.Regards task'.call r := by
      have ho := outlets_turn h.sound
      have hg := gatePipe?_turn h.sound
      cases r <;> simpa only [Regards, Concerns, LeadsTo, ho, hg] using hr
    refine h.parted t task hk r ?_
    obtain ⟨rest, task'', -, hk'', hf⟩ | ⟨hk'', -⟩ := task_turn h.sound hk
    · rw [hk'] at hk''
      cases hk''
      obtain ⟨hp, hb, ho⟩ := hf.members
      exact (regards_congr hp hb ho r).1 hr'
    · rw [hk'] at hk''
      cases hk''
      exact hr'
  · rw [length_turn h.sound]
    exact h.bounded t ht
  · rw [length_turn h.sound]
    obtain ⟨ts, he, hts⟩ := endings_turn h.sound
    rw [he] at ht
    rcases List.mem_append.1 ht with ht | ht
    · exact h.ended t ht
    · exact hts t ht

/-- The notices that some tasks give in the next turn. -/
def noticesNow (ts : List Nat) (s : Session) : List Notice :=
  match s.ready with
  | .task t :: _ => if t ∈ ts then s.turn.notices.drop s.notices.length else []
  | _ => []

/-- The notices that some tasks give in a number of turns. -/
def noticesOf (ts : List Nat) (s : Session) : Nat → List Notice
  | 0 => []
  | n + 1 => s.noticesNow ts ++ s.turn.noticesOf ts n

theorem notices_turn (h : Sound s none none) : ∃ ns : List Notice, s.turn.notices = s.notices ++ ns := by
  obtain ⟨-, he⟩ | ⟨n, k, rest, -, he⟩ | ⟨t, rest, task, hr, hk, -, -⟩ := turn_cases h
  · exact ⟨[], by rw [he, List.append_nil]⟩
  · refine ⟨[], ?_⟩
    rw [he, List.append_nil]
    rfl
  · obtain ⟨-, -, hn⟩ | ⟨outcome, entry, d, -, -, -, hn⟩ := turn_of_outcome? h hr hk
    · exact ⟨[], by rw [hn, List.append_nil]⟩
    · exact ⟨_, hn⟩

/-- The notices that some of the tasks give are among all notices. -/
theorem noticesOf_sublist (h : Sound s none none) (ts : List Nat) (n : Nat) :
    ∃ ns : List Notice, (turn^[n] s).notices = s.notices ++ ns ∧ (s.noticesOf ts n).Sublist ns := by
  induction n generalizing s with
  | zero => exact ⟨[], (List.append_nil _).symm, .slnil⟩
  | succ n ih =>
    obtain ⟨now, hnow⟩ := notices_turn h
    obtain ⟨later, hlater, hsub⟩ := ih h.turn
    refine ⟨now ++ later, by rw [Function.iterate_succ_apply, hlater, hnow, List.append_assoc], ?_⟩
    refine List.Sublist.append ?_ hsub
    unfold noticesNow
    split
    · split
      · rw [hnow, List.drop_left]
      · exact List.nil_sublist _
    · exact List.nil_sublist _

/-- All tasks together give all notices. -/
theorem noticesOf_all (h : Sound s none none) {ts : List Nat} (hts : ∀ t < s.tasks.length, t ∈ ts) (n : Nat) :
    (turn^[n] s).notices = s.notices ++ s.noticesOf ts n := by
  induction n generalizing s with
  | zero => exact (List.append_nil _).symm
  | succ n ih =>
    have hnow : s.turn.notices = s.notices ++ s.noticesNow ts := by
      obtain ⟨hr, he⟩ | ⟨n, k, rest, hr, he⟩ | ⟨t, rest, task, hr, hk, -, -⟩ := turn_cases h
      · rw [he, noticesNow, hr, List.append_nil]
      · rw [noticesNow, hr, he, List.append_nil]
        rfl
      · obtain ⟨ns, hns⟩ := notices_turn h
        obtain ⟨hlt, -⟩ := List.getElem?_eq_some_iff.1 hk
        simp only [noticesNow, hr, if_pos (hts t hlt)]
        rw [hns, List.drop_left]
    rw [Function.iterate_succ_apply, ih h.turn (by rwa [length_turn h]), hnow, noticesOf, List.append_assoc]

/-- What a lens shows of a session, with the notices that were shown so far. -/
def shown (L : Lens) (ns : List Notice) (s : Session) : Session := { s.focus L with notices := ns }

theorem follow_eq_shown (L : Lens) (ns : List Notice) (s : Session) :
    s.follow L ns s.notices.length = s.shown L ns := by
  rw [follow, List.drop_length, List.append_nil, shown]

/-- A turn is a turn of what is shown, or it is not seen. -/
theorem Viewed.exists_turn (h : Viewed L s) (ns : List Notice) :
    ∃ m, Session.turn^[m] (s.shown L ns) = s.turn.shown L (ns ++ s.noticesNow L.tasks) := by
  have hunseen : s.turn.focus L = s.focus L → s.noticesNow L.tasks = [] →
      Session.turn^[0] (s.shown L ns) = s.turn.shown L (ns ++ s.noticesNow L.tasks) := by
    intro hfocus hnone
    rw [hnone, List.append_nil, shown, shown, hfocus]
    rfl
  have hseen : (s.follow L ns s.notices.length).turn = s.turn.follow L ns s.notices.length →
      s.noticesNow L.tasks = s.turn.notices.drop s.notices.length →
      Session.turn^[1] (s.shown L ns) = s.turn.shown L (ns ++ s.noticesNow L.tasks) := by
    intro hturn hnow
    rw [Function.iterate_one, ← follow_eq_shown, hturn, hnow]
    rfl
  cases hr : s.ready with
  | nil => exact ⟨0, hunseen (by simp only [Session.turn, hr]) (by simp only [noticesNow, hr])⟩
  | cons job rest =>
    cases job with
    | deliver n copies =>
      have hnow : s.noticesNow L.tasks = [] := by simp only [noticesNow, hr]
      cases hall : L.scope.isAll with
      | true =>
        have hsame : s.turn.notices = s.notices := by simp only [Session.turn, hr, deliver]
        exact ⟨1, hseen (turn_follow_deliver hall hr) (by rw [hnow, hsame, List.drop_length])⟩
      | false => exact ⟨0, hunseen (focus_turn_deliver hall hr) hnow⟩
    | task t =>
      by_cases ht : t ∈ L.tasks
      · have hnow : s.noticesNow L.tasks = s.turn.notices.drop s.notices.length := by
          simp only [noticesNow, hr, if_pos ht]
        exact ⟨1, hseen (turn_follow h.parted h.sound (Nat.le_refl _) hr ht) hnow⟩
      · exact ⟨0, hunseen (focus_turn h.parted h.sound hr ht) (by simp only [noticesNow, hr, if_neg ht])⟩

theorem Viewed.exists_iterate (h : Viewed L s) (ns : List Notice) (n : Nat) :
    ∃ m, Session.turn^[m] (s.shown L ns) = (Session.turn^[n] s).shown L (ns ++ s.noticesOf L.tasks n) := by
  induction n generalizing s ns with
  | zero => exact ⟨0, by rw [noticesOf, List.append_nil]; rfl⟩
  | succ n ih =>
    obtain ⟨m, hm⟩ := h.exists_turn ns
    obtain ⟨m', hm'⟩ := ih h.turn (ns ++ s.noticesNow L.tasks)
    refine ⟨m' + m, ?_⟩
    rw [Function.iterate_add_apply, hm, hm', Function.iterate_succ_apply, noticesOf, List.append_assoc]

theorem Viewed.run (h : Viewed L s) (n : Nat) : Viewed L (s.run n) := by
  rw [run_eq_iterate]
  exact Function.Iterate.rec (Viewed L) h (fun _ h => h.turn) n

theorem Viewed.exists_settle (h : Viewed L s) :
    ∃ m, Session.turn^[m] (s.shown L []) = s.settle.shown L (s.noticesOf L.tasks s.budget) := by
  obtain ⟨m, hm⟩ := h.exists_iterate [] s.budget
  exact ⟨m, by rw [settle, run_eq_iterate, hm, List.nil_append]⟩

/-- When two sessions settle of which the same is shown, the same is shown of them, and the tasks that are shown
have given the same notices. -/
theorem focus_settle (h : Viewed L s) (h' : Viewed L' s') (hsame : s'.focus L' = s.focus L)
    (hr : s.settle.ready = []) (hr' : s'.settle.ready = []) :
    s'.settle.focus L' = s.settle.focus L
      ∧ s'.noticesOf L'.tasks s'.budget = s.noticesOf L.tasks s.budget := by
  obtain ⟨m, hm⟩ := h.exists_settle
  obtain ⟨m', hm'⟩ := h'.exists_settle
  have hstart : s'.shown L' [] = s.shown L [] := by rw [shown, shown, hsame]
  have hend : (turn^[m] (s.shown L [])).ready = [] := by
    rw [hm]
    exact congrArg (List.filterMap L.job) hr
  have hend' : (turn^[m'] (s.shown L [])).ready = [] := by
    rw [← hstart, hm']
    exact congrArg (List.filterMap L'.job) hr'
  have hshown : s'.settle.shown L' (s'.noticesOf L'.tasks s'.budget)
      = s.settle.shown L (s.noticesOf L.tasks s.budget) := by
    rw [← hm, ← hm', hstart]
    exact (iterate_eq_of_ready_nil hend hend').symm
  exact ⟨congrArg (fun q => { q with notices := [] }) hshown, congrArg Session.notices hshown⟩

end Outflow.Session
