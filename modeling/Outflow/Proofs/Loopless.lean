import Outflow.Proofs.Script
import Outflow.Proofs.Settling

/-!
# Scripts without forwarding

A script that never forwards has no forwarding calls, so each time it settles nothing is left to run.

* `Step.IsLoopless`: the steps that do not forward;
* `State.called?`, `State.tally`: the member on which a step makes a task, and the tasks with what has been recorded;
* `State.Loopless`: a script without forwarding calls;
* `Loopless.tasks_perform`: what a step does to the tasks;
* `Loopless.perform`, `Loopless.settle`, `Loopless.step`: it stays so;
* `Loopless.ready_settle`: its session settles.
-/

namespace Outflow

namespace Session

variable {s s' : Session}

theorem forwards_congr (h : s'.tasks = s.tasks) : s'.forwards = s.forwards := by
  rw [forwards, unfinished, h, forwards, unfinished]

theorem forwards_cancel (h : Sound s none none) (t : Nat) (hf : s.forwards = 0) :
    (s.cancel t).1.forwards = 0 := by
  rcases (fields_cancel h t).2.2.2.2 with hsame | hask
  · rw [forwards_congr hsame, hf]
  · rw [forwards_congr hask]
    rw [forwards_eq_zero_iff] at hf ⊢
    intro u task' hk' hu
    obtain ⟨task, hk, hcall, hstage, -⟩ := task_ask hk'
    rw [hcall]
    refine hf u task hk ?_
    simpa only [Task.isUnfinished, Task.outcome?, hstage] using hu

theorem forwards_run (h : Sound s none none) (hf : s.forwards = 0) (n : Nat) : (s.run n).forwards = 0 := by
  induction n generalizing s with
  | zero => exact hf
  | succ n ih =>
    rw [run]
    split
    · exact hf
    · exact ih h.turn (forwards_turn h hf)

end Session

namespace Script

variable {st : State}

/-- The steps that know members by their names only and do not forward. -/
def Step.IsLoopless : Step → Prop
  | .forward .. => False
  | s => s.IsPlain

theorem Step.IsLoopless.isPlain {s : Step} (h : s.IsLoopless) : s.IsPlain := by
  cases s <;> first | exact h | exact absurd h id

/-- Only the method that forwards makes a forwarding call. -/
theorem Method.isForward_call? {method : Method} (hm : ∀ limit target, method ≠ .forward limit target)
    {m : Member} {c : Call} (hc : method.call? m = some c) : c.isForward = false := by
  have hsink : ∀ r, (m.backing?.map fun b => Call.backing b r) = some c → c.isForward = false := by
    intro r he
    obtain ⟨b, -, rfl⟩ := Option.map_eq_some_iff.1 he
    rfl
  cases method with
  | sink r =>
    cases m with
    | outlet o => cases hc; rfl
    | readEnd p => exact hsink r hc
    | writeEnd p => exact hsink r hc
    | gate g => exact hsink r hc
    | stream n => exact hsink r hc
  | forward limit target => exact absurd rfl (hm limit target)
  | leave failing =>
    cases m with
    | outlet o => cases failing <;> cases hc <;> rfl
    | readEnd p => cases hc; rfl
    | writeEnd p => cases hc; rfl
    | _ => cases hc
  | _ =>
    cases m <;> cases hc
    all_goals rfl

/-- The name of the task that a step makes. -/
def Step.taskName : Step → String
  | .call task _ _ => task
  | _ => ""

namespace State

/-- The member on which a step makes a task.  A step that forwards is none of them. -/
def called? (st : State) : Step → Option Member
  | .call _ name method =>
    match st.member name with
    | .ok m => if (method.call? m).isSome then some m else none
    | .error _ => none
  | _ => none

/-- The tasks of a script with their names, and what has been recorded and reported. -/
structure Tally where
  names : List String
  tasks : List Task
  endings : List Nat
  endingsSeen : Nat
  notices : List Notice
  noticesSeen : Nat

def tally (st : State) : Tally where
  names := st.tasks
  tasks := st.session.tasks
  endings := st.session.endings
  endingsSeen := st.endingsSeen
  notices := st.session.notices
  noticesSeen := st.noticesSeen

theorem tally_post (n : Notice) (st : State) : { st with session := st.session.post n }.tally = st.tally := by
  simp only [tally, Session.post]
  split <;> rfl

/-- A script whose session has no forwarding calls that have not ended. -/
structure Loopless (st : State) : Prop where
  proper : st.Proper
  forwards : st.session.forwards = 0

namespace Loopless

theorem start (environment : Environment) (out err : Stream.Traits) :
    (State.start environment out err).Loopless :=
  ⟨.start environment out err, rfl⟩

/-- Nothing is left to run when the session has settled. -/
theorem ready_settle (h : st.Loopless) : st.session.settle.ready = [] :=
  Session.ready_settle h.proper.reachable.sound h.forwards

/-- A step makes a task, or asks one to end, or leaves the tasks, and all that was recorded, as they are. -/
theorem tasks_perform (st : State) {s : Step} (hs : s.IsLoopless) :
    (∃ m c, st.called? s = some m ∧ c.isForward = false ∧ (st.perform s).1 =
        { st with session := (st.session.spawn c).1, tasks := st.tasks ++ [s.taskName] })
      ∨ (st.called? s = none ∧ ∃ t, (st.perform s).1 = { st with session := (st.session.cancel t).1 })
      ∨ (st.called? s = none ∧ (st.perform s).1.tally = st.tally) := by
  have hlogged : ∀ written, (st.logged written).1.tally = st.tally := by
    intro written
    unfold logged
    split <;> rfl
  cases s with
  | call task name method =>
    simp only [State.perform, callNamed, called?]
    cases st.member name with
    | error e => exact .inr (.inr ⟨rfl, rfl⟩)
    | ok m =>
      simp only [State.call]
      cases hc : method.call? m with
      | none => exact .inr (.inr ⟨rfl, rfl⟩)
      | some c => exact .inl ⟨m, c, rfl, Method.isForward_call? hs hc, rfl⟩
  | forward task name limit target => exact absurd hs id
  | cancel task =>
    simp only [State.perform, State.cancel]
    split
    · exact .inr (.inr ⟨rfl, rfl⟩)
    · rename_i t _
      exact .inr (.inl ⟨rfl, t, rfl⟩)
  | pipe name capacity =>
    simp only [State.perform, makePipe]
    split <;> exact .inr (.inr ⟨rfl, rfl⟩)
  | pipeOutlet name pipe =>
    simp only [State.perform, makePipeOutlet]
    split <;> exact .inr (.inr ⟨rfl, rfl⟩)
  | outletBefore name d backing =>
    simp only [State.perform, makeOutletBefore]
    split
    · exact .inr (.inr ⟨rfl, rfl⟩)
    · split <;> exact .inr (.inr ⟨rfl, rfl⟩)
  | namedOutlet name given =>
    simp only [State.perform, makeNamedOutlet]
    split <;> exact .inr (.inr ⟨rfl, rfl⟩)
  | gate name pipe =>
    simp only [State.perform, makeGate]
    split <;> exact .inr (.inr ⟨rfl, rfl⟩)
  | stream name given =>
    simp only [State.perform, makeStream]
    split <;> exact .inr (.inr ⟨rfl, rfl⟩)
  | capture name asked =>
    simp only [State.perform, makeCapture]
    split
    · exact .inr (.inr ⟨rfl, rfl⟩)
    · split <;> exact .inr (.inr ⟨rfl, rfl⟩)
  | clone name source =>
    simp only [State.perform, makeClone]
    split
    · exact .inr (.inr ⟨rfl, rfl⟩)
    · split <;> exact .inr (.inr ⟨rfl, rfl⟩)
  | retarget name destination =>
    simp only [State.perform, State.retarget]
    split <;> exact .inr (.inr ⟨rfl, rfl⟩)
  | print n text =>
    simp only [State.perform, State.print]
    split <;> exact .inr (.inr ⟨rfl, rfl⟩)
  | configure given =>
    simp only [State.perform, State.configure]
    split <;> exact .inr (.inr ⟨rfl, rfl⟩)
  | setUpLog given =>
    simp only [State.perform, State.setUpLog]
    split <;> exact .inr (.inr ⟨rfl, rfl⟩)
  | emit n => exact .inr (.inr ⟨rfl, tally_post n st⟩)
  | log severity event given => exact .inr (.inr ⟨rfl, hlogged _⟩)
  | foreignLog severity message => exact .inr (.inr ⟨rfl, hlogged _⟩)
  | _ => exact .inr (.inr ⟨rfl, rfl⟩)

theorem perform (h : st.Loopless) {s : Step} (hs : s.IsLoopless) : (st.perform s).1.Loopless := by
  refine ⟨h.proper.perform hs.isPlain, ?_⟩
  obtain ⟨m, c, -, hc, he⟩ | ⟨-, t, he⟩ | ⟨-, he⟩ := tasks_perform st hs
  · rw [he]
    exact Session.forwards_spawn hc h.forwards
  · rw [he]
    exact Session.forwards_cancel h.proper.reachable.sound t h.forwards
  · rw [Session.forwards_congr (congrArg Tally.tasks he), h.forwards]

theorem settle (h : st.Loopless) : { st with session := st.session.settle }.Loopless :=
  ⟨h.proper.run _, Session.forwards_run h.proper.reachable.sound h.forwards _⟩

theorem step (h : st.Loopless) {s : Step} (hs : s.IsLoopless) (hasty : Bool) :
    (st.step s hasty).1.Loopless := by
  have hperform := h.perform hs
  cases hasty with
  | true => exact ⟨hperform.proper.congr rfl rfl, hperform.forwards⟩
  | false => exact ⟨hperform.settle.proper.congr rfl rfl, hperform.settle.forwards⟩

end Loopless

end State

end Script

end Outflow
