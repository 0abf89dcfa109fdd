import Outflow.Proofs.Lifecycle
import Outflow.Proofs.Loopless
import Outflow.Proofs.Session.Quiet

/-!
# The journal makes no difference

A script is carried out twice, with a journal that was turned on with a log file and with one that was never
turned on.  All reports are the same.

* `Step.LeavesJournal`: the steps that a script can have;
* `State.quiet`, `State.Mutes`: a script, and the same one without its journal;
* `Mutes.perform`, `Mutes.step`: each step does the same for both;
* `State.Settles`: whether the queue runs empty whenever the script settles, as it does without forwarding;
* `journal_makes_no_difference`.
-/

namespace Outflow.Script

open Session (Mutes)

variable {st st' : State}

/-- The steps that leave the journal as it is; they may give it notices, and do not look at it. -/
def Step.LeavesJournal : Step → Prop
  | .configure _ | .reset | .setUpLog _ | .tearDownLog | .isConfigured | .log .. | .foreignLog .. | .handlers
  | .files => False
  | _ => True

namespace State

/-- A script without its journal. -/
def quiet (st : State) : State := { st with session := st.session.quiet }

/-- A script whose journal writes to files, and the same one without the journal. -/
structure Mutes (st st' : State) : Prop where
  quiet : st' = st.quiet
  journal : st.session.journal.ToFiles

namespace Mutes

/-- The sessions of two such scripts. -/
theorem session (h : Mutes st st') : st.session.Mutes st'.session := by
  obtain ⟨rfl, hj⟩ := h
  exact ⟨rfl, hj⟩

/-- Other sessions in their place. -/
theorem of_session {s q : Session} (h : s.Mutes q) (st : State) :
    Mutes { st with session := s } { st with session := q } := by
  obtain ⟨rfl, hj⟩ := h
  exact ⟨rfl, hj⟩

theorem call (h : Mutes st st') (task name : String) (method : Method) :
    (st'.callNamed task name method).2 = (st.callNamed task name method).2
      ∧ Mutes (st.callNamed task name method).1 (st'.callNamed task name method).1 := by
  have hmember : st'.member name = st.member name := by rw [h.quiet]; rfl
  simp only [callNamed, hmember]
  cases st.member name with
  | error e => exact ⟨rfl, h⟩
  | ok m =>
    simp only [State.call]
    cases method.call? m with
    | none => exact ⟨rfl, h⟩
    | some c =>
      have hspawn := h.session.spawn c
      obtain ⟨rfl, hj⟩ := h
      exact ⟨rfl, of_session hspawn { st with tasks := st.tasks ++ [task] }⟩

theorem cancel (h : Mutes st st') (task : String) :
    (st'.cancel task).2 = (st.cancel task).2 ∧ Mutes (st.cancel task).1 (st'.cancel task).1 := by
  have htasks : st'.tasks = st.tasks := by rw [h.quiet]; rfl
  simp only [State.cancel, htasks]
  cases st.tasks.idxOf? task with
  | none => exact ⟨rfl, h⟩
  | some t =>
    obtain ⟨haccepted, hcancel⟩ := h.session.cancel t
    simp only [haccepted]
    obtain ⟨rfl, hj⟩ := h
    exact ⟨trivial, of_session hcancel st⟩

/-- What a step does at once is the same for both. -/
theorem perform (h : Mutes st st') {s : Step} (hs : s.LeavesJournal) :
    (st'.perform s).2 = (st.perform s).2 ∧ Mutes (st.perform s).1 (st'.perform s).1 := by
  cases s with
  | call task name method => exact h.call task name method
  | cancel task => exact h.cancel task
  | forward task name limit target =>
    have hmember : st'.member target = st.member target := by rw [h.quiet]; rfl
    simp only [State.perform, State.forward, hmember]
    cases st.member target with
    | error e => exact ⟨rfl, h⟩
    | ok m => exact h.call task name (.forward limit m)
  | emit n =>
    have hpost := h.session.post n
    obtain ⟨rfl, hj⟩ := h
    exact ⟨rfl, of_session hpost st⟩
  | settle => exact ⟨rfl, h⟩
  | view name v =>
    obtain ⟨rfl, hj⟩ := h
    exact ⟨rfl, rfl, hj⟩
  | outlet name o =>
    obtain ⟨rfl, hj⟩ := h
    exact ⟨rfl, rfl, hj⟩
  | redirect n traits =>
    obtain ⟨rfl, hj⟩ := h
    exact ⟨rfl, rfl, hj⟩
  | streams =>
    obtain ⟨rfl, hj⟩ := h
    exact ⟨rfl, rfl, hj⟩
  | pipe name capacity =>
    obtain ⟨rfl, hj⟩ := h
    simp only [State.perform, makePipe]
    split <;> exact ⟨rfl, rfl, hj⟩
  | pipeOutlet name pipe =>
    obtain ⟨rfl, hj⟩ := h
    have hpipe : st.quiet.pipeNamed pipe = st.pipeNamed pipe := rfl
    simp only [State.perform, makePipeOutlet, hpipe]
    split <;> exact ⟨rfl, rfl, hj⟩
  | outletBefore name d backing =>
    obtain ⟨rfl, hj⟩ := h
    have hbacking : st.quiet.backingNamed backing = st.backingNamed backing := by cases backing <;> rfl
    simp only [State.perform, makeOutletBefore, hbacking]
    split
    · exact ⟨rfl, rfl, hj⟩
    · split
      · exact ⟨rfl, rfl, hj⟩
      · rename_i b _ _ _
        have hwords : st.quiet.session.describeBacking? b = st.session.describeBacking? b := by
          cases b with
          | none => rfl
          | some b => cases b <;> rfl
        exact ⟨by rw [hwords], rfl, hj⟩
  | namedOutlet name given =>
    obtain ⟨rfl, hj⟩ := h
    simp only [State.perform, makeNamedOutlet]
    split <;> exact ⟨rfl, rfl, hj⟩
  | gate name pipe =>
    obtain ⟨rfl, hj⟩ := h
    have hpipe : st.quiet.pipeNamed pipe = st.pipeNamed pipe := rfl
    simp only [State.perform, makeGate, hpipe]
    split <;> exact ⟨rfl, rfl, hj⟩
  | stream name given =>
    obtain ⟨rfl, hj⟩ := h
    simp only [State.perform, makeStream]
    split <;> exact ⟨rfl, rfl, hj⟩
  | capture name asked =>
    obtain ⟨rfl, hj⟩ := h
    simp only [State.perform, makeCapture]
    split
    · exact ⟨rfl, rfl, hj⟩
    · split <;> exact ⟨rfl, rfl, hj⟩
  | clone name source =>
    obtain ⟨rfl, hj⟩ := h
    have houtlet : st.quiet.outlet source "clone" = st.outlet source "clone" := rfl
    simp only [State.perform, makeClone, houtlet]
    split
    · exact ⟨rfl, rfl, hj⟩
    · split <;> exact ⟨rfl, rfl, hj⟩
  | retarget name destination =>
    obtain ⟨rfl, hj⟩ := h
    have houtlet : st.quiet.outlet name "_kind" = st.outlet name "_kind" := rfl
    simp only [State.perform, State.retarget, houtlet]
    split <;> exact ⟨rfl, rfl, hj⟩
  | print n text =>
    obtain ⟨rfl, hj⟩ := h
    have hio : st.quiet.session.stdio = st.session.stdio := rfl
    simp only [State.perform, State.print, hio]
    split <;> exact ⟨rfl, rfl, hj⟩
  | _ => exact absurd hs id

theorem report (h : Mutes st st') (result : Except Failure Result) : st'.report result = st.report result := by
  obtain ⟨rfl, -⟩ := h
  rfl

theorem seen (h : Mutes st st') : Mutes st.seen st'.seen := by
  obtain ⟨rfl, hj⟩ := h
  exact ⟨rfl, hj⟩

theorem settle (h : Mutes st st') (hs : st.session.settle.ready = []) (hs' : st'.session.settle.ready = []) :
    Mutes { st with session := st.session.settle } { st' with session := st'.session.settle } := by
  have hsettle := h.session.settle hs hs'
  obtain ⟨rfl, hj⟩ := h
  exact of_session hsettle st

/-- A step, after which both settle or neither, gives the same report for both. -/
theorem step (h : Mutes st st') {s : Step} (hs : s.LeavesJournal) {hasty : Bool}
    (hsettles : hasty = false → (st.perform s).1.session.settle.ready = []
      ∧ (st'.perform s).1.session.settle.ready = []) :
    (st'.step s hasty).2 = (st.step s hasty).2 ∧ Mutes (st.step s hasty).1 (st'.step s hasty).1 := by
  obtain ⟨hresult, hperform⟩ := h.perform hs
  cases hasty with
  | true =>
    refine ⟨?_, hperform.seen⟩
    simp only [State.step, hresult]
    exact hperform.report _
  | false =>
    obtain ⟨hready, hready'⟩ := hsettles rfl
    have hsettle := hperform.settle hready hready'
    refine ⟨?_, hsettle.seen⟩
    simp only [State.step, hresult]
    exact hsettle.report _

end Mutes

/-- Whether the queue runs empty whenever a script settles. -/
def Settles (st : State) : List (Step × Bool) → Prop
  | [] => True
  | (s, hasty) :: rest =>
    (hasty = false → (st.perform s).1.session.settle.ready = []) ∧ (st.step s hasty).1.Settles rest

/-- Without forwarding it does. -/
theorem Loopless.settles (h : st.Loopless) {steps : List (Step × Bool)} (hsteps : ∀ s ∈ steps, s.1.IsLoopless) :
    st.Settles steps := by
  induction steps generalizing st with
  | nil => trivial
  | cons s rest ih =>
    have hs := hsteps s List.mem_cons_self
    exact ⟨fun _ => (h.perform hs).ready_settle,
      ih (h.step hs s.2) fun s' hs' => hsteps s' (List.mem_cons_of_mem s hs')⟩

/-- All reports are the same with the journal and without, and so are the standard streams in the end. -/
theorem Mutes.run (h : Mutes st st') {steps : List (Step × Bool)} (hsteps : ∀ s ∈ steps, s.1.LeavesJournal)
    (hset : st.Settles steps) (hset' : st'.Settles steps) :
    st'.run steps = st.run steps ∧ Mutes (st.after steps) (st'.after steps) := by
  induction steps generalizing st st' with
  | nil => exact ⟨rfl, h⟩
  | cons s rest ih =>
    obtain ⟨hhere, hlater⟩ := hset
    obtain ⟨hhere', hlater'⟩ := hset'
    obtain ⟨hreport, hstep⟩ := h.step (hsteps s List.mem_cons_self) fun hf => ⟨hhere hf, hhere' hf⟩
    obtain ⟨hrest, hend⟩ := ih hstep (fun s' hs' => hsteps s' (List.mem_cons_of_mem s hs')) hlater hlater'
    refine ⟨?_, hend⟩
    rw [State.run, State.run]
    exact congrArg₂ List.cons hreport hrest

/-- Turned on with a log file at the start, the journal is all that is different. -/
theorem mutes_configured (environment : Environment) (out err : Stream.Traits) {given : Log.Overrides}
    (hfile : (Log.Settings.resolve environment given).destination = Text.codesOf "jsonl") {result : Result}
    (hok : ((State.start environment out err).perform (.configure given)).2 = .ok result) (hasty : Bool) :
    Mutes ((State.start environment out err).after [(.configure given, hasty)]) (State.start environment out err) := by
  let off := State.start environment out err
  have hperform : Mutes (off.perform (.configure given)).1 off := by
    simp only [State.perform, State.configure] at hok ⊢
    rcases hj : off.session.journal.configure off.session.stdio (Log.Settings.resolve off.environment given)
      with ⟨j, io, e | already⟩
    · simp only [off] at hj
      simp only [hj] at hok
      cases hok
    · obtain ⟨hfiles, hio⟩ := Log.Journal.toFiles_configure hfile (congrArg (fun x => x.2.2) hj)
      change Log.Journal.start.configure _ (Log.Settings.resolve environment given) = _ at hj
      rw [hj] at hfiles hio
      subst hio
      exact ⟨rfl, hfiles⟩
  cases hasty with
  | true => exact hperform.seen
  | false =>
    have hloopless : (off.perform (.configure given)).1.Loopless :=
      (Loopless.start environment out err).perform (s := .configure given) trivial
    exact (hperform.settle hloopless.ready_settle rfl).seen

/-- Turning the journal on with a log file, at any level and in any form, changes none of the later reports,
and not the standard streams. -/
theorem journal_makes_no_difference (environment : Environment) (out err : Stream.Traits) {given : Log.Overrides}
    (hfile : (Log.Settings.resolve environment given).destination = Text.codesOf "jsonl") {result : Result}
    (hok : ((State.start environment out err).perform (.configure given)).2 = .ok result) (hasty : Bool)
    {steps : List (Step × Bool)} (hsteps : ∀ s ∈ steps, s.1.LeavesJournal) :
    let off := State.start environment out err
    let on := off.after [(.configure given, hasty)]
    (∀ s ∈ steps, s.1.IsLoopless) ∨ off.Settles steps ∧ on.Settles steps →
      on.run steps = off.run steps
        ∧ (on.after steps).session.stdio = (off.after steps).session.stdio := by
  intro off on hsettles
  have hon : Mutes on off := mutes_configured environment out err hfile hok hasty
  have hboth : off.Settles steps ∧ on.Settles steps := by
    rcases hsettles with hloopless | hboth
    · have hoff : off.Loopless := .start environment out err
      exact ⟨hoff.settles hloopless, (hoff.step (s := .configure given) trivial hasty).settles hloopless⟩
    · exact hboth
  obtain ⟨hrun, hend⟩ := hon.run hsteps hboth.2 hboth.1
  refine ⟨hrun.symm, ?_⟩
  rw [hend.quiet]
  rfl

/-- The end of a pipe gives one notice and one result, and a log file that it is recorded in changes neither. -/
theorem shutdown_with_log_file :
    let off := State.start [] .plain .plain
    let on := off.after [(intoFile, false)]
    let steps : List (Step × Bool) := [(.pipe "p" 4, false), (.pipeOutlet "w" "p", false),
      (.call "s" "w" (.sink .shutdown), false)]
    on.session.journal.configured = true
      ∧ (on.run steps).map (·.notices) = [[], [], [.ofEnd .pipe]] := by
  intro off on steps
  have hresolve : Log.Settings.resolve [] toFile = .toG := rfl
  have henvironment : off.environment = [] := rfl
  have hok : (off.perform intoFile).2 = .ok (.configured false true) := by
    rw [intoFile, State.perform, State.configure, henvironment, hresolve, Log.Journal.configure_file _ rfl rfl]
    rfl
  have hsteps : ∀ s ∈ steps, s.1.LeavesJournal ∧ s.1.IsLoopless := by
    simp [steps, Step.LeavesJournal, Step.IsLoopless, Step.IsPlain]
  obtain ⟨hsame, -⟩ := journal_makes_no_difference [] .plain .plain (congrArg Log.Settings.destination hresolve) hok
    false (fun s hs => (hsteps s hs).1) (.inl fun s hs => (hsteps s hs).2)
  have hon : on.session = { off.session with journal := off.session.journal.loggingTo } :=
    session_intoFile off rfl rfl rfl rfl
  refine ⟨by rw [hon]; rfl, (congrArg _ hsame).trans ?_⟩
  decide +kernel

end State

end Outflow.Script
