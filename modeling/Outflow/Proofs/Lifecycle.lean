import Outflow.Proofs.Journal
import Outflow.Proofs.Script

/-!
# The life of the journal

The journal is turned on and off, its log is set up and torn down, and notices are given to it, in any order.
It never has more than one handler of its own and never more than one subscriber, so the record of a notice is
written once by each handler, or not at all if the level does not let it pass.

* `Step.IsLifecycle`, `Step.IsQuiet`: the steps in question, and those that leave the setup as it is;
* `Session.OnlyNotices`: only notices wait, each for one subscriber;
* `settle_delivers`: settling writes the record of each notice that waits;
* `State.Orderly`, `Orderly.step`, `Orderly.after`: the journal stays tidy;
* `due`, `due_step`: what will have been written once the session has settled;
* `one_record_per_notice`.

All this is so as long as trouble with a handler can be reported.  If it cannot, the first record of a
journal that is turned on can fail, and then the journal is not on but has a subscriber;
`subscribers_of_failed_configure` is such a case.
-/

namespace Outflow

open Log (Handler Journal)
open Text (codesOf)

/-! ### Notices that wait -/

namespace Session

variable {s : Session}

/-- The notices in the ready queue. -/
def waitingNotices (s : Session) : List Notice :=
  s.ready.filterMap fun
    | .deliver n _ => some n
    | .task _ => none

/-- Nothing waits but notices, each for one subscriber. -/
def OnlyNotices (s : Session) : Prop := s.ready = s.waitingNotices.map fun n => .deliver n 1

theorem waitingNotices_of_ready (ns : List Notice) (h : s.ready = ns.map fun n => .deliver n 1) :
    s.waitingNotices = ns := by
  rw [waitingNotices, h, List.filterMap_map]
  exact List.filterMap_some

theorem onlyNotices_of_ready (ns : List Notice) (h : s.ready = ns.map fun n => .deliver n 1) :
    s.OnlyNotices := by
  rw [OnlyNotices, waitingNotices_of_ready ns h, h]

theorem journal_post (s : Session) (n : Notice) : (s.post n).journal = s.journal := by
  unfold Session.post
  split <;> rfl

theorem stdio_post (s : Session) (n : Notice) : (s.post n).stdio = s.stdio := by
  unfold Session.post
  split <;> rfl

/-- A journal that is on with one subscriber puts the notice at the end of the queue. -/
theorem OnlyNotices.post (h : s.OnlyNotices) {n : Notice} (he : s.journal.emitting = true)
    (hs : s.journal.subscribers = 1) :
    (s.post n).OnlyNotices ∧ (s.post n).waitingNotices = s.waitingNotices ++ [n] := by
  have hready : (s.post n).ready = (s.waitingNotices ++ [n]).map fun n => .deliver n 1 := by
    rw [Session.post, he, hs, List.map_append, ← h]
    rfl
  exact ⟨onlyNotices_of_ready _ hready, waitingNotices_of_ready _ hready⟩

/-- With notices only, settling writes the record of each of them, and changes nothing but the files and the
standard streams. -/
theorem run_delivers (h : s.OnlyNotices) (hio : s.stdio.TakesReports) {k : Nat}
    (hk : s.waitingNotices.length ≤ k) :
    (s.run k).ready = []
      ∧ (∃ files, (s.run k).journal = { s.journal with files })
      ∧ (s.run k).stdio.bare = s.stdio.bare
      ∧ (s.journal.handlers ≠ [] → ((s.run k).journal, (s.run k).stdio)
          = Log.record s.journal.handlers s.journal.level s.waitingNotices (s.journal, s.stdio)) := by
  generalize hns : s.waitingNotices = ns at hk
  have hready : s.ready = ns.map fun n => .deliver n 1 := by rw [← hns]; exact h
  clear hns h
  induction ns generalizing s k with
  | nil =>
    rw [run_of_ready_nil hready]
    exact ⟨hready, ⟨s.journal.files, rfl⟩, rfl, fun _ => rfl⟩
  | cons n ns ih =>
    cases k with
    | zero => exact absurd hk (Nat.not_succ_le_zero _)
    | succ k =>
      have hne : s.ready.isEmpty = false := by rw [hready]; rfl
      have hturn : s.turn = { s with
          ready := ns.map fun n => .deliver n 1
          journal := (s.journal.deliver s.stdio n 1).1
          stdio := (s.journal.deliver s.stdio n 1).2 } := by
        rw [turn, hready]
        rfl
      have hrun : s.run (k + 1) = s.turn.run k := by
        rw [run, hne]
        rfl
      obtain ⟨files, hfiles⟩ := s.journal.exists_files_deliver s.stdio n 1
      have hbare := (s.journal.noted_deliver s.stdio n 1).bare
      have hk' : ns.length ≤ k := Nat.le_of_succ_le_succ hk
      have hio' : s.turn.stdio.TakesReports := by
        rw [hturn]
        exact hio.of_bare hbare
      have hready' : s.turn.ready = ns.map fun n => .deliver n 1 := by rw [hturn]
      have hjournal : s.turn.journal = { s.journal with files } := by rw [hturn]; exact hfiles
      obtain ⟨hempty, ⟨files', hfiles'⟩, hsame, hrecord⟩ := ih hio' hk' hready'
      rw [hrun]
      refine ⟨hempty, ⟨files', ?_⟩, ?_, fun hhandlers => ?_⟩
      · rw [hfiles', hjournal]
      · rw [hsame, hturn]
        exact hbare
      · have hpair : ({ s.journal with files }, s.turn.stdio) = s.journal.deliver s.stdio n 1 := by
          rw [hturn, ← hfiles]
        rw [hjournal] at hrecord
        rw [hrecord hhandlers, hpair, Journal.deliver_one hio hhandlers, ← Log.record_append]
        rfl

/-- Settling takes turns enough for all that waits. -/
theorem length_waitingNotices_le (h : s.OnlyNotices) : s.waitingNotices.length ≤ s.budget := by
  have hlen : s.ready.length = s.waitingNotices.length := by
    conv_lhs => rw [h]
    exact List.length_map _
  rw [← hlen]
  exact Nat.le_add_left _ _

end Session

namespace Script

variable {st : State} {foreign : List Handler} {hasty : Bool}

/-- The steps that turn the journal on and off, set its log up and tear it down, and give it notices; the
level that a setup names is not refused. -/
def Step.IsLifecycle (environment : Environment) : Step → Prop
  | .configure given | .setUpLog given =>
    ∃ level, Log.Level.ofName (Log.Settings.resolve environment given).level = .ok level
  | .reset | .tearDownLog | .emit _ | .settle => True
  | _ => False

/-- The steps among them that leave the setup as it is. -/
def Step.IsQuiet : Step → Prop
  | .emit _ | .settle => True
  | _ => False

theorem Step.IsQuiet.isLifecycle {s : Step} (h : s.IsQuiet) (environment : Environment) :
    s.IsLifecycle environment := by
  cases s <;> trivial

/-- The notice that a step gives to the journal. -/
def Step.notice? : Step → Option Notice
  | .emit n => some n
  | _ => none

namespace State

theorem after_append (st : State) (steps more : List (Step × Bool)) :
    st.after (steps ++ more) = (st.after steps).after more := by
  induction steps generalizing st with
  | nil => rfl
  | cons s rest ih => exact ih _

/-- The journal is tidy, trouble can be reported, and only notices wait. -/
structure Orderly (foreign : List Handler) (st : State) : Prop where
  tidy : st.session.journal.Tidy foreign
  reports : st.session.stdio.TakesReports
  queue : st.session.OnlyNotices

/-- The session is at rest, and the journal is off; the handlers that are attached are not its own. -/
structure AtRest (foreign : List Handler) (st : State) : Prop where
  ready : st.session.ready = []
  handlers : st.session.journal.handlers = foreign
  numbered : ∀ h ∈ foreign, h.number < st.session.journal.made
  own : st.session.journal.own = none
  configured : st.session.journal.configured = false
  emitting : st.session.journal.emitting = false
  subscribers : st.session.journal.subscribers = 0
  reports : st.session.stdio.TakesReports

theorem AtRest.orderly (h : st.AtRest foreign) : st.Orderly foreign where
  tidy :=
    { handlers := by rw [h.handlers, h.own]; exact (List.append_nil foreign).symm
      own := fun o ho => by rw [h.own] at ho; cases ho
      numbered := h.numbered
      emitting := by rw [h.configured, h.emitting]
      subscribers := by rw [h.subscribers, h.configured]; rfl }
  reports := h.reports
  queue := Session.onlyNotices_of_ready [] h.ready

/-- Where everything starts nothing is attached. -/
theorem atRest_start (environment : Environment) (out : Stream.Traits) {err : Stream.Traits}
    (herr : err.textOnly = true → ∀ f, err.writeFault = some f → f.isSystem = true) :
    (State.start environment out err).AtRest [] where
  ready := rfl
  handlers := rfl
  numbered := fun h hm => by cases hm
  own := rfl
  configured := rfl
  emitting := rfl
  subscribers := rfl
  reports := fun s hs => by
    cases hs
    exact herr

namespace Orderly

/-- What a step does at once keeps the state orderly. -/
theorem perform (h : st.Orderly foreign) {s : Step} (hs : s.IsLifecycle st.environment) :
    (st.perform s).1.Orderly foreign := by
  cases s with
  | configure given =>
    obtain ⟨level, hlevel⟩ := hs
    have htidy := h.tidy.configure h.reports hlevel
    have hbare := st.session.journal.bare_configure st.session.stdio
      (Log.Settings.resolve st.environment given)
    simp only [State.perform, State.configure]
    split <;> rename_i he <;> rw [he] at htidy hbare
    · exact ⟨htidy, h.reports.of_bare hbare, h.queue⟩
    · exact ⟨htidy, h.reports.of_bare hbare, h.queue⟩
  | setUpLog given =>
    obtain ⟨level, hlevel⟩ := hs
    have htidy := h.tidy.setup st.session.stdio hlevel
    simp only [State.perform, State.setUpLog]
    split <;> rename_i he <;> rw [he] at htidy
    · exact ⟨htidy, h.reports, h.queue⟩
    · exact ⟨htidy, h.reports, h.queue⟩
  | reset => exact ⟨h.tidy.reset, h.reports, h.queue⟩
  | tearDownLog => exact ⟨h.tidy.teardown, h.reports, h.queue⟩
  | settle => exact h
  | emit n =>
    cases hon : st.session.journal.configured with
    | true =>
      have hemitting : st.session.journal.emitting = true := by rw [← h.tidy.emitting, hon]
      have hsub : st.session.journal.subscribers = 1 := by rw [h.tidy.subscribers, hon]; rfl
      refine ⟨?_, ?_, (h.queue.post hemitting hsub).1⟩
      · simp only [State.perform, Session.journal_post]
        exact h.tidy
      · simp only [State.perform, Session.stdio_post]
        exact h.reports
    | false =>
      have hoff : st.session.journal.emitting = false := by rw [← h.tidy.emitting, hon]
      have hpost : st.session.post n = st.session := by
        rw [Session.post, hoff]
        rfl
      simp only [State.perform, hpost]
      exact h
  | _ => exact absurd hs id

theorem settle (h : st.Orderly foreign) : { st with session := st.session.settle }.Orderly foreign := by
  obtain ⟨hready, ⟨files, hfiles⟩, hbare, -⟩ :=
    Session.run_delivers h.queue h.reports (Session.length_waitingNotices_le h.queue)
  refine ⟨?_, h.reports.of_bare hbare, Session.onlyNotices_of_ready [] hready⟩
  simp only [Session.settle, hfiles]
  exact h.tidy.of_files files

/-- So does the rest of the step, whatever the step is. -/
theorem rest {s : Step} (h : (st.perform s).1.Orderly foreign) (hasty : Bool) :
    (st.step s hasty).1.Orderly foreign := by
  cases hasty with
  | true => exact ⟨h.tidy, h.reports, h.queue⟩
  | false =>
    have hsettle := h.settle
    exact ⟨hsettle.tidy, hsettle.reports, hsettle.queue⟩

theorem step (h : st.Orderly foreign) {s : Step} (hs : s.IsLifecycle st.environment) (hasty : Bool) :
    (st.step s hasty).1.Orderly foreign := rest (h.perform hs) hasty

end Orderly

theorem environment_perform {s : Step} (hs : s.IsLifecycle st.environment) :
    (st.perform s).1.environment = st.environment := by
  cases s with
  | configure given =>
    simp only [State.perform, State.configure]
    split <;> rfl
  | setUpLog given =>
    simp only [State.perform, State.setUpLog]
    split <;> rfl
  | reset => rfl
  | tearDownLog => rfl
  | settle => rfl
  | emit n => rfl
  | _ => exact absurd hs id

theorem environment_step {s : Step} (hs : s.IsLifecycle st.environment) (hasty : Bool) :
    (st.step s hasty).1.environment = st.environment := by
  cases hasty <;> exact environment_perform hs

/-- What each step keeps is kept by a list of them. -/
theorem after_induction {P : State → Prop}
    (hstep : ∀ {st : State} {s : Step} (hasty : Bool), P st → s.IsLifecycle st.environment → P (st.step s hasty).1)
    (h : P st) {steps : List (Step × Bool)} (hsteps : ∀ s ∈ steps, s.1.IsLifecycle st.environment) :
    P (st.after steps) := by
  induction steps generalizing st with
  | nil => exact h
  | cons s rest ih =>
    have hs := hsteps s List.mem_cons_self
    refine ih (hstep s.2 h hs) fun s' hs' => ?_
    rw [environment_step hs]
    exact hsteps s' (List.mem_cons_of_mem s hs')

theorem environment_after {steps : List (Step × Bool)} (hsteps : ∀ s ∈ steps, s.1.IsLifecycle st.environment) :
    (st.after steps).environment = st.environment := by
  refine after_induction (P := fun st' => st'.environment = st.environment) (fun hasty h hs => ?_) rfl hsteps
  rw [environment_step hs, h]

/-- The state stays orderly over every list of steps. -/
theorem Orderly.after (h : st.Orderly foreign) {steps : List (Step × Bool)}
    (hsteps : ∀ s ∈ steps, s.1.IsLifecycle st.environment) : (st.after steps).Orderly foreign :=
  after_induction (fun hasty h hs => h.step hs hasty) h hsteps

/-- What the operations of the journal keep is kept by each of these steps: the others leave the journal as it is. -/
theorem journal_perform {P : Journal → Prop} {s : Step} (hs : s.IsLifecycle st.environment)
    (h : P st.session.journal)
    (hconfigure : ∀ {given : Log.Overrides} {level : Nat},
      Log.Level.ofName (Log.Settings.resolve st.environment given).level = .ok level →
        P (st.session.journal.configure st.session.stdio (Log.Settings.resolve st.environment given)).1)
    (hsetup : ∀ {given : Log.Overrides} {level : Nat},
      Log.Level.ofName (Log.Settings.resolve st.environment given).level = .ok level →
        P (st.session.journal.setup st.session.stdio (Log.Settings.resolve st.environment given)).1)
    (hreset : P st.session.journal.reset) (hteardown : P st.session.journal.teardown) :
    P (st.perform s).1.session.journal := by
  cases s with
  | configure given =>
    obtain ⟨level, hlevel⟩ := hs
    have hset := hconfigure hlevel
    simp only [State.perform, State.configure]
    split <;> rename_i he <;> rw [he] at hset <;> exact hset
  | setUpLog given =>
    obtain ⟨level, hlevel⟩ := hs
    have hset := hsetup hlevel
    simp only [State.perform, State.setUpLog]
    split <;> rename_i he <;> rw [he] at hset <;> exact hset
  | reset => exact hreset
  | tearDownLog => exact hteardown
  | settle => exact h
  | emit n =>
    simp only [State.perform, Session.journal_post]
    exact h
  | _ => exact absurd hs id

/-! ### The open handler -/

namespace Orderly

/-- Each of these steps leaves the journal's own handler open, or records one that is. -/
theorem ownOpen_perform (h : st.Orderly foreign) (hj : st.session.journal.OwnOpen) {s : Step}
    (hs : s.IsLifecycle st.environment) : (st.perform s).1.session.journal.OwnOpen :=
  journal_perform hs hj (fun hlevel => hj.configure h.reports hlevel) (fun hlevel => hj.setup _ hlevel) hj.reset
    hj.teardown

/-- Settling writes records, which closes nothing. -/
theorem ownOpen_rest {s : Step} (h : (st.perform s).1.Orderly foreign)
    (hj : (st.perform s).1.session.journal.OwnOpen) (hasty : Bool) :
    (st.step s hasty).1.session.journal.OwnOpen := by
  cases hasty with
  | true => exact hj
  | false =>
    obtain ⟨-, ⟨files, hfiles⟩, -, -⟩ :=
      Session.run_delivers h.queue h.reports (Session.length_waitingNotices_le h.queue)
    exact hfiles ▸ hj.of_files files

/-- While no level is refused the journal's own handler is open. -/
theorem ownOpen_after (h : st.Orderly foreign) (hj : st.session.journal.OwnOpen) {steps : List (Step × Bool)}
    (hsteps : ∀ s ∈ steps, s.1.IsLifecycle st.environment) : (st.after steps).session.journal.OwnOpen := by
  have hboth := after_induction (P := fun st => st.Orderly foreign ∧ st.session.journal.OwnOpen)
    (fun hasty h hs => ⟨h.1.step hs hasty, ownOpen_rest (h.1.perform hs) (h.1.ownOpen_perform h.2 hs) hasty⟩)
    ⟨h, hj⟩ hsteps
  exact hboth.2

end Orderly

/-- So it is from the start on. -/
theorem ownOpen_of_start (environment : Environment) (out : Stream.Traits) {err : Stream.Traits}
    (herr : err.textOnly = true → ∀ f, err.writeFault = some f → f.isSystem = true) {steps : List (Step × Bool)}
    (hsteps : ∀ s ∈ steps, s.1.IsLifecycle environment) :
    ((State.start environment out err).after steps).session.journal.OwnOpen :=
  (atRest_start environment out herr).orderly.ownOpen_after Log.ownOpen_start hsteps

/-! ### Stretches without a change of the setup -/

/-- The journal and the standard streams as they will be when the records of all waiting notices are written. -/
def due (st : State) : Journal × Stdio :=
  Log.record st.session.journal.handlers st.session.journal.level st.session.waitingNotices
    (st.session.journal, st.session.stdio)

/-- The notices that steps give to the journal. -/
def emitted (steps : List (Step × Bool)) : List Notice := steps.filterMap fun s => s.1.notice?

/-- The setup of the journal: all but the files. -/
def SameSetup (st st' : State) : Prop := ∃ files, st'.session.journal = { st.session.journal with files }

theorem due_of_ready_nil (h : st.session.ready = []) : st.due = (st.session.journal, st.session.stdio) := by
  rw [due, Session.waitingNotices_of_ready [] h, Log.record_nil]

/-- Settling does what is due. -/
theorem Orderly.due_settle (h : st.Orderly foreign) (hne : st.session.journal.handlers ≠ []) :
    { st with session := st.session.settle }.due = st.due
      ∧ st.SameSetup { st with session := st.session.settle } := by
  obtain ⟨hready, hfiles, -, hrecord⟩ :=
    Session.run_delivers h.queue h.reports (Session.length_waitingNotices_le h.queue)
  refine ⟨?_, hfiles⟩
  rw [due_of_ready_nil hready, due]
  exact hrecord hne

/-- While the journal is on and has a handler, a step that leaves the setup as it is adds to what is due the
records of its notice. -/
theorem Orderly.due_step (h : st.Orderly foreign) (hon : st.session.journal.configured = true)
    (hne : st.session.journal.handlers ≠ []) {s : Step} (hs : s.IsQuiet) (hasty : Bool) :
    (st.step s hasty).1.due
        = Log.record st.session.journal.handlers st.session.journal.level s.notice?.toList st.due
      ∧ st.SameSetup (st.step s hasty).1 := by
  have hemitting : st.session.journal.emitting = true := by rw [← h.tidy.emitting, hon]
  have hsub : st.session.journal.subscribers = 1 := by rw [h.tidy.subscribers, hon]; rfl
  have hlife : s.IsLifecycle st.environment := hs.isLifecycle st.environment
  have hperform : (st.perform s).1.due
        = Log.record st.session.journal.handlers st.session.journal.level s.notice?.toList st.due
      ∧ (st.perform s).1.session.journal = st.session.journal := by
    cases s with
    | settle => exact ⟨rfl, rfl⟩
    | emit n =>
      have hjournal := st.session.journal_post n
      refine ⟨?_, hjournal⟩
      simp only [due, State.perform, hjournal, st.session.stdio_post n, (h.queue.post hemitting hsub).2,
        Log.record_append]
      rfl
    | _ => exact absurd hs id
  cases hasty with
  | true => exact ⟨hperform.1, st.session.journal.files, hperform.2⟩
  | false =>
    have hne' : (st.perform s).1.session.journal.handlers ≠ [] := by rw [hperform.2]; exact hne
    obtain ⟨hdue, files, hfiles⟩ := (h.perform hlife).due_settle hne'
    exact ⟨hdue.trans hperform.1, files, by rw [← hperform.2]; exact hfiles⟩

theorem emitted_cons (s : Step × Bool) (rest : List (Step × Bool)) :
    emitted (s :: rest) = s.1.notice?.toList ++ emitted rest := by
  rw [emitted, List.filterMap_cons]
  cases s.1.notice? <;> rfl

/-- What is due after a stretch that leaves the setup as it is. -/
theorem Orderly.due_after (h : st.Orderly foreign) (hon : st.session.journal.configured = true)
    (hne : st.session.journal.handlers ≠ []) {quiet : List (Step × Bool)} (hquiet : ∀ s ∈ quiet, s.1.IsQuiet) :
    (st.after quiet).due
      = Log.record st.session.journal.handlers st.session.journal.level (emitted quiet) st.due := by
  induction quiet generalizing st with
  | nil => rfl
  | cons s rest ih =>
    have hs := hquiet s List.mem_cons_self
    obtain ⟨hdue, files, hfiles⟩ := h.due_step hon hne hs s.2
    have hrest := ih (h.step (hs.isLifecycle _) s.2) (by rw [hfiles]; exact hon) (by rw [hfiles]; exact hne)
      fun s' hs' => hquiet s' (List.mem_cons_of_mem s hs')
    rw [hfiles] at hrest
    rw [State.after, hrest, hdue, emitted_cons, Log.record_append]

/-- However the journal is turned on and off and its log set up and torn down, the journal is tidy after each
step.  And while it is on and has a handler, the steps up to the next settling write the record of each
notice, of those that wait and of those that are given meanwhile, once by each handler if the level lets it
pass, in the order of the notices, and nothing else. -/
theorem one_record_per_notice (hst : st.AtRest foreign) {steps : List (Step × Bool)}
    (hsteps : ∀ s ∈ steps, s.1.IsLifecycle st.environment) :
    let now := (st.after steps).session
    now.journal.Tidy foreign
      ∧ ∀ own, now.journal.configured = true → now.journal.own = some own →
        ∀ (quiet : List (Step × Bool)) (last : Step), (∀ s ∈ quiet, s.1.IsQuiet) → last.IsQuiet →
          let stretch := quiet ++ [(last, false)]
          let later := ((st.after steps).after stretch).session
          later.ready = []
            ∧ (later.journal, later.stdio) = Log.record (foreign ++ [own]) now.journal.level
                (now.waitingNotices ++ emitted stretch) (now.journal, now.stdio) := by
  have hnow := hst.orderly.after hsteps
  refine ⟨hnow.tidy, fun own hon hown quiet last hquiet hlast => ?_⟩
  have hhandlers : (st.after steps).session.journal.handlers = foreign ++ [own] := by
    rw [hnow.tidy.handlers, hown]
    rfl
  have hstretch : ∀ s ∈ quiet ++ [(last, false)], s.1.IsQuiet := by
    intro s hs
    rcases List.mem_append.mp hs with hs | hs
    · exact hquiet s hs
    · rw [List.mem_singleton.mp hs]
      exact hlast
  have hne : (st.after steps).session.journal.handlers ≠ [] := by
    rw [hhandlers]
    exact List.append_ne_nil_of_right_ne_nil foreign (List.cons_ne_nil own [])
  have hready : (((st.after steps).after (quiet ++ [(last, false)])).session).ready = [] := by
    have hbefore : ((st.after steps).after quiet).Orderly foreign :=
      hnow.after fun s hs => (hquiet s hs).isLifecycle _
    have hperform := hbefore.perform (hlast.isLifecycle _)
    rw [after_append]
    exact (Session.run_delivers hperform.queue hperform.reports
      (Session.length_waitingNotices_le hperform.queue)).1
  refine ⟨hready, ?_⟩
  rw [← due_of_ready_nil hready, hnow.due_after hon hne hstretch, due, Log.record_append, hhandlers]

/-! ### A log file, and a closed error stream -/

/-- The settings of a log file, as they are given. -/
def toFile : Log.Overrides := ⟨some (codesOf "jsonl"), some (codesOf "INFO"), none, some (some (codesOf "g"))⟩

/-- Turning the journal on with a log file. -/
def intoFile : Step := .configure toFile

/-- Turning the journal on with every record on the error stream. -/
def intoStream : Step := .configure ⟨some (codesOf "stderr"), some (codesOf "DEBUG"), none, none⟩

/-- The line of the end of a pipe. -/
def pipeLine : String :=
  "\x7b\"kind\": \"pipe\", \"event\": \"writer.shutdown\", \"level\": \"info\", \"timestamp\": \"TS\"\x7d\n"

theorem session_emit (st : State) (n : Notice) :
    (st.after [(.emit n, false)]).session = (st.session.post n).settle := rfl

theorem session_intoFile (st : State) (henv : st.environment = []) (hready : st.session.ready = [])
    (hoff : (st.session.journal.configured && st.session.journal.emitting) = false)
    (hfiles : st.session.journal.files = .empty) :
    (st.after [(intoFile, false)]).session = { st.session with journal := st.session.journal.loggingTo } := by
  have hresolve : Log.Settings.resolve [] toFile = .toG := rfl
  have hperform : (st.perform intoFile).1.session = { st.session with journal := st.session.journal.loggingTo } := by
    rw [intoFile, State.perform, State.configure, henv, hresolve, Journal.configure_file _ hoff hfiles]
    rfl
  have hrest : (st.perform intoFile).1.session.ready = [] := by
    rw [hperform]
    exact hready
  have hsettle : (st.after [(intoFile, false)]).session = (st.perform intoFile).1.session.settle := rfl
  rw [hsettle, Session.settle, Session.run_of_ready_nil hrest, hperform]

/-- The end of a pipe is recorded on one line. -/
theorem record_of_pipe :
    let on := (State.start [] .plain .plain).after [(intoFile, false)]
    on.session.journal.configured = true
      ∧ (on.after [(.emit (.ofEnd .pipe), false)]).session.journal.files.files = [(Log.atG, pipeLine)] := by
  intro on
  have hrest : (State.start [] .plain .plain).AtRest [] := atRest_start [] .plain fun htext => by cases htext
  have hlife : ∀ s ∈ [(intoFile, false)], s.1.IsLifecycle (State.start [] .plain .plain).environment := by
    intro s hs
    rw [List.mem_singleton.mp hs]
    exact ⟨20, rfl⟩
  have hon : on.session = { (State.start [] .plain .plain).session with
      journal := (State.start [] .plain .plain).session.journal.loggingTo } :=
    session_intoFile _ rfl rfl rfl rfl
  have hconf : on.session.journal.configured = true := by rw [hon]; rfl
  have hown : on.session.journal.own = some ⟨0, .file Log.atG, .json⟩ := by rw [hon]; rfl
  obtain ⟨-, hrecord⟩ := one_record_per_notice hrest hlife
  obtain ⟨-, hlater⟩ := hrecord _ hconf hown [] (.emit (.ofEnd .pipe)) (fun s hs => by cases hs) trivial
  refine ⟨hconf, ?_⟩
  change _ = Log.record _ on.session.journal.level (on.session.waitingNotices ++ _)
    (on.session.journal, on.session.stdio) at hlater
  rw [hon] at hlater
  calc (on.after [(.emit (.ofEnd .pipe), false)]).session.journal.files.files
      = _ := congrArg (fun x => x.1.files.files) hlater
    _ = [(Log.atG, pipeLine)] := by decide +kernel

/-- An error stream that was closed. -/
def closedStream : Stream.Traits :=
  { Stream.Traits.plain with textOnly := true, writeFault := some (.unusable "I/O operation on closed file.") }

/-- On a closed error stream the first record fails, and the journal is not on, but has a subscriber.  Turned
on again with a log file it has two, and records each notice twice. -/
theorem subscribers_of_failed_configure :
    let failed := (State.start [] .plain closedStream).after [(intoStream, false)]
    let again := failed.after [(intoFile, false)]
    (failed.session.journal.configured = false ∧ failed.session.journal.emitting = true)
      ∧ (again.session.journal.configured = true ∧ again.session.journal.subscribers = 2)
      ∧ (again.after [(.emit (.ofEnd .pipe), false)]).session.journal.files.files
        = [(Log.atG, pipeLine ++ pipeLine)] := by
  intro failed again
  have hagain : again.session = { failed.session with journal := failed.session.journal.loggingTo } :=
    session_intoFile failed rfl rfl rfl rfl
  refine ⟨by decide +kernel, ?_, ?_⟩
  · rw [hagain]
    decide +kernel
  · rw [session_emit, hagain]
    decide +kernel

end State

end Script

end Outflow
