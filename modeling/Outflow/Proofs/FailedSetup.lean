import Outflow.Proofs.Lifecycle

/-!
# Setups that fail

Setting the log up, and turning the journal on, fail early, for an unknown destination or for a file that cannot be
opened: then nothing has been attached, detached or turned on.

* `Step.IsSetup`, `perform_setup_cases`: what the steps that set the log up can come to;
* `Orderly.turnedOn`, `RecordsOnce`, `Orderly.recordsOnce`: turning the journal on, and what it records then;
* `failed_setup_changes_nothing`.

A refused level comes too late.  The new handler is attached by then, and it is not recorded as the journal's own:
`handlers_of_refused_level`.  The one that is recorded has been closed: `Journal.isOpen_of_refused`.
-/

namespace Outflow

open Log (Handler Journal SetupError Settings)
open Text (codesOf)

namespace Script

variable {st : State} {foreign : List Handler}

/-- The steps that set the log up. -/
def Step.IsSetup : Step → Prop
  | .configure _ | .setUpLog _ => True
  | _ => False

namespace State

/-- The state where events have been given their form, or have not. -/
def setPrepared (st : State) (prepared : Bool) : State :=
  { st with session := { st.session with journal := { st.session.journal with prepared } } }

/-- A step that sets the log up succeeds, or it fails early and changes nothing, except that it may have given events
their form, or its level is refused, or its first record fails, as trouble cannot be reported. -/
theorem perform_setup_cases {s : Step} (hs : s.IsSetup) :
    (∃ result, (st.perform s).2 = .ok result) ∨
      (∃ prepared e, SetupError.IsEarly e ∧ st.perform s = (st.setPrepared prepared, .error (.setup e))) ∨
        (∃ e, (st.perform s).2 = .error (.setup (.level e)) ∧ ¬ s.IsLifecycle st.environment) ∨
          ∃ f, (st.perform s).2 = .error (.setup (.write f)) ∧ ¬ st.session.stdio.TakesReports := by
  have hrefuse : ∀ {given} {e}, Log.Level.ofName (Settings.resolve st.environment given).level = .error e →
      ¬ ∃ level, Log.Level.ofName (Settings.resolve st.environment given).level = .ok level := by
    rintro given e he ⟨level, hl⟩
    rw [he] at hl
    cases hl
  cases s with
  | setUpLog given =>
    simp only [State.perform, State.setUpLog]
    obtain ⟨prepared, e, hearly, hset⟩ | ⟨h, files, -, ⟨e, hrefused, hset⟩ | ⟨level, -, hset⟩⟩ :=
      st.session.journal.setup_cases st.session.stdio (Settings.resolve st.environment given)
    · rw [hset]
      exact .inr (.inl ⟨prepared, e, hearly, rfl⟩)
    · rw [hset]
      exact .inr (.inr (.inl ⟨e, rfl, hrefuse hrefused⟩))
    · rw [hset]
      exact .inl ⟨_, rfl⟩
  | configure given =>
    simp only [State.perform, State.configure]
    obtain ⟨-, hset⟩ | ⟨j', e, hset, hconf⟩ | ⟨j', files, io', -, -, ⟨f, hno, hw⟩ | hconf⟩ :=
      st.session.journal.configure_cases st.session.stdio (Settings.resolve st.environment given)
    · rw [hset]
      exact .inl ⟨_, rfl⟩
    · rw [hconf]
      obtain ⟨prepared, e, hearly, hset'⟩ | ⟨h, files, -, ⟨e, hrefused, hset'⟩ | ⟨level, -, hset'⟩⟩ :=
        st.session.journal.setup_cases st.session.stdio (Settings.resolve st.environment given)
      · rw [hset] at hset'
        cases hset'
        exact .inr (.inl ⟨prepared, _, hearly, rfl⟩)
      · rw [hset] at hset'
        cases hset'
        exact .inr (.inr (.inl ⟨e, rfl, hrefuse hrefused⟩))
      · rw [hset] at hset'
        cases hset'
    · refine .inr (.inr (.inr ⟨f, ?_, hno⟩))
      split
      · rename_i he
        rw [he] at hw
        cases hw
      · rename_i he
        rw [he] at hw
        cases hw
        rfl
    · rw [hconf]
      exact .inl ⟨_, rfl⟩
  | _ => exact absurd hs id

theorem Orderly.setPrepared (h : st.Orderly foreign) (prepared : Bool) : (st.setPrepared prepared).Orderly foreign :=
  ⟨⟨h.tidy.handlers, h.tidy.own, h.tidy.numbered, h.tidy.emitting, h.tidy.subscribers⟩, h.reports, h.queue⟩

/-- Once the journal has been turned on it is on; if it was off, it has a handler of its own, and the level that was
asked for. -/
theorem Orderly.turnedOn (h : st.Orderly foreign) {given : Log.Overrides} {level : Nat}
    (hl : Log.Level.ofName (Settings.resolve st.environment given).level = .ok level) {result : Result}
    (hok : (st.perform (.configure given)).2 = .ok result) :
    let on := (st.perform (.configure given)).1.session.journal
    on.configured = true ∧ (st.session.journal.configured = false →
      ∃ own, on.own = some own ∧ on.level = level) := by
  simp only [State.perform, State.configure] at hok ⊢
  obtain ⟨hon, hset⟩ | ⟨j', e, hset, hconf⟩ | ⟨j', files, io', -, hset, ⟨f, hno, -⟩ | hconf⟩ :=
    st.session.journal.configure_cases st.session.stdio (Settings.resolve st.environment given)
  · rw [Bool.and_eq_true] at hon
    rw [hset]
    refine ⟨hon.1, fun hoff => ?_⟩
    rw [hon.1] at hoff
    cases hoff
  · rw [hconf] at hok
    cases hok
  · exact absurd h.reports hno
  · obtain ⟨prepared, e, -, hset'⟩ | ⟨own, made, -, ⟨e, -, hset'⟩ | ⟨level', hl', hset'⟩⟩ :=
      st.session.journal.setup_cases st.session.stdio (Settings.resolve st.environment given)
    · rw [hset] at hset'
      cases hset'
    · rw [hset] at hset'
      cases hset'
    · rw [hset] at hset'
      cases hset'
      rw [hl] at hl'
      cases hl'
      rw [hconf]
      exact ⟨rfl, fun _ => ⟨own, rfl, rfl⟩⟩

/-- Whether the journal, if it has a handler of its own, records each notice once by each handler if the level lets it
pass: those that wait, and those that are given to it up to the next settling. -/
def RecordsOnce (foreign : List Handler) (st : State) : Prop :=
  ∀ own, st.session.journal.own = some own → ∀ (quiet : List (Step × Bool)) (last : Step),
    (∀ s ∈ quiet, s.1.IsQuiet) → last.IsQuiet →
      let stretch := quiet ++ [(last, false)]
      ((st.after stretch).session.journal, (st.after stretch).session.stdio) =
        Log.record (foreign ++ [own]) st.session.journal.level (st.session.waitingNotices ++ emitted stretch)
          (st.session.journal, st.session.stdio)

theorem Orderly.recordsOnce (h : st.Orderly foreign) (hon : st.session.journal.configured = true) :
    st.RecordsOnce foreign := by
  intro own hown quiet last hquiet hlast stretch
  have hstretch : ∀ s ∈ stretch, s.1.IsQuiet := by
    intro s hs
    rcases List.mem_append.1 hs with hs | hs
    · exact hquiet s hs
    · rw [List.mem_singleton.1 hs]
      exact hlast
  have hhandlers : st.session.journal.handlers = foreign ++ [own] := by
    rw [h.tidy.handlers, hown]
    rfl
  have hready : (st.after stretch).session.ready = [] := by
    have hbefore := (h.after fun s hs => (hquiet s hs).isLifecycle _).perform (hlast.isLifecycle _)
    rw [after_append]
    exact (Session.run_delivers hbefore.queue hbefore.reports (Session.length_waitingNotices_le hbefore.queue)).1
  rw [← due_of_ready_nil hready, h.due_after hon (by simp [hhandlers]) hstretch, due, Log.record_append, hhandlers]

/-- In whatever state and with whatever settings, a setup that fails for another reason than a refused level or
trouble that cannot be reported changes nothing, except that it may have given events their form.  If the state
came of turning the journal on and off, setting its log up and giving it notices, and whatever of these is done
later: once the journal has been turned on it records each notice once, its own handler is open if it was at first,
and if it was off it has a handler of its own. -/
theorem failed_setup_changes_nothing {s : Step} (hs : s.IsSetup) {failure : Failure}
    (hfail : (st.perform s).2 = .error failure) :
    (∃ e, failure = .setup (.level e) ∧ ¬ s.IsLifecycle st.environment) ∨
      (∃ f, failure = .setup (.write f) ∧ ¬ st.session.stdio.TakesReports) ∨
      (∃ prepared e, SetupError.IsEarly e ∧ failure = .setup e ∧ (st.perform s).1 = st.setPrepared prepared) ∧
      ∀ (first : State) (foreign : List Handler) (steps : List (Step × Bool)), first.AtRest foreign →
        (∀ s ∈ steps, s.1.IsLifecycle first.environment) → st = first.after steps →
        ∀ (hasty : Bool) (more : List (Step × Bool)) (given : Log.Overrides) (level : Nat) (result : Result),
          (∀ s ∈ more, s.1.IsLifecycle st.environment) →
          Log.Level.ofName (Settings.resolve st.environment given).level = .ok level →
            let before := st.after ((s, hasty) :: more)
            (before.perform (.configure given)).2 = .ok result →
              let on := (before.perform (.configure given)).1
              on.session.journal.configured = true ∧ on.RecordsOnce foreign ∧
                (first.session.journal.OwnOpen → on.session.journal.OwnOpen) ∧
                (before.session.journal.configured = false →
                  ∃ own, on.session.journal.own = some own ∧ on.session.journal.level = level) := by
  obtain ⟨result, hok⟩ | ⟨prepared, e, hearly, hp⟩ | ⟨e, he, hno⟩ | ⟨f, he, hno⟩ :=
    @perform_setup_cases st s hs
  · rw [hfail] at hok
    cases hok
  · rw [hp] at hfail
    cases hfail
    refine .inr (.inr ⟨⟨prepared, e, hearly, rfl, by rw [hp]⟩, ?_⟩)
    intro first foreign steps hfirst hsteps hst hasty more given level result hmore hlevel before hok on
    have hnow : st.Orderly foreign := by
      rw [hst]
      exact hfirst.orderly.after hsteps
    have hopen : first.session.journal.OwnOpen → (st.perform s).1.session.journal.OwnOpen := by
      intro hj
      have hj' := hfirst.orderly.ownOpen_after hj hsteps
      rw [← hst] at hj'
      rw [hp]
      exact ⟨hj'.closed, hj'.own⟩
    have hperform : (st.perform s).1.Orderly foreign := by
      rw [hp]
      exact hnow.setPrepared prepared
    have henv : (st.step s hasty).1.environment = st.environment := by
      cases hasty <;> exact congrArg (fun x => x.1.environment) hp
    rw [← henv] at hmore hlevel
    have hbefore : before.Orderly foreign := (Orderly.rest hperform hasty).after hmore
    have hlevel' : Log.Level.ofName (Settings.resolve before.environment given).level = .ok level := by
      rw [← hlevel]
      exact congrArg (fun env => Log.Level.ofName (Settings.resolve env given).level) (environment_after hmore)
    obtain ⟨hon, hown⟩ := hbefore.turnedOn hlevel' hok
    have hafter := hbefore.perform (s := .configure given) ⟨level, hlevel'⟩
    have hlast : ∃ level, Log.Level.ofName (Settings.resolve before.environment given).level = .ok level :=
      ⟨level, hlevel'⟩
    refine ⟨hon, hafter.recordsOnce hon, fun hj => ?_, hown⟩
    exact hbefore.ownOpen_perform ((Orderly.rest hperform hasty).ownOpen_after
      (Orderly.ownOpen_rest hperform (hopen hj) hasty) hmore) hlast
  · rw [he] at hfail
    cases hfail
    exact .inl ⟨e, rfl, hno⟩
  · rw [he] at hfail
    cases hfail
    exact .inr (.inl ⟨f, rfl, hno⟩)

/-- Setting the log up for a destination that is not known. -/
def nowhere : Step := .setUpLog ⟨some (codesOf "nowhere"), none, none, none⟩

theorem perform_nowhere : (State.start [] .plain .plain).perform nowhere =
    (State.start [] .plain .plain, .error (.setup (.unknownDestination (codesOf "nowhere")))) := by
  have hresolve : Settings.resolve [] ⟨some (codesOf "nowhere"), none, none, none⟩
      = ⟨codesOf "nowhere", codesOf "INFO", codesOf "json", none⟩ := rfl
  have henv : (State.start [] .plain .plain).environment = [] := rfl
  rw [nowhere, State.perform, State.setUpLog, henv, hresolve, Journal.setup, if_pos (by decide)]
  rfl

/-- It fails and changes nothing; turned on with a log file then, the journal records the end of a pipe on one
line. -/
theorem record_after_nowhere :
    let off := State.start [] .plain .plain
    let before := off.after [(nowhere, false)]
    let on := (before.perform intoFile).1
    (off.perform nowhere).2 = .error (.setup (.unknownDestination (codesOf "nowhere"))) ∧
      (∃ prepared, (off.perform nowhere).1 = off.setPrepared prepared) ∧ on.session.journal.configured = true ∧
        (on.after [(.emit (.ofEnd .pipe), false)]).session.journal.files.files = [(Log.atG, pipeLine)] := by
  intro off before on
  have hfail : (off.perform nowhere).2 = .error (.setup (.unknownDestination (codesOf "nowhere"))) :=
    congrArg Prod.snd perform_nowhere
  have hrest : off.AtRest [] := atRest_start [] .plain fun htext => by cases htext
  have hbefore : before = off := by
    change (off.step nowhere false).1 = off
    rw [State.step, perform_nowhere]
    rfl
  have hperform : before.perform intoFile =
      ({ off with session := { off.session with journal := off.session.journal.loggingTo } },
        .ok (.configured false true)) := by
    have hresolve : Settings.resolve [] toFile = .toG := rfl
    have henv : off.environment = [] := rfl
    rw [hbefore, intoFile, State.perform, State.configure, henv, hresolve, Journal.configure_file _ rfl rfl]
    rfl
  have hon : on = { off with session := { off.session with journal := off.session.journal.loggingTo } } :=
    congrArg Prod.fst hperform
  obtain ⟨e, he, -⟩ | ⟨f, he, -⟩ | ⟨⟨prepared, -, -, -, hsame⟩, hlater⟩ :=
    failed_setup_changes_nothing (s := nowhere) trivial hfail
  · cases he
  · cases he
  obtain ⟨-, hrecords, -⟩ : _ ∧ on.RecordsOnce [] ∧ _ :=
    hlater off [] [] hrest (fun s hs => absurd hs List.not_mem_nil) rfl false [] toFile 20 _
      (fun s hs => absurd hs List.not_mem_nil) rfl (congrArg Prod.snd hperform)
  rw [hon] at hrecords ⊢
  have hrecord := hrecords _ rfl [] (.emit (.ofEnd .pipe)) (fun s hs => absurd hs List.not_mem_nil) trivial
  have hfiles := congrArg (fun x => x.1.files.files) hrecord
  refine ⟨hfail, ⟨prepared, hsame⟩, rfl, hfiles.trans ?_⟩
  decide +kernel

/-- Turning the journal on with the name of the basic line format as its level. -/
def refusedLevel : Step := .configure ⟨some (codesOf "stderr"), some (codesOf "basic_format"), none, none⟩

theorem perform_refusedLevel : (State.start [] .plain .plain).perform refusedLevel =
    ((State.start [] .plain .plain).setJournal (Journal.start.attached ⟨0, .stream 0, .json⟩ .empty)
      (Stdio.mk [.fresh .plain] [.fresh .plain]), .error (.setup (.level .lineFormat))) := by
  have hlevel : Log.Level.ofName (codesOf "basic_format") = .error .lineFormat := by decide +kernel
  have hresolve : Settings.resolve [] ⟨some (codesOf "stderr"), some (codesOf "basic_format"), none, none⟩
      = ⟨codesOf "stderr", codesOf "basic_format", codesOf "json", none⟩ := rfl
  have henv : (State.start [] .plain .plain).environment = [] := rfl
  rw [refusedLevel, State.perform, State.configure, henv, hresolve]
  simp only [Journal.configure, Journal.setup, hlevel]
  rfl

/-- It fails and leaves a handler attached that is not recorded as the journal's own.  Turned on with a log file
then, the journal records each notice twice, in the file and on the error stream. -/
theorem handlers_of_refused_level :
    let off := State.start [] .plain .plain
    let failed := (off.perform refusedLevel).1
    let again := failed.after [(intoFile, false)]
    let later := (again.after [(.emit (.ofEnd .pipe), false)]).session
    (off.perform refusedLevel).2 = .error (.setup (.level .lineFormat)) ∧
      off.session.journal.handlers = [] ∧
      (failed.session.journal.handlers = [⟨0, .stream 0, .json⟩] ∧ failed.session.journal.own = none) ∧
      again.session.journal.handlers = [⟨0, .stream 0, .json⟩, ⟨1, .file Log.atG, .json⟩] ∧
      later.journal.files.files = [(Log.atG, pipeLine)] ∧
      later.stdio.err.map Stream.output = [Text.Utf8.encode pipeLine] := by
  intro off failed again later
  have hfailed : failed = off.setJournal (Journal.start.attached ⟨0, .stream 0, .json⟩ .empty)
      (Stdio.mk [.fresh .plain] [.fresh .plain]) := congrArg Prod.fst perform_refusedLevel
  have hagain : again.session = { failed.session with journal := failed.session.journal.loggingTo } := by
    refine session_intoFile failed ?_ ?_ ?_ ?_ <;> rw [hfailed] <;> rfl
  have hlater : later = (again.session.post (.ofEnd .pipe)).settle := session_emit again _
  rw [hlater, hagain, hfailed, perform_refusedLevel]
  refine ⟨rfl, rfl, ⟨rfl, rfl⟩, rfl, ?_, ?_⟩
  · decide +kernel
  · decide +kernel

end State

end Script

end Outflow
