import Outflow.Proofs.FailedSetup
import Outflow.Proofs.Output

/-!
# What handlers write to

A handler writes to a file or to a stream.  What it writes comes last in there, and nowhere else.

* `Target.output`, `Target.Takes`: what a target holds, and whether it is there and takes text;
* `Takes.output_put`, `output_put_of_ne`, `Takes.put`: what the line of a handler does to its target and to others;
* `Target.Gains`: a target holds more than before;
* `Files.Has`, `open?_cases`: the files that are there, and what opening one does;
* `Journal.HasFile`, `Orderly.hasFile_step`, `AtRest.takes_file`: the log file is there.
-/

namespace Outflow

open Text (Codes Utf8.encode Utf8.encode_append)
open Log (Handler Journal Location)

namespace Log

variable {x : Journal × Stdio} {h : Handler} {t : Target} {fs fs' : Files} {l : Location} {path : Codes}
  {j : Journal} {io : Stdio}

/-! ### Files -/

/-- Whether there is a file at a location. -/
def Files.Has (fs : Files) (l : Location) : Prop := ∃ text, fs.files.lookup l = some text

theorem lookup_append (fs : Files) (l : Location) (text : String) (other : Location) :
    (fs.append l text).files.lookup other =
      (fs.files.lookup other).map fun old => if other = l then old ++ text else old := by
  obtain ⟨home, files, directories⟩ := fs
  rw [Files.append]
  induction files with
  | nil => rfl
  | cons f rest ih =>
    obtain ⟨l₀, old⟩ := f
    by_cases hother : other = l₀
    · subst hother
      by_cases hname : other = l <;> simp [hname]
    · have hne : (other == l₀) = false := beq_eq_false_iff_ne.2 hother
      rw [List.map_cons]
      split <;> simpa only [List.lookup_cons, hne] using ih

theorem Files.Has.append (hf : fs.Has l) (l₀ : Location) (text : String) : (fs.append l₀ text).Has l := by
  obtain ⟨old, hold⟩ := hf
  exact ⟨_, by rw [lookup_append, hold, Option.map_some]⟩

theorem Files.has_of_hasFile (hf : fs.hasFile l = true) : fs.Has l := by
  obtain ⟨f, hm, he⟩ := List.any_eq_true.1 hf
  exact Option.isSome_iff_exists.1 (List.lookup_isSome_iff.2 ⟨f, hm, BEq.symm he⟩)

/-- Making directories makes no file, and removes none. -/
theorem files_makeDirectories {passed : Path} {made : Bool} {parts : List Codes}
    (hm : fs.makeDirectories passed l made parts = .ok fs') : fs'.files = fs.files := by
  induction parts generalizing fs passed l made with
  | nil =>
    cases hm
    rfl
  | cons part rest ih =>
    rw [Files.makeDirectories] at hm
    dsimp only at hm
    split at hm
    · cases hm
    · split at hm
      · exact ih hm
      · have hmade := ih hm
        exact hmade

/-- A file that is opened was there, or it is made, empty. -/
theorem open?_cases (ho : fs.open? path = .ok (fs', l)) :
    fs'.files = fs.files ∧ fs'.hasFile l = true ∨ fs'.files = fs.files ++ [(l, "")] := by
  unfold Files.open? at ho
  dsimp only at ho
  split at ho
  · cases ho
  · split at ho
    · cases ho
    · rename_i made hmade
      rw [← files_makeDirectories hmade]
      split at ho
      · cases ho
      · split at ho
        · cases ho
        · split at ho
          · rename_i hfile
            cases ho
            exact .inl ⟨rfl, hfile⟩
          · cases ho
            exact .inr rfl

theorem Files.Has.open? (hf : fs.Has l) {l₀ : Location} (ho : fs.open? path = .ok (fs', l₀)) :
    fs'.Has l := by
  obtain ⟨text, htext⟩ := hf
  obtain ⟨he, -⟩ | he := open?_cases ho
  · exact ⟨text, by rw [he, htext]⟩
  · exact ⟨text, by rw [he, List.lookup_append, htext, Option.some_or]⟩

theorem has_of_open? (ho : fs.open? path = .ok (fs', l)) : fs'.Has l := by
  obtain ⟨-, hfile⟩ | he := open?_cases ho
  · exact Files.has_of_hasFile hfile
  · rw [Files.Has, he]
    exact Option.isSome_iff_exists.1 (List.lookup_isSome_iff.2 ⟨(l, ""), by simp⟩)

/-! ### Targets -/

/-- All that was written to a target, if it is there. -/
def Target.output (x : Journal × Stdio) : Target → Option Bytes
  | .file l => (x.1.files.files.lookup l).map Utf8.encode
  | .stream place => x.2.err[place]?.map Stream.output

/-- Whether a stream takes text. -/
def TakesText (s : Stream) : Prop :=
  s.traits.flushFault = none ∧ (s.traits.textOnly = true → s.traits.writeFault = none)

/-- Whether a target is there and takes text. -/
def Target.Takes (x : Journal × Stdio) : Target → Prop
  | .file l => x.1.files.Has l
  | .stream place => ∃ s, x.2.err[place]? = some s ∧ TakesText s

theorem Target.Takes.output (ht : t.Takes x) : ∃ bytes, t.output x = some bytes := by
  cases t with
  | file l =>
    obtain ⟨text, htext⟩ := ht
    exact ⟨_, by rw [Target.output, htext]; rfl⟩
  | stream place =>
    obtain ⟨s, hs, -⟩ := ht
    exact ⟨_, by rw [Target.output, hs]; rfl⟩

theorem writeText_of_takes {s : Stream} (hs : TakesText s) (text : String) :
    ∃ s', s.writeText text = (s', .ok ()) ∧ s'.traits = s.traits ∧ s'.output = s.output ++ Utf8.encode text := by
  have hok : (s.writeText text).2 = .ok () := by
    obtain ⟨⟨textOnly, _, _, _, writeFault, _, _, _⟩, _, _, _, _, _⟩ := s
    cases textOnly with
    | false => cases writeFault <;> rfl
    | true =>
      obtain rfl : writeFault = none := hs.2 rfl
      rfl
  have houtput := s.output_writeText text
  rw [hok] at houtput
  exact ⟨_, by rw [← hok], congrArg (fun s => s.traits) (s.bare_writeText text), houtput⟩

theorem flushText_of_takes {s : Stream} (hs : s.traits.flushFault = none) :
    ∃ s', s.flushText = (s', .ok ()) ∧ s'.output = s.output := by
  have hok : s.flushText.2 = .ok () := by
    obtain ⟨⟨textOnly, _, _, _, _, _, flushFault, _⟩, _, _, _, _, _⟩ := s
    obtain rfl : flushFault = none := hs
    cases textOnly <;> rfl
  exact ⟨_, by rw [← hok], s.output_flushText⟩

/-- A stream that takes text has the line at the end of its output, and nothing is done on another. -/
theorem guardedLine_of_takes {io : Stdio} {place : Nat} {s : Stream} (hs : io.err[place]? = some s)
    (htakes : TakesText s) (text : String) : ∃ s', s'.output = s.output ++ Utf8.encode (text ++ "\n") ∧
      guardedLine io place text = ({ io with err := io.err.set place s' }, .ok ()) := by
  have hinstalled : (io.installed .stderr)[place]? = some s := hs
  obtain ⟨s₁, hwrite, htraits, hwritten⟩ := writeText_of_takes htakes (text ++ "\n")
  have htakes₁ : s₁.traits.flushFault = none := by rw [htraits]; exact htakes.1
  obtain ⟨s₂, hflush, hflushed⟩ := flushText_of_takes htakes₁
  refine ⟨s₂, hflushed.trans hwritten, ?_⟩
  simp only [guardedLine, streamLine, Stdio.update, hinstalled, hwrite, hflush]
  rfl

theorem put_file {l : Location} (ht : h.target = .file l) (r : Record) (x : Journal × Stdio) : h.put r x =
    ({ x.1 with files := x.1.files.append l (h.format.line r.fields ++ "\n") }, x.2) := by
  rw [Handler.put, Handler.write, ht]

theorem put_stream {place : Nat} (ht : h.target = .stream place) (r : Record) (x : Journal × Stdio) :
    h.put r x = (x.1, (guardedLine x.2 place (h.format.line r.fields)).1) := by
  rw [Handler.put, Handler.write, ht]

/-- A target that takes text has the line at the end of what it holds. -/
theorem Target.Takes.output_put (ht : h.target.Takes x) (r : Record) : h.target.output (h.put r x) =
    (h.target.output x).map (· ++ Utf8.encode (h.format.line r.fields ++ "\n")) := by
  cases htarget : h.target with
  | file l =>
    rw [put_file htarget, Target.output, Target.output, lookup_append]
    simp only [if_true, Option.map_map, Function.comp_def, Utf8.encode_append]
  | stream place =>
    rw [htarget] at ht
    obtain ⟨s, hs, htakes⟩ := ht
    obtain ⟨s', houtput, hline⟩ := guardedLine_of_takes hs htakes (h.format.line r.fields)
    obtain ⟨hlt, -⟩ := List.getElem?_eq_some_iff.1 hs
    rw [put_stream htarget, hline, Target.output, Target.output, hs, List.getElem?_set_self hlt, Option.map_some,
      Option.map_some, Option.map_some, houtput]

/-- Another target holds what it held, if it is a file, or if the line is taken, so that no trouble is reported. -/
theorem output_put_of_ne (hne : t ≠ h.target) (hquiet : (∃ l, t = .file l) ∨ h.target.Takes x)
    (r : Record) : t.output (h.put r x) = t.output x := by
  cases htarget : h.target with
  | file l =>
    rw [put_file htarget]
    cases t with
    | stream place => rfl
    | file other =>
      have hother : other ≠ l := fun he => hne (by rw [he, htarget])
      rw [Target.output, Target.output, lookup_append]
      simp only [hother, if_false, Option.map_id']
  | stream place =>
    rw [put_stream htarget]
    cases t with
    | file other => rfl
    | stream other =>
      have hother : place ≠ other := fun he => hne (by rw [← he, htarget])
      obtain ⟨l, hname⟩ | htakes := hquiet
      · cases hname
      · rw [htarget] at htakes
        obtain ⟨s, hs, htakes⟩ := htakes
        obtain ⟨s', -, hline⟩ := guardedLine_of_takes hs htakes (h.format.line r.fields)
        rw [hline, Target.output, Target.output, List.getElem?_set_ne hother]

/-- Whatever a handler writes, a target that takes text goes on to do so. -/
theorem Target.Takes.put (ht : t.Takes x) (h : Handler) (r : Record) : t.Takes (h.put r x) := by
  cases t with
  | file l =>
    cases htarget : h.target with
    | file l₀ =>
      rw [put_file htarget]
      exact Files.Has.append ht l₀ _
    | stream place =>
      rw [put_stream htarget]
      exact ht
  | stream place =>
    obtain ⟨s, hs, htakes⟩ := ht
    have hbare : (h.put r x).2.err.map Stream.bare = x.2.err.map Stream.bare :=
      congrArg Stdio.err (h.noted_write x.1 x.2 r).bare
    have hat : ((h.put r x).2.err[place]?).map Stream.bare = some s.bare := by
      rw [← List.getElem?_map, hbare, List.getElem?_map, hs]
      rfl
    obtain ⟨s', hs', hsame⟩ := Option.map_eq_some_iff.1 hat
    have htraits : s'.traits = s.traits := congrArg (fun s => s.traits) hsame
    exact ⟨s', hs', by rw [TakesText, htraits]; exact htakes⟩

theorem Target.Takes.foldl_put (ht : t.Takes x) (hs : List Handler) (r : Record) :
    t.Takes (hs.foldl (Handler.put r) x) := by
  induction hs generalizing x with
  | nil => exact ht
  | cons h rest ih => exact ih (ht.put h r)

theorem Target.Takes.record (ht : t.Takes x) (hs : List Handler) (level : Nat) (ns : List Notice) :
    t.Takes (Log.record hs level ns x) := by
  rw [Log.record]
  induction ns.filter (admits level) generalizing x with
  | nil => exact ht
  | cons n rest ih => exact ih (ht.foldl_put hs (.ofNotice n))

/-- A target holds what it held, and then a text. -/
def Target.Gains (t : Target) (x x' : Journal × Stdio) (text : String) : Prop :=
  ∃ before, t.output x = some before ∧ t.output x' = some (before ++ Utf8.encode text)

/-! ### The log file -/

/-- Whatever is written, a file that is there stays there. -/
theorem has_writeAll (hf : j.files.Has l) (hs : List Handler) (io : Stdio) (r : Record) :
    (writeAll r hs j io).1.files.Has l := by
  induction hs generalizing j io with
  | nil => exact hf
  | cons h rest ih =>
    have hput : (h.write j io r).1.files.Has l := Target.Takes.put (t := .file l) (x := (j, io)) hf h r
    rw [writeAll]
    split
    · rename_i he
      rw [he] at hput
      exact ih hput _
    · rename_i he
      rw [he] at hput
      exact hput

theorem has_write (hf : j.files.Has l) (io : Stdio) (r : Record) : (j.write io r).1.files.Has l := by
  unfold Journal.write
  split
  · exact hf
  · split
    · split <;> exact hf
    · exact has_writeAll hf _ io r

/-- Whether the file that the journal's own handler writes to is there, if it writes to one. -/
def Journal.HasFile (j : Journal) : Prop :=
  ∀ own l, j.own = some own → own.target = .file l → j.files.Has l

theorem has_of_target {s : Settings} {files : Files} (ht : j.target io s = .ok (files, t)) :
    (∀ l, j.files.Has l → files.Has l) ∧ ∀ l, t = .file l → files.Has l := by
  unfold Journal.target at ht
  split at ht
  · cases ht
    exact ⟨fun _ => id, nofun⟩
  · split at ht
    · cases ht
    · rename_i ho
      cases ht
      refine ⟨fun l hf => hf.open? ho, fun l he => ?_⟩
      cases he
      exact has_of_open? ho

namespace Journal.HasFile

theorem setup (hj : j.HasFile) (io : Stdio) (s : Settings) : (j.setup io s).1.HasFile := by
  unfold Journal.setup
  split
  · exact hj
  · dsimp only
    split
    · exact hj
    · rename_i ht
      obtain ⟨hkept, hnew⟩ := has_of_target ht
      split
      -- if the level is refused, the handler from before is still the journal's own
      · exact fun own l hown htarget => hkept l (hj own l hown htarget)
      · intro own l hown htarget
        cases hown
        exact hnew l htarget

theorem writeEvent (hj : j.HasFile) (io : Stdio) (severity : Severity) (event : String) (given : Fields) :
    (j.writeEvent io severity event given).1.HasFile := by
  obtain ⟨files, he⟩ := j.exists_files_writeEvent io severity event given
  intro own l hown htarget
  have hown' : j.own = some own := by
    rw [he] at hown
    exact hown
  unfold Journal.writeEvent
  split
  · exact has_write (hj own l hown' htarget) io _
  · exact hj own l hown' htarget

theorem configure (hj : j.HasFile) (io : Stdio) (s : Settings) : (j.configure io s).1.HasFile := by
  have hset := hj.setup io s
  unfold Journal.configure
  split
  · exact hj
  · split
    · rename_i he
      rw [he] at hset
      exact hset
    · rename_i j' he
      rw [he] at hset
      -- the first record removes no file
      have hfirst : { j' with emitting := true, subscribers := j'.subscribers + 1 }.HasFile := hset
      have hwritten := hfirst.writeEvent io .debug "observability.configured"
        [("destination", .text s.destination)]
      dsimp only
      split <;> rename_i hw <;> rw [hw] at hwritten <;> exact hwritten

end Journal.HasFile

end Log

namespace Script.State

variable {st : State} {foreign : List Handler}

/-- Whatever step turns the journal on or off, sets its log up, tears it down or gives it a notice, its log file is
there. -/
theorem hasFile_perform (hj : st.session.journal.HasFile) {s : Step} (hs : s.IsLifecycle st.environment) :
    (st.perform s).1.session.journal.HasFile := by
  -- without a handler of its own there is no file to be there
  have hnone : ∀ j : Journal, j.own = none → j.HasFile := by
    intro j hown own l ho
    rw [hown] at ho
    cases ho
  exact journal_perform hs hj (fun _ => hj.configure _ _) (fun _ => hj.setup _ _) (hnone _ rfl) (hnone _ rfl)

namespace Orderly

/-- Settling writes records, which removes no file. -/
theorem hasFile_settle (h : st.Orderly foreign) (hj : st.session.journal.HasFile) :
    st.session.settle.journal.HasFile := by
  obtain ⟨-, ⟨files, hfiles⟩, -, hrecord⟩ :=
    Session.run_delivers h.queue h.reports (Session.length_waitingNotices_le h.queue)
  intro own l hown htarget
  have hown' : st.session.journal.own = some own := by
    rw [Session.settle, hfiles] at hown
    exact hown
  have hne : st.session.journal.handlers ≠ [] := by
    rw [h.tidy.handlers, hown']
    exact List.append_ne_nil_of_right_ne_nil foreign (List.cons_ne_nil own [])
  have htakes : (Log.Target.file l).Takes (st.session.journal, st.session.stdio) := hj own l hown' htarget
  have hrecorded := htakes.record st.session.journal.handlers st.session.journal.level st.session.waitingNotices
  rw [← hrecord hne] at hrecorded
  exact hrecorded

theorem hasFile_step (h : st.Orderly foreign) (hj : st.session.journal.HasFile) {s : Step}
    (hs : s.IsLifecycle st.environment) (hasty : Bool) : (st.step s hasty).1.session.journal.HasFile := by
  have hperform := hasFile_perform hj hs
  cases hasty with
  | true => exact hperform
  | false => exact (h.perform hs).hasFile_settle hperform

theorem hasFile_after (h : st.Orderly foreign) (hj : st.session.journal.HasFile) {steps : List (Step × Bool)}
    (hsteps : ∀ s ∈ steps, s.1.IsLifecycle st.environment) : (st.after steps).session.journal.HasFile := by
  have hboth := after_induction (P := fun st => st.Orderly foreign ∧ st.session.journal.HasFile)
    (fun hasty h hs => ⟨h.1.step hs hasty, h.1.hasFile_step h.2 hs hasty⟩) ⟨h, hj⟩ hsteps
  exact hboth.2

end Orderly

/-- If the journal has a handler of its own that writes to a file, this file is there. -/
theorem AtRest.takes_file (hst : st.AtRest foreign) {steps : List (Step × Bool)}
    (hsteps : ∀ s ∈ steps, s.1.IsLifecycle st.environment) {own : Handler} {l : Location}
    (hown : (st.after steps).session.journal.own = some own) (htarget : own.target = .file l) :
    own.target.Takes ((st.after steps).session.journal, (st.after steps).session.stdio) := by
  have hoff : st.session.journal.HasFile := fun o n ho => by
    rw [hst.own] at ho
    cases ho
  rw [htarget]
  exact hst.orderly.hasFile_after hoff hsteps own l hown htarget

end Script.State

end Outflow
