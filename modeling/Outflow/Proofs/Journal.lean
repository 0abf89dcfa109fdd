import Outflow.Proofs.Stdio

/-!
# Handlers and records

What the journal does with its handlers and with the records of notices.

* `Stdio.TakesReports`: trouble with a handler can always be reported, so that no record fails;
* `Handler.put`, `record`: what the records of notices do when every handler writes each of them once;
* `writeAll_eq`, `Journal.deliver_one`: this is what the journal does;
* `Journal.setup_cases`, `Journal.configure_cases`: what a setup, and turning the journal on, can come to;
* `Journal.Tidy`: the journal has one handler of its own at most, after those from elsewhere, and one
  subscriber exactly if it is on;
* `Tidy.configure`, `Tidy.setup`, `Tidy.teardown`, `Tidy.reset`: it stays so.
-/

namespace Outflow

/-! ### Trouble that can be reported -/

/-- Text written to the error stream in use fails with a system fault at worst. -/
def Stdio.TakesReports (io : Stdio) : Prop :=
  ∀ s, io.err[io.current .stderr]? = some s → s.traits.textOnly = true →
    ∀ f, s.traits.writeFault = some f → f.isSystem = true

variable {io io' : Stdio}

/-- What was written to the streams does not matter. -/
theorem Stdio.TakesReports.of_bare (h : io.TakesReports) (hb : io'.bare = io.bare) : io'.TakesReports := by
  have herr : io'.err.map Stream.bare = io.err.map Stream.bare := congrArg Stdio.err hb
  have hcur : io'.current .stderr = io.current .stderr := by
    have hlen := congrArg List.length herr
    rw [List.length_map, List.length_map] at hlen
    exact congrArg (· - 1) hlen
  intro s hs
  have hbare : (io.err[io.current .stderr]?).map Stream.bare = some s.bare := by
    rw [← List.getElem?_map, ← herr, List.getElem?_map, ← hcur, hs]
    rfl
  obtain ⟨s', hs', hsame⟩ := Option.map_eq_some_iff.mp hbare
  have htraits : s'.traits = s.traits := congrArg (fun s => s.traits) hsame
  rw [← htraits]
  exact h s' hs'

namespace Log

open Text (codesOf)

theorem reportTrouble_ok (h : io.TakesReports) : (reportTrouble io).2 = .ok () := by
  unfold reportTrouble Stdio.update
  cases hs : (io.installed .stderr)[io.current .stderr]? with
  | none => rfl
  | some s =>
    cases htext : s.traits.textOnly with
    | false => simp [Stream.writeText, Stream.record, htext]
    | true =>
      cases hfault : s.traits.writeFault with
      | none => simp [Stream.writeText, Stream.record, htext, hfault]
      | some f => simp [Stream.writeText, Stream.record, htext, hfault, h s hs htext f hfault]

theorem guardedLine_ok (h : io.TakesReports) (place : Nat) (text : String) :
    (guardedLine io place text).2 = .ok () := by
  have hline := (noted_streamLine io place text).bare
  unfold guardedLine
  split
  · rfl
  · rename_i he
    rw [he] at hline
    exact reportTrouble_ok (h.of_bare hline)

/-! ### Records -/

variable {j : Journal} {h : Handler} {hs : List Handler} {r : Record} {n : Notice}

/-- The journal and the standard streams after a handler wrote a record. -/
def Handler.put (r : Record) (x : Journal × Stdio) (h : Handler) : Journal × Stdio :=
  ((h.write x.1 x.2 r).1, (h.write x.1 x.2 r).2.1)

/-- Whether a level lets the record of a notice pass. -/
def admits (level : Nat) (n : Notice) : Bool := level ≤ (noticeSeverity n).number

/-- The journal and the standard streams after every handler of a list wrote the record of each notice once,
if the level lets it pass. -/
def record (hs : List Handler) (level : Nat) (ns : List Notice) (x : Journal × Stdio) : Journal × Stdio :=
  (ns.filter (admits level)).foldl (fun x n => hs.foldl (Handler.put (.ofNotice n)) x) x

@[simp] theorem record_nil (level : Nat) (x : Journal × Stdio) : record hs level [] x = x := rfl

theorem record_append (level : Nat) (ns ms : List Notice) (x : Journal × Stdio) :
    record hs level (ns ++ ms) x = record hs level ms (record hs level ns x) := by
  rw [record, List.filter_append, List.foldl_append]
  rfl

theorem record_singleton (level : Nat) (x : Journal × Stdio) :
    record hs level [n] x = if admits level n then hs.foldl (Handler.put (.ofNotice n)) x else x := by
  by_cases ha : admits level n = true <;> simp [record, ha]

/-- Writing a record changes the files of the journal and nothing else of it. -/
theorem Handler.exists_files (h : Handler) (j : Journal) (io : Stdio) (r : Record) :
    ∃ files, (h.write j io r).1 = { j with files } := by
  unfold Handler.write
  cases h.target with
  | file name => exact ⟨_, rfl⟩
  | stream place => exact ⟨j.files, rfl⟩

theorem exists_files_writeAll (hs : List Handler) (j : Journal) (io : Stdio) (r : Record) :
    ∃ files, (writeAll r hs j io).1 = { j with files } := by
  induction hs generalizing j io with
  | nil => exact ⟨j.files, rfl⟩
  | cons h rest ih =>
    obtain ⟨files, hwrite⟩ := h.exists_files j io r
    rw [writeAll]
    split
    · rename_i j' io' he
      rw [he] at hwrite
      subst hwrite
      exact ih ..
    · rename_i he
      rw [he] at hwrite
      exact ⟨files, hwrite⟩

theorem Journal.exists_files_write (j : Journal) (io : Stdio) (r : Record) :
    ∃ files, (j.write io r).1 = { j with files } := by
  unfold Journal.write
  split
  · exact ⟨j.files, rfl⟩
  · split
    · split <;> exact ⟨j.files, rfl⟩
    · exact exists_files_writeAll ..

theorem Journal.exists_files_deliver (j : Journal) (io : Stdio) (n : Notice) (copies : Nat) :
    ∃ files, (j.deliver io n copies).1 = { j with files } := by
  induction copies generalizing j io with
  | zero => exact ⟨j.files, rfl⟩
  | succ copies ih =>
    obtain ⟨files, hwrite⟩ := j.exists_files_write io (.ofNotice n)
    obtain ⟨files', hrest⟩ := ih (j.write io (.ofNotice n)).1 (j.write io (.ofNotice n)).2.1
    exact ⟨files', by rw [Journal.deliver, hrest, hwrite]⟩

theorem Journal.exists_files_writeEvent (j : Journal) (io : Stdio) (severity : Severity) (event : String)
    (given : Fields) : ∃ files, (j.writeEvent io severity event given).1 = { j with files } := by
  unfold Journal.writeEvent
  split
  · exact j.exists_files_write ..
  · exact ⟨j.files, rfl⟩

theorem Journal.bare_writeEvent (j : Journal) (io : Stdio) (severity : Severity) (event : String)
    (given : Fields) : (j.writeEvent io severity event given).2.1.bare = io.bare := by
  unfold Journal.writeEvent
  split
  · exact (j.noted_write _ _).bare
  · rfl

/-- Where trouble can be reported, every handler writes the record. -/
theorem writeAll_eq (hio : io.TakesReports) (hs : List Handler) (j : Journal) (r : Record) :
    writeAll r hs j io
      = ((hs.foldl (Handler.put r) (j, io)).1, (hs.foldl (Handler.put r) (j, io)).2, .ok ()) := by
  induction hs generalizing j io with
  | nil => rfl
  | cons h rest ih =>
    have hok : (h.write j io r).2.2 = .ok () := by
      unfold Handler.write
      cases h.target with
      | file name => rfl
      | stream place => exact guardedLine_ok hio place _
    have hbare : (h.write j io r).2.1.bare = io.bare := (h.noted_write j io r).bare
    have hwrite : h.write j io r = ((h.write j io r).1, (h.write j io r).2.1, .ok ()) := by rw [← hok]
    rw [writeAll, hwrite]
    exact ih (hio.of_bare hbare) (h.write j io r).1

theorem Journal.write_ok (hio : io.TakesReports) (j : Journal) (r : Record) : (j.write io r).2.2 = .ok () := by
  unfold Journal.write
  split
  · rfl
  · split
    · split
      · rfl
      · exact guardedLine_ok hio ..
    · rw [writeAll_eq hio]

theorem Journal.writeEvent_ok (hio : io.TakesReports) (j : Journal) (severity : Severity) (event : String)
    (given : Fields) : (j.writeEvent io severity event given).2.2 = .ok () := by
  unfold Journal.writeEvent
  split
  · exact j.write_ok hio _
  · rfl

/-- A notice for one subscriber is written once by every attached handler, if the level lets it pass. -/
theorem Journal.deliver_one (hio : io.TakesReports) (hne : j.handlers ≠ []) (n : Notice) :
    j.deliver io n 1 = record j.handlers j.level [n] (j, io) := by
  have hsev : (Record.ofNotice n).severity = noticeSeverity n := rfl
  have honce : j.deliver io n 1 = ((j.write io (.ofNotice n)).1, (j.write io (.ofNotice n)).2.1) := rfl
  rw [honce, record_singleton, Journal.write, hsev]
  by_cases hlow : (noticeSeverity n).number < j.level
  · have ha : ¬ admits j.level n = true := by
      simp only [admits, decide_eq_true_eq]
      omega
    rw [if_pos hlow, if_neg ha]
  · have ha : admits j.level n = true := by
      simp only [admits, decide_eq_true_eq]
      omega
    rw [if_neg hlow, if_pos ha]
    cases hh : j.handlers with
    | nil => exact absurd hh hne
    | cons h rest => simp only [writeAll_eq hio]

/-! ### Setting the log up -/

/-- Whether a setup failed before it touched the handlers. -/
def SetupError.IsEarly : SetupError → Prop
  | .unknownDestination _ | .file _ => True
  | .level _ | .write _ => False

/-- The journal with a new handler in place of the recorded one, before the level is set. -/
def Journal.attached (j : Journal) (h : Handler) (files : Files) : Journal :=
  { j.detach j.own with
    handlers := (j.detach j.own).handlers ++ [h]
    made := j.made + 1
    prepared := true
    files }

/-- A setup fails early and changes nothing, except that it may have given events their form; or it attaches a new
handler, and then fails just if the level is refused. -/
theorem Journal.setup_cases (j : Journal) (io : Stdio) (s : Settings) :
    (∃ prepared e, SetupError.IsEarly e ∧ j.setup io s = ({ j with prepared }, .error e)) ∨
      ∃ h files, h.number = j.made ∧
        ((∃ e, Level.ofName s.level = .error e ∧ j.setup io s = (j.attached h files, .error (.level e))) ∨
          ∃ level, Level.ofName s.level = .ok level ∧
            j.setup io s = ({ j.attached h files with level, own := some h }, .ok ())) := by
  unfold Journal.setup
  split
  · exact .inl ⟨j.prepared, .unknownDestination s.destination, trivial, rfl⟩
  · dsimp only
    cases htarget : { j with prepared := true }.target io s with
    | error e =>
      have hearly : e.IsEarly := by
        unfold Journal.target at htarget
        split at htarget
        · cases htarget
        · split at htarget
          · cases htarget
            trivial
          · cases htarget
      exact .inl ⟨true, e, hearly, rfl⟩
    | ok made =>
      obtain ⟨files, target⟩ := made
      refine .inr ⟨⟨j.made, target, .ofName s.format⟩, files, rfl, ?_⟩
      cases Level.ofName s.level with
      | error e => exact .inl ⟨e, rfl, rfl⟩
      | ok level => exact .inr ⟨level, rfl, rfl⟩

/-- A setup subscribes nobody. -/
theorem Journal.subscribers_setup (j : Journal) (io : Stdio) (s : Settings) :
    (j.setup io s).1.subscribers = j.subscribers := by
  obtain ⟨prepared, e, -, he⟩ | ⟨h, files, -, ⟨e, -, he⟩ | ⟨level, -, he⟩⟩ := j.setup_cases io s <;> rw [he] <;> rfl

/-- A journal that is on stays as it is.  Turning it on fails as its setup does, or it is passing notices on by
the time at which its first record is written; that fails only if trouble cannot be reported. -/
theorem Journal.configure_cases (j : Journal) (io : Stdio) (s : Settings) :
    ((j.configured && j.emitting) = true ∧ j.configure io s = (j, io, .ok true)) ∨
      (∃ j' e, j.setup io s = (j', .error e) ∧ j.configure io s = (j', io, .error e)) ∨
        ∃ j' files io', (j.configured && j.emitting) = false ∧ j.setup io s = (j', .ok ()) ∧
          ((∃ f, ¬ io.TakesReports ∧ (j.configure io s).2.2 = .error (.write f)) ∨
            j.configure io s = ({ j' with
              emitting := true, subscribers := j'.subscribers + 1, configured := true, files }, io', .ok false)) := by
  unfold Journal.configure
  split
  · rename_i hon
    exact .inl ⟨hon, rfl⟩
  · rename_i hoff
    rw [Bool.not_eq_true] at hoff
    right
    cases hset : j.setup io s with
    | mk j' result =>
      cases result with
      | error e => exact .inl ⟨j', e, rfl, rfl⟩
      | ok u =>
        right
        let on : Journal := { j' with emitting := true, subscribers := j'.subscribers + 1 }
        have hfirst : io.TakesReports → (on.writeEvent io .debug "observability.configured"
            [("destination", .text s.destination)]).2.2 = .ok () := fun hio => on.writeEvent_ok hio ..
        obtain ⟨files, hfiles⟩ := on.exists_files_writeEvent io .debug "observability.configured"
          [("destination", .text s.destination)]
        dsimp only
        split
        · rename_i f hw
          rw [hw] at hfirst
          refine ⟨j', files, io, hoff, rfl, .inl ⟨f, fun hio => ?_, rfl⟩⟩
          cases hfirst hio
        · rename_i io' hw
          rw [hw] at hfiles
          subst hfiles
          exact ⟨j', files, io', hoff, rfl, .inr rfl⟩

/-! ### The handlers of the journal -/

/-- After the handlers from elsewhere, in their order, the journal has one handler at most, the one that is
recorded as its own; it passes notices on exactly if it is turned on, and then every kind of notice has one
subscriber. -/
structure Journal.Tidy (foreign : List Handler) (j : Journal) : Prop where
  handlers : j.handlers = foreign ++ j.own.toList
  own : ∀ h, j.own = some h → h ∉ foreign
  numbered : ∀ h ∈ foreign, h.number < j.made
  emitting : j.configured = j.emitting
  subscribers : j.subscribers = if j.configured then 1 else 0

namespace Journal.Tidy

variable {foreign : List Handler} {s : Settings}

theorem of_files (h : j.Tidy foreign) (files : Files) : { j with files }.Tidy foreign :=
  ⟨h.handlers, h.own, h.numbered, h.emitting, h.subscribers⟩

/-- Without the recorded handler, the handlers from elsewhere are left. -/
theorem detach_handlers (h : j.Tidy foreign) : (j.detach j.own).handlers = foreign := by
  rw [Journal.detach, h.handlers, List.filter_append]
  cases hown : j.own with
  | none => simp
  | some o =>
    have hforeign : ∀ x ∈ foreign, x ≠ o := fun x hx he => h.own o hown (he ▸ hx)
    simpa using hforeign

theorem teardown (h : j.Tidy foreign) : j.teardown.Tidy foreign where
  handlers := by
    rw [Journal.teardown, h.detach_handlers]
    exact (List.append_nil foreign).symm
  own := fun o ho => by cases ho
  numbered := h.numbered
  emitting := h.emitting
  subscribers := h.subscribers

theorem reset (h : j.Tidy foreign) : j.reset.Tidy foreign :=
  ⟨h.teardown.handlers, h.teardown.own, h.numbered, rfl, rfl⟩

theorem setup (h : j.Tidy foreign) (io : Stdio) {level : Nat} (hl : Level.ofName s.level = .ok level) :
    (j.setup io s).1.Tidy foreign := by
  obtain ⟨prepared, e, -, he⟩ | ⟨o, files, hnumber, ⟨e, hrefused, -⟩ | ⟨level', -, he⟩⟩ := j.setup_cases io s
  · rw [he]
    exact ⟨h.handlers, h.own, h.numbered, h.emitting, h.subscribers⟩
  · rw [hl] at hrefused
    cases hrefused
  · have hfresh : o ∉ foreign := fun hm => by
      have hlt := h.numbered o hm
      omega
    have hhandlers : (j.attached o files).handlers = foreign ++ [o] := by
      rw [Journal.attached, h.detach_handlers]
    rw [he]
    exact ⟨hhandlers, fun o' ho' => by cases ho'; exact hfresh,
      fun x hx => Nat.lt_succ_of_lt (h.numbered x hx), h.emitting, h.subscribers⟩

/-- Turning the journal on keeps it tidy, since its first record does not fail. -/
theorem configure (h : j.Tidy foreign) (hio : io.TakesReports) {level : Nat}
    (hl : Level.ofName s.level = .ok level) : (j.configure io s).1.Tidy foreign := by
  have hset := h.setup io hl
  obtain ⟨-, he⟩ | ⟨j', e, hj', he⟩ | ⟨j', files, io', hoff, hj', ⟨f, hno, -⟩ | he⟩ := j.configure_cases io s
  · rw [he]
    exact h
  · rw [hj'] at hset
    rw [he]
    exact hset
  · exact absurd hio hno
  · have hconf : j.configured = false := by
      rwa [← h.emitting, Bool.and_self] at hoff
    have hsub := j.subscribers_setup io s
    rw [hj'] at hset hsub
    have hone : j'.subscribers + 1 = 1 := by
      rw [hsub, h.subscribers, hconf]
      rfl
    rw [he]
    exact ⟨hset.handlers, hset.own, hset.numbered, rfl, hone⟩

end Journal.Tidy

/-! ### Open handlers -/

/-- The handler that is recorded as the journal's own is open; only handlers that were made have been closed. -/
structure Journal.OwnOpen (j : Journal) : Prop where
  closed : ∀ number ∈ j.closed, number < j.made
  own : ∀ h, j.own = some h → h.number < j.made ∧ j.isOpen h = true

theorem Journal.isOpen_iff {j : Journal} {h : Handler} : j.isOpen h = true ↔ h.number ∉ j.closed := by
  simp [Journal.isOpen]

theorem ownOpen_start : Journal.start.OwnOpen := ⟨nofun, nofun⟩

namespace Journal.OwnOpen

variable {s : Settings}

theorem of_files (h : j.OwnOpen) (files : Files) : { j with files }.OwnOpen := ⟨h.closed, h.own⟩

theorem closed_detach (h : j.OwnOpen) : ∀ number ∈ (j.detach j.own).closed, number < j.made := by
  intro number hm
  rcases List.mem_append.1 hm with hm | hm
  · exact h.closed number hm
  · obtain ⟨o, ho, rfl⟩ := Option.map_eq_some_iff.1 (Option.mem_toList.1 hm)
    exact (h.own o ho).1

theorem teardown (h : j.OwnOpen) : j.teardown.OwnOpen := ⟨h.closed_detach, nofun⟩

theorem reset (h : j.OwnOpen) : j.reset.OwnOpen := ⟨h.closed_detach, nofun⟩

/-- A new handler has a number that no closed one has. -/
theorem setup (h : j.OwnOpen) (io : Stdio) {level : Nat} (hl : Level.ofName s.level = .ok level) :
    (j.setup io s).1.OwnOpen := by
  obtain ⟨prepared, e, -, he⟩ | ⟨o, files, hnumber, ⟨e, hrefused, -⟩ | ⟨level', -, he⟩⟩ := j.setup_cases io s
  · rw [he]
    exact ⟨h.closed, h.own⟩
  · rw [hl] at hrefused
    cases hrefused
  · rw [he]
    refine ⟨fun number hm => Nat.lt_succ_of_lt (h.closed_detach number hm), fun o' ho' => ?_⟩
    cases ho'
    refine ⟨hnumber ▸ Nat.lt_succ_self _, isOpen_iff.2 fun hm => ?_⟩
    have hlt := h.closed_detach o.number hm
    omega

theorem configure (h : j.OwnOpen) (hio : io.TakesReports) {level : Nat} (hl : Level.ofName s.level = .ok level) :
    (j.configure io s).1.OwnOpen := by
  have hset := h.setup io hl
  obtain ⟨-, he⟩ | ⟨j', e, hj', he⟩ | ⟨j', files, io', -, hj', ⟨f, hno, -⟩ | he⟩ := j.configure_cases io s
  · rw [he]
    exact h
  · rw [hj'] at hset
    rw [he]
    exact hset
  · exact absurd hio hno
  · rw [hj'] at hset
    rw [he]
    exact ⟨hset.closed, hset.own⟩

end Journal.OwnOpen

/-- A refused level leaves the handler from before recorded, which has been closed. -/
theorem Journal.isOpen_of_refused (j : Journal) (io : Stdio) {s : Settings} {e : LevelError}
    (h : (j.setup io s).2 = .error (.level e)) :
    (j.setup io s).1.own = j.own ∧ ∀ o, j.own = some o → (j.setup io s).1.isOpen o = false := by
  obtain ⟨prepared, e', hearly, he⟩ | ⟨new, files, -, ⟨e', -, he⟩ | ⟨level, -, he⟩⟩ := j.setup_cases io s
  · rw [he] at h
    cases h
    exact absurd hearly id
  · rw [he]
    refine ⟨rfl, fun o ho => ?_⟩
    have hclosed : o.number ∈ (j.attached new files).closed :=
      List.mem_append_right _ (Option.mem_toList.2 (congrArg (Option.map Handler.number) ho))
    rw [Bool.eq_false_iff, ne_eq, isOpen_iff, not_not]
    exact hclosed
  · rw [he] at h
    cases h

/-- Turning the journal on changes nothing about what the standard streams answer. -/
theorem Journal.bare_configure (j : Journal) (io : Stdio) (s : Settings) :
    (j.configure io s).2.1.bare = io.bare := by
  unfold Journal.configure
  split
  · rfl
  · split
    · rfl
    · rename_i j' _
      have hbare := { j' with emitting := true, subscribers := j'.subscribers + 1 }.bare_writeEvent io .debug
        "observability.configured" [("destination", .text s.destination)]
      dsimp only
      split <;> rename_i hw <;> rw [hw] at hbare <;> exact hbare

/-! ### A log file -/

/-- The location of a log file in the root. -/
def atG : Location := [codesOf "g"]

theorem open_g : Files.empty.open? (codesOf "g") = .ok (⟨[], [(atG, "")], []⟩, atG) := rfl

/-- The settings of a log in this file, for information and worse. -/
def Settings.toG : Settings := ⟨codesOf "jsonl", codesOf "INFO", codesOf "json", some (codesOf "g")⟩

/-- The journal when it has been turned on with a log file. -/
def Journal.loggingTo (j : Journal) : Journal :=
  { j with
    handlers := (j.detach j.own).handlers ++ [⟨j.made, .file atG, .json⟩]
    own := some ⟨j.made, .file atG, .json⟩
    closed := (j.detach j.own).closed
    made := j.made + 1
    level := 20
    prepared := true
    emitting := true
    configured := true
    subscribers := j.subscribers + 1
    files := ⟨[], [(atG, "")], []⟩ }

theorem Journal.configure_file {j : Journal} (io : Stdio) (hoff : (j.configured && j.emitting) = false)
    (hfiles : j.files = .empty) :
    j.configure io .toG = (j.loggingTo, io, .ok false) := by
  have hlevel : Level.ofName Settings.toG.level = .ok 20 := rfl
  have htarget : { j with prepared := true }.target io .toG
      = .ok (⟨[], [(atG, "")], []⟩, .file atG) := by
    have hpath : Settings.toG.filePath = codesOf "g" := rfl
    rw [Journal.target, if_neg (by decide), hpath, hfiles, open_g]
  have hsetup : j.setup io .toG = ({ j.loggingTo with
      emitting := j.emitting, configured := j.configured, subscribers := j.subscribers }, .ok ()) := by
    rw [Journal.setup, if_neg (by decide)]
    dsimp only
    rw [htarget, hlevel]
    rfl
  rw [Journal.configure, hoff, hsetup]
  rfl

end Log

end Outflow
