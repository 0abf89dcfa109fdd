import Outflow.Proofs.JsonReading
import Outflow.Proofs.Targets

/-!
# Log lines

A log of JSON lines can be read: it tells the notices that it was written for, whatever texts they hold.

* `Notice.IsText`: a notice of texts of Unicode, in which no two surrogates stand for another character;
* `Notice.joined`, `joined_eq_self_iff`: a notice with its pairs joined, which is itself just if it has none;
* `Log.noticeTexts`, `Log.noticeLine`: what the line of a notice has to say, and the line;
* `noticeLine_eq_iff`: two notices have the same line just if they are the same when joined;
* `Log.readLog`, `readLog_logText`: the entries of a log, which are those that it was written for;
* `Handler.Alone`: a handler writes JSON where nobody else writes;
* `Alone.record_one`, `Alone.record`: the record of a notice adds its line, and records add a log;
* `log_lines_lossless`.
-/

namespace Outflow

open Text (Codes codesOf Utf8.encode Utf8.encode_append Utf8.encode_empty)
open Log (Handler Journal)

namespace Text

/-- A string is got back from its code points. -/
theorem toText_codesOf (s : String) : Codes.toText (codesOf s) = s := by
  have hchar : ∀ x : Char, (if 0xD800 ≤ x.toNat && x.toNat < 0xE000 then Char.ofNat 0xFFFD
      else Char.ofNat x.toNat) = x := by
    intro x
    -- no character is a surrogate
    have hvalid : ¬ (0xD800 ≤ x.toNat && x.toNat < 0xE000) = true := by
      rw [Bool.and_eq_true, decide_eq_true_eq, decide_eq_true_eq]
      have hscalar : x.toNat < 0xD800 ∨ 0xDFFF < x.toNat ∧ x.toNat < 0x110000 := x.valid
      omega
    rw [if_neg hvalid, Char.ofNat_toNat]
  rw [Codes.toText, codesOf, List.map_map]
  simp only [Function.comp_def, hchar, List.map_id', String.ofList_toList]

end Text

/-! ### The texts of a notice -/

namespace Notice

/-- The texts that a notice holds. -/
def texts : Notice → List Codes
  | .shutDown destination => [destination]
  | .failed destination verb error label => [destination, verb, error, label]

/-- Whether the texts of a notice are all made of code points. -/
def IsUnicode (n : Notice) : Prop := ∀ cs ∈ n.texts, Json.IsUnicode cs

instance : DecidablePred IsUnicode := fun n => inferInstanceAs (Decidable (∀ cs ∈ n.texts, Json.IsUnicode cs))

/-- Whether no high surrogate in a notice has a low one right after it. -/
def IsUnpaired (n : Notice) : Prop := ∀ cs ∈ n.texts, Json.IsUnpaired cs

instance : DecidablePred IsUnpaired := fun n => inferInstanceAs (Decidable (∀ cs ∈ n.texts, Json.IsUnpaired cs))

/-- Whether the texts of a notice are texts of Unicode: code points, of which no two are the UTF-16 spelling of
another one. -/
def IsText (n : Notice) : Prop := n.IsUnicode ∧ n.IsUnpaired

instance : DecidablePred IsText := fun n => inferInstanceAs (Decidable (n.IsUnicode ∧ n.IsUnpaired))

/-- The notice with each pair of surrogates joined to the code point that it stands for. -/
def joined : Notice → Notice
  | .shutDown destination => .shutDown (Json.joinUnits destination)
  | .failed destination verb error label =>
    .failed (Json.joinUnits destination) (Json.joinUnits verb) (Json.joinUnits error) (Json.joinUnits label)

theorem joined_eq_self_iff {n : Notice} : n.joined = n ↔ n.IsUnpaired := by
  cases n <;> simp [joined, IsUnpaired, texts, Json.joinUnits_eq_self_iff]

theorem IsText.joined {n : Notice} (h : n.IsText) : n.joined = n := joined_eq_self_iff.2 h.2

-- A pair of surrogates is joined.
example : (shutDown [0xD83D, 0xDE00]).joined = .shutDown [0x1F600] := by decide

end Notice

namespace Log

variable {time time' : String} {n n' : Notice}

/-! ### The line of a notice -/

/-- What the line of a notice has to say: the fields of the notice, its event, its level and the time. -/
def noticeTexts (time : String) : Notice → List (String × Codes)
  | .shutDown destination =>
    [("kind", destination), ("event", codesOf "writer.shutdown"), ("level", codesOf "info"),
      ("timestamp", codesOf time)]
  | .failed destination verb error label =>
    [("kind", destination), ("op", verb), ("error", error), ("error_type", label),
      ("event", codesOf "writer.failed"), ("level", codesOf "error"), ("timestamp", codesOf time)]

/-- The line of the record of a notice, with a time in place of the mark. -/
def noticeLine (time : String) (n : Notice) : String :=
  Format.json.line ((Record.ofNotice n).fields.set "timestamp" (.ofString time))

theorem noticeLine_eq (time : String) (n : Notice) :
    noticeLine time n = jsonLine (textFields (noticeTexts time n)) := by
  cases n <;> rfl

theorem line_ofNotice (n : Notice) : Format.json.line (Record.ofNotice n).fields = noticeLine timeMark n := by
  cases n <;> rfl

/-- No name stands twice on a line. -/
theorem nodup_noticeTexts (time : String) (n : Notice) : ((noticeTexts time n).map Prod.fst).Nodup := by
  cases n <;> simp [noticeTexts]

/-- What a notice and its line share is made of code points. -/
theorem isUnicode_noticeTexts (h : n.IsUnicode) (time : String) : ∀ m ∈ noticeTexts time n, Json.IsUnicode m.2 := by
  cases n <;> simpa [noticeTexts, Notice.IsUnicode, Notice.texts, Json.isUnicode_codesOf] using h

/-- Only the texts of the notice itself can have pairs. -/
theorem noticeTexts_joined (time : String) (n : Notice) :
    noticeTexts time n.joined = (noticeTexts time n).map fun m => (m.1, Json.joinUnits m.2) := by
  have hfixed : ∀ s, Json.joinUnits (codesOf s) = codesOf s := fun s =>
    Json.joinUnits_eq_self_iff.2 (Json.isUnpaired_codesOf s)
  cases n <;> simp only [noticeTexts, Notice.joined, List.map_cons, List.map_nil, hfixed]

theorem isShown_noticeLine (time : String) (n : Notice) : ∀ x ∈ (noticeLine time n).toList, IsShown x := by
  rw [noticeLine_eq]
  exact isShown_jsonLine _

/-- What is read from the line of a notice is what the notice has to say when it is joined. -/
theorem read_noticeLine (h : n.IsUnicode) (time : String) : Json.read (noticeLine time n).toList =
    some (.object ((noticeTexts time n.joined).map fun m => (codesOf m.1, .text m.2))) := by
  rw [noticeLine_eq, read_jsonLine (isUnicode_noticeTexts h time), noticeTexts_joined, List.map_map]
  rfl

/-! ### Reading a log -/

/-- The texts of an object by their names, if all that it holds are texts. -/
def textsOf? : Json → Option (List (String × Codes))
  | .object members => members.mapM fun m =>
    match m.2 with
    | .text cs => some (Codes.toText m.1, cs)
    | _ => none
  | _ => none

/-- The time and the notice that the texts of a line tell. -/
def entryOf? (ms : List (String × Codes)) : Option (String × Notice) := do
  let time ← ms.lookup "timestamp"
  let destination ← ms.lookup "kind"
  let event ← ms.lookup "event"
  if event = codesOf "writer.shutdown" then some (time.toText, .shutDown destination)
  else if event = codesOf "writer.failed" then
    some (time.toText, .failed destination (← ms.lookup "op") (← ms.lookup "error") (← ms.lookup "error_type"))
  else none

/-- The lines of a text, each of which a line break ends. -/
def linesOf (text : String) : List (List Char) := (text.toList.splitOn '\n').dropLast

/-- The entries of a log, a time and a notice for each line. -/
def readLog (text : String) : Option (List (String × Notice)) :=
  (linesOf text).mapM fun line => ((Json.read line).bind textsOf?).bind entryOf?

/-- The log of some entries. -/
def logText : List (String × Notice) → String
  | [] => ""
  | e :: rest => noticeLine e.1 e.2 ++ "\n" ++ logText rest

theorem textsOf?_object (ms : List (String × Codes)) :
    textsOf? (.object (ms.map fun m => (codesOf m.1, .text m.2))) = some ms := by
  rw [textsOf?]
  induction ms with
  | nil => rfl
  | cons m ms ih =>
    rw [List.map_cons, List.mapM_cons, ih]
    simp only [Text.toText_codesOf]
    rfl

-- The reader takes JSON as others may write it, too.
example : (Json.read "\x7b \"a\" :\n\"\\u0041\\/é\" , \"b\":\"\"\x7d ".toList).bind textsOf? =
    some [("a", codesOf "A/é"), ("b", [])] := by decide +kernel

theorem entryOf?_noticeTexts (time : String) (n : Notice) : entryOf? (noticeTexts time n) = some (time, n) := by
  have hevent : codesOf "writer.failed" ≠ codesOf "writer.shutdown" := by decide
  cases n <;> simp [entryOf?, noticeTexts, List.lookup_cons, Text.toText_codesOf, hevent]

/-- The entry that is read from the line of a notice. -/
theorem entry_noticeLine (h : n.IsUnicode) (time : String) :
    ((Json.read (noticeLine time n).toList).bind textsOf?).bind entryOf? = some (time, n.joined) := by
  rw [read_noticeLine h, Option.bind_some, textsOf?_object, Option.bind_some, entryOf?_noticeTexts]

/-- The lines of a log are those of its entries. -/
theorem linesOf_logText (entries : List (String × Notice)) :
    linesOf (logText entries) = entries.map fun e => (noticeLine e.1 e.2).toList := by
  induction entries with
  | nil => rfl
  | cons e rest ih =>
    -- a line has no line break in it
    have hline : ∀ x ∈ (noticeLine e.1 e.2).toList, (x == '\n') = false := by
      intro x hx
      rw [beq_eq_false_iff_ne]
      rintro rfl
      exact absurd (isShown_noticeLine e.1 e.2 _ hx).1 (by decide)
    have htext : (logText (e :: rest)).toList = (noticeLine e.1 e.2).toList ++ '\n' :: (logText rest).toList := by
      rw [logText, String.toList_append, String.toList_append, List.append_assoc]
      rfl
    rw [linesOf, htext, List.splitOn, List.splitOnP_append_cons_of_forall_mem hline '\n' rfl,
      List.dropLast_cons_of_ne_nil (List.splitOnP_ne_nil _ _), List.map_cons, ← ih]
    rfl

/-- A log tells the entries that it was written for, in their order, with their pairs joined. -/
theorem readLog_logText {entries : List (String × Notice)} (h : ∀ e ∈ entries, e.2.IsUnicode) :
    readLog (logText entries) = some (entries.map fun e => (e.1, e.2.joined)) := by
  rw [readLog, linesOf_logText]
  induction entries with
  | nil => rfl
  | cons e rest ih =>
    rw [List.map_cons, List.mapM_cons, ih fun e' he => h e' (List.mem_cons_of_mem e he),
      entry_noticeLine (h e List.mem_cons_self)]
    rfl

/-- So a log of texts is read as it was written. -/
theorem readLog_of_isText {entries : List (String × Notice)} (h : ∀ e ∈ entries, e.2.IsText) :
    readLog (logText entries) = some entries := by
  have hself : entries.map (fun e => (e.1, e.2.joined)) = entries :=
    List.map_congr_left (fun e he => congrArg (Prod.mk e.1) (h e he).joined) |>.trans (List.map_id' entries)
  rw [readLog_logText fun e he => (h e he).1, hself]

/-- Two notices have the same line just if they are the same when their pairs are joined. -/
theorem noticeLine_eq_iff (h : n.IsUnicode) (h' : n'.IsUnicode) :
    noticeLine time n = noticeLine time' n' ↔ time = time' ∧ n.joined = n'.joined := by
  constructor
  · intro hline
    have hentry := entry_noticeLine h time
    rw [hline, entry_noticeLine h' time', Option.some.injEq, Prod.mk.injEq] at hentry
    exact ⟨hentry.1.symm, hentry.2.symm⟩
  · rintro ⟨rfl, hjoined⟩
    rw [noticeLine_eq, noticeLine_eq, ← jsonLine_joined, ← jsonLine_joined (noticeTexts time n'),
      ← noticeTexts_joined, ← noticeTexts_joined, hjoined]

/-! ### A handler that writes alone -/

variable {x : Journal × Stdio} {own : Handler} {others front back : List Handler}

/-- A handler writes JSON to a target that takes it, and nobody else writes there: no other handler, and if it is a
stream, no trouble with another handler is reported. -/
structure Handler.Alone (own : Handler) (others : List Handler) (x : Journal × Stdio) : Prop where
  json : own.format = .json
  takes : own.target.Takes x
  apart : ∀ h ∈ others, own.target ≠ h.target
  quiet : (∃ name, own.target = .file name) ∨ ∀ h ∈ others, h.target.Takes x

namespace Handler.Alone

theorem put (ha : own.Alone others x) (h : Handler) (r : Record) : own.Alone others (h.put r x) where
  json := ha.json
  takes := ha.takes.put h r
  apart := ha.apart
  quiet := ha.quiet.imp_right fun hall h' hm => (hall h' hm).put h r

/-- The other handlers leave the target as it is. -/
theorem foldl_put (ha : own.Alone others x) (r : Record) {hs : List Handler} (hs' : ∀ h ∈ hs, h ∈ others) :
    own.Alone others (hs.foldl (Handler.put r) x) ∧
      own.target.output (hs.foldl (Handler.put r) x) = own.target.output x := by
  induction hs generalizing x with
  | nil => exact ⟨ha, rfl⟩
  | cons h rest ih =>
    have hm := hs' h List.mem_cons_self
    obtain ⟨hrest, houtput⟩ := ih (ha.put h r) fun h' hm' => hs' h' (List.mem_cons_of_mem h hm')
    refine ⟨hrest, houtput.trans ?_⟩
    exact output_put_of_ne (ha.apart h hm) (ha.quiet.imp_right fun hall => hall h hm) r

/-- The record of a notice adds its line to the target. -/
theorem record_one (ha : own.Alone (front ++ back) x) (n : Notice) :
    let x' := (front ++ own :: back).foldl (Handler.put (.ofNotice n)) x
    own.Alone (front ++ back) x' ∧ own.target.output x' =
      (own.target.output x).map (· ++ Utf8.encode (noticeLine timeMark n ++ "\n")) := by
  intro x'
  obtain ⟨hfront, hbefore⟩ := ha.foldl_put (.ofNotice n) fun h hm => List.mem_append_left back hm
  have hown := hfront.put own (.ofNotice n)
  obtain ⟨hback, hafter⟩ := hown.foldl_put (.ofNotice n) fun h hm => List.mem_append_right front hm
  have hx' : x' = back.foldl (Handler.put (.ofNotice n))
      (own.put (.ofNotice n) (front.foldl (Handler.put (.ofNotice n)) x)) := List.foldl_append ..
  rw [hx']
  exact ⟨hback, by rw [hafter, hfront.takes.output_put, hbefore, ha.json, line_ofNotice]⟩

/-- Records add to the target the log of the notices that the level lets pass. -/
theorem record (ha : own.Alone (front ++ back) x) (level : Nat) (ns : List Notice) :
    own.target.output (Log.record (front ++ own :: back) level ns x) =
      (own.target.output x).map (· ++ Utf8.encode (logText ((ns.filter (admits level)).map (timeMark, ·)))) := by
  rw [Log.record]
  generalize ns.filter (admits level) = ns
  induction ns generalizing x with
  | nil =>
    simp only [List.map_nil, logText, Utf8.encode_empty, List.append_nil, Option.map_id']
    rfl
  | cons n rest ih =>
    obtain ⟨halone, houtput⟩ := ha.record_one n
    rw [List.foldl_cons, ih halone, houtput, Option.map_map]
    simp only [Function.comp_def, List.map_cons, logText, Utf8.encode_append, List.append_assoc]

theorem gains_record (ha : own.Alone (front ++ back) x) (level : Nat) (ns : List Notice) :
    own.target.Gains x (Log.record (front ++ own :: back) level ns x)
      (logText ((ns.filter (admits level)).map (timeMark, ·))) := by
  obtain ⟨before, hbefore⟩ := ha.takes.output
  exact ⟨before, hbefore, by rw [ha.record, hbefore, Option.map_some]⟩

/-- A notice for one subscriber adds its line to the target, in whatever state the journal is. -/
theorem gains_deliver {j : Journal} {io : Stdio} (ha : own.Alone (front ++ back) (j, io)) (hio : io.TakesReports)
    (hj : j.handlers = front ++ own :: back) (hn : admits j.level n = true) :
    own.target.Gains (j, io) (j.deliver io n 1) (noticeLine timeMark n ++ "\n") := by
  have hne : j.handlers ≠ [] := by
    rw [hj]
    exact List.append_ne_nil_of_right_ne_nil front (List.cons_ne_nil own back)
  have hgains := ha.gains_record j.level [n]
  rw [List.filter_cons_of_pos hn, List.filter_nil, List.map_singleton, logText, logText, String.append_empty] at hgains
  rw [Journal.deliver_one hio hne, hj]
  exact hgains

end Handler.Alone

end Log

namespace Script.State

variable {st : State} {foreign : List Handler}

/-- The line of a notice is one line of shown ASCII characters, and what is read from it is an object of the fields of
the notice, its event, its level and the time, once each, and nothing else.  So two notices never have the same line
at the same time, and a log tells the entries that it was written for.

This is so of all texts of Unicode.  A notice may hold more than those: a high and a low surrogate one after the other,
which are written as the code point that they stand for.  So of notices with any code points the line tells what they
are when all such pairs are joined, and just that.

And such logs are written.  While one handler alone writes JSON to a target, a notice that the level lets pass adds its
line to what the target holds, whatever the journal is like.  And however the journal was turned on and off and its
log set up and torn down: if its own handler writes JSON to a file, or to a stream that takes text, and no other
handler writes there, then from any time at which the journal is on to one at which it has settled there is added the
log of all notices that wait or are given to the journal meanwhile and that the level lets pass, and nothing else. -/
theorem log_lines_lossless (hst : st.AtRest foreign) {steps : List (Step × Bool)}
    (hsteps : ∀ s ∈ steps, s.1.IsLifecycle st.environment) :
    (∀ time n, (∀ c ∈ (Log.noticeLine time n).toList, Log.IsShown c) ∧
        ((Log.noticeTexts time n).map Prod.fst).Nodup ∧
        (n.IsText → Json.read (Log.noticeLine time n).toList =
          some (.object ((Log.noticeTexts time n).map fun m => (codesOf m.1, .text m.2))))) ∧
      (∀ time (n n' : Notice), n.IsText → n'.IsText → Log.noticeLine time n = Log.noticeLine time n' → n = n') ∧
      (∀ entries, (∀ e ∈ entries, e.2.IsText) → Log.readLog (Log.logText entries) = some entries) ∧
      (∀ time n, n.IsUnicode → Json.read (Log.noticeLine time n).toList =
          some (.object ((Log.noticeTexts time n.joined).map fun m => (codesOf m.1, .text m.2)))) ∧
      (∀ time (n n' : Notice), n.IsUnicode → n'.IsUnicode →
        (Log.noticeLine time n = Log.noticeLine time n' ↔ n.joined = n'.joined)) ∧
      (∀ n : Notice, n.joined = n ↔ n.IsUnpaired) ∧
      (∀ (j : Journal) (io : Stdio) (own : Handler) (front back : List Handler) (n : Notice), io.TakesReports →
        j.handlers = front ++ own :: back → own.Alone (front ++ back) (j, io) → Log.admits j.level n = true →
          own.target.Gains (j, io) (j.deliver io n 1) (Log.noticeLine Log.timeMark n ++ "\n")) ∧
      let now := (st.after steps).session
      ∀ own, now.journal.configured = true → now.journal.own = some own →
        own.format = .json → (∀ h ∈ foreign, own.target ≠ h.target) →
        ((∃ name, own.target = .file name) ∨ ∀ h ∈ own :: foreign, h.target.Takes (now.journal, now.stdio)) →
          ∀ (quiet : List (Step × Bool)) (last : Step), (∀ s ∈ quiet, s.1.IsQuiet) → last.IsQuiet →
            let stretch := quiet ++ [(last, false)]
            let later := ((st.after steps).after stretch).session
            let passing := (now.waitingNotices ++ emitted stretch).filter (Log.admits now.journal.level)
            own.target.Gains (now.journal, now.stdio) (later.journal, later.stdio)
              (Log.logText (passing.map (Log.timeMark, ·))) := by
  have hline : ∀ time (n n' : Notice), n.IsUnicode → n'.IsUnicode →
      (Log.noticeLine time n = Log.noticeLine time n' ↔ n.joined = n'.joined) := fun time n n' h h' =>
    (Log.noticeLine_eq_iff h h').trans (and_iff_right rfl)
  refine ⟨fun time n => ⟨Log.isShown_noticeLine time n, Log.nodup_noticeTexts time n, fun h => ?_⟩,
    fun time n n' h h' heq => ?_, fun _ => Log.readLog_of_isText, fun time n h => Log.read_noticeLine h time, hline,
    fun n => Notice.joined_eq_self_iff, fun j io own front back n hio hj ha hn => ha.gains_deliver hio hj hn, ?_⟩
  · rw [Log.read_noticeLine h.1, h.joined]
  · rw [← h.joined, ← h'.joined, ← hline time n n' h.1 h'.1, heq]
  intro now own hon hown hjson hapart hquiets quiet last hquiet hlast stretch later passing
  have ha : own.Alone foreign (now.journal, now.stdio) :=
    { json := hjson
      takes := hquiets.elim (fun ⟨_, hname⟩ => hst.takes_file hsteps hown hname) fun hall => hall own List.mem_cons_self
      apart := hapart
      quiet := hquiets.imp_right fun hall h hm => hall h (List.mem_cons_of_mem own hm) }
  have hrecords := (hst.orderly.after hsteps).recordsOnce hon own hown quiet last hquiet hlast
  -- its own handler is the last of all
  rw [← List.append_nil foreign] at ha
  have hgains := ha.gains_record now.journal.level (now.waitingNotices ++ emitted stretch)
  rw [← hrecords] at hgains
  exact hgains

/-- The failure of a write, in words that need every kind of escape and end in a byte that cannot be decoded. -/
def quoted : Notice :=
  .failed (codesOf "pipe") (codesOf "write") (codesOf "\"C:\\\n𝄞\u0001" ++ [0xDC80]) (codesOf "OSError")

/-- The line of this failure. -/
def quotedLine : String :=
  "\x7b\"kind\": \"pipe\", \"op\": \"write\", \"error\": \"\\\"C:\\\\\\n\\ud834\\udd1e\\u0001\\udc80\", " ++
    "\"error_type\": \"OSError\", \"event\": \"writer.failed\", \"level\": \"error\", \"timestamp\": \"TS\"\x7d\n"

/-- The failure and the end of a pipe make a log file of two lines, which tells both. -/
theorem quoted_in_log_file :
    let on := (State.start [] .plain .plain).after [(intoFile, false)]
    let stretch := [(Step.emit quoted, true), (Step.emit (.ofEnd .pipe), false)]
    let later := (on.after stretch).session
    let entries := [(Log.timeMark, quoted), (Log.timeMark, .ofEnd .pipe)]
    on.session.journal.configured = true ∧
      Log.logText entries = quotedLine ++ pipeLine ∧
      Log.Target.output (later.journal, later.stdio) (.file Log.atG) = some (Utf8.encode (quotedLine ++ pipeLine)) ∧
      Log.readLog (quotedLine ++ pipeLine) = some entries := by
  intro on stretch later entries
  have hrest : (State.start [] .plain .plain).AtRest [] := atRest_start [] .plain fun htext => by cases htext
  have hlife : ∀ s ∈ [(intoFile, false)], s.1.IsLifecycle (State.start [] .plain .plain).environment := by
    intro s hs
    rw [List.mem_singleton.1 hs]
    exact ⟨20, rfl⟩
  have hon : on.session = { (State.start [] .plain .plain).session with
      journal := (State.start [] .plain .plain).session.journal.loggingTo } :=
    session_intoFile _ rfl rfl rfl rfl
  have hconf : on.session.journal.configured = true := by rw [hon]; rfl
  have hown : on.session.journal.own = some ⟨0, .file Log.atG, .json⟩ := by rw [hon]; rfl
  have hlog : Log.logText entries = quotedLine ++ pipeLine := by decide +kernel
  have htext : ∀ e ∈ entries, e.2.IsText := by decide
  obtain ⟨-, -, hread, -, -, -, -, hlogs⟩ := log_lines_lossless hrest hlife
  obtain ⟨before, hbefore, hafter⟩ := hlogs _ hconf hown rfl (fun h hm => absurd hm List.not_mem_nil)
    (.inl ⟨Log.atG, rfl⟩) [(.emit quoted, true)] (.emit (.ofEnd .pipe))
    (fun s hs => by rw [List.mem_singleton.1 hs]; trivial) trivial
  -- the file is empty when the journal has been turned on
  have hempty : before = [] := by
    change Log.Target.output (on.session.journal, on.session.stdio) (.file Log.atG) = _ at hbefore
    rw [hon] at hbefore
    exact (Option.some.inj hbefore).symm.trans Utf8.encode_empty
  refine ⟨hconf, hlog, ?_, by rw [← hlog]; exact hread entries htext⟩
  change Log.Target.output (later.journal, later.stdio) (.file Log.atG) =
    some (_ ++ Utf8.encode (Log.logText (List.map _ (List.filter _ (on.session.waitingNotices ++ _))))) at hafter
  rw [hafter, hempty, hon, ← hlog]
  rfl

end Script.State

end Outflow
