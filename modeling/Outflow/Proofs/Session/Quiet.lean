import Outflow.Proofs.Settling
import Outflow.Proofs.Session.Bare

/-!
# Sessions without a journal

A journal that writes to files only is a bystander: notices wait in the ready queue among the tasks, and what
becomes of the tasks is the same without them.

* `Log.Journal.ToFiles`: a journal whose handlers all write to files, such as one that is turned on with a log
  file; it does not touch the standard streams;
* `Session.quiet`, `Session.Mutes`: a session, and the same one without its journal;
* `Mutes.runTask`, `Mutes.turn`: the turn of a task is the same for both, and that of a notice is no turn of
  the other;
* `Mutes.settle`: when both have settled, they are still the same.
-/

namespace Outflow

/-! ### Journals that write to files -/

namespace Log

variable {j : Journal} {io : Stdio}

/-- There are handlers, and all write to files. -/
structure Journal.ToFiles (j : Journal) : Prop where
  attached : j.handlers ≠ []
  files : ∀ h ∈ j.handlers, ∃ name, h.target = .file name

theorem writeAll_of_files {hs : List Handler} (hfiles : ∀ h ∈ hs, ∃ name, h.target = .file name) (r : Record)
    (j : Journal) (io : Stdio) :
    (writeAll r hs j io).2 = (io, .ok ()) ∧ (writeAll r hs j io).1.handlers = j.handlers := by
  induction hs generalizing j with
  | nil => exact ⟨rfl, rfl⟩
  | cons h rest ih =>
    obtain ⟨name, hname⟩ := hfiles h List.mem_cons_self
    have hwrite : h.write j io r
        = ({ j with files := j.files.append name (h.format.line r.fields ++ "\n") }, io, .ok ()) := by
      simp only [Handler.write, hname]
    rw [writeAll, hwrite]
    exact ih (fun h' hh' => hfiles h' (List.mem_cons_of_mem h hh')) _

/-- A record leaves the standard streams and the handlers as they are. -/
theorem Journal.ToFiles.write (h : j.ToFiles) (io : Stdio) (r : Record) :
    (j.write io r).2 = (io, .ok ()) ∧ (j.write io r).1.handlers = j.handlers := by
  unfold Journal.write
  split
  · exact ⟨rfl, rfl⟩
  · split
    · exact absurd ‹_› h.attached
    · exact writeAll_of_files h.files r j io

theorem Journal.ToFiles.writeEvent (h : j.ToFiles) (io : Stdio) (severity : Severity) (event : String)
    (given : Fields) :
    (j.writeEvent io severity event given).2 = (io, .ok ()) ∧ (j.writeEvent io severity event given).1.ToFiles := by
  unfold Journal.writeEvent
  split
  · obtain ⟨hio, hhandlers⟩ := h.write io (.ofEvent severity event given)
    exact ⟨hio, hhandlers ▸ h.attached, hhandlers ▸ h.files⟩
  · exact ⟨rfl, h⟩

/-- So do the records of a notice. -/
theorem Journal.ToFiles.deliver (h : j.ToFiles) (io : Stdio) (n : Notice) (copies : Nat) :
    (j.deliver io n copies).2 = io ∧ (j.deliver io n copies).1.ToFiles := by
  induction copies generalizing j with
  | zero => exact ⟨rfl, h⟩
  | succ copies ih =>
    obtain ⟨hio, hhandlers⟩ := h.write io (.ofNotice n)
    have hnext : (j.write io (.ofNotice n)).1.ToFiles := ⟨hhandlers ▸ h.attached, hhandlers ▸ h.files⟩
    rw [Journal.deliver]
    simp only [hio]
    exact ih hnext

/-- Turned on with a log file, a journal has one handler, and the first record goes to its file. -/
theorem Journal.toFiles_configure {s : Settings} (hfile : s.destination = Text.codesOf "jsonl") {already : Bool}
    (hok : (Journal.start.configure io s).2.2 = .ok already) :
    (Journal.start.configure io s).1.ToFiles ∧ (Journal.start.configure io s).2.1 = io := by
  have hset : ∀ j', Journal.start.setup io s = (j', .ok ()) → j'.ToFiles := by
    intro j' hj'
    simp only [Journal.setup, Journal.target, hfile] at hj'
    rw [if_neg (by decide), if_neg (by decide)] at hj'
    split at hj'
    · cases hj'
    · rename_i ht
      split at ht
      · cases ht
      · rename_i files' name _
        cases ht
        split at hj'
        · cases hj'
        · cases hj'
          refine ⟨List.cons_ne_nil _ _, fun h hh => ⟨name, ?_⟩⟩
          rw [List.mem_singleton.mp hh]
  unfold Journal.configure at hok ⊢
  rw [if_neg (by decide)] at hok ⊢
  split at hok
  · cases hok
  · rename_i j' hj'
    have hon : ({ j' with emitting := true, subscribers := j'.subscribers + 1 } : Journal).ToFiles :=
      ⟨(hset j' hj').attached, (hset j' hj').files⟩
    obtain ⟨hio, hfirst⟩ := hon.writeEvent io .debug "observability.configured" [("destination", .text s.destination)]
    dsimp only
    split
    · rename_i hw
      rw [hw] at hio
      cases hio
    · rename_i hw
      rw [hw] at hio hfirst
      exact ⟨⟨hfirst.attached, hfirst.files⟩, congrArg Prod.fst hio⟩

end Log

namespace Session

variable {s q : Session} {t p g : Nat}

/-- A session without its journal: nothing is attached, and no notice waits. -/
def quiet (s : Session) : Session := { s with ready := s.ready.filter Job.isTask, journal := .start }

/-- A session whose journal writes to files, and the same one without the journal. -/
structure Mutes (s q : Session) : Prop where
  quiet : q = s.quiet
  journal : s.journal.ToFiles

/-- Where nothing is ready any more there is no other end. -/
theorem iterate_eq_of_ready_nil {n m : Nat} (hn : (turn^[n] s).ready = []) (hm : (turn^[m] s).ready = []) :
    turn^[n] s = turn^[m] s := by
  rcases le_total n m with h | h
  · rw [← run_eq_of_ready_nil hn h, run_eq_iterate]
  · rw [← run_eq_of_ready_nil hm h, run_eq_iterate]

namespace Mutes

theorem of_tasks (h : Mutes s q) (f : List Task → List Task) :
    Mutes { s with tasks := f s.tasks } { q with tasks := f q.tasks } := by
  obtain ⟨rfl, hj⟩ := h
  exact ⟨rfl, hj⟩

theorem setStage (h : Mutes s q) (t : Nat) (st : Stage) : Mutes (s.setStage t st) (q.setStage t st) :=
  h.of_tasks _

theorem finish (h : Mutes s q) (t : Nat) (outcome : Outcome) : Mutes (s.finish t outcome) (q.finish t outcome) := by
  obtain ⟨rfl, hj⟩ := h
  exact ⟨rfl, hj⟩

theorem enqueue (h : Mutes s q) (ts : List Nat) : Mutes (s.enqueue ts) (q.enqueue ts) := by
  obtain ⟨rfl, hj⟩ := h
  have htasks : (ts.map Job.task).filter Job.isTask = ts.map Job.task :=
    List.filter_eq_self.2 fun j hj => by
      obtain ⟨t, -, rfl⟩ := List.mem_map.1 hj
      rfl
  refine ⟨?_, hj⟩
  simp only [Session.quiet, Session.enqueue, List.filter_append, htasks]

/-- A notice is put in the queue of one and not of the other. -/
theorem post (h : Mutes s q) (n : Notice) : Mutes (s.post n) (q.post n) := by
  obtain ⟨rfl, hj⟩ := h
  have hnone : s.quiet.post n = s.quiet := rfl
  rw [hnone]
  unfold Session.post
  split
  · refine ⟨?_, hj⟩
    simp [Session.quiet, List.filter_append, Job.isTask]
  · exact ⟨rfl, hj⟩

theorem emit (h : Mutes s q) (n : Notice) : Mutes (s.emit n) (q.emit n) := by
  obtain ⟨rfl, hj⟩ := h
  exact post (s := { s with notices := s.notices ++ [n] }) ⟨rfl, hj⟩ n

theorem noticeOf? (h : Mutes s q) (task : Task) (outcome : Outcome) :
    q.noticeOf? task outcome = s.noticeOf? task outcome := by
  obtain ⟨rfl, -⟩ := h
  rfl

theorem announce (h : Mutes s q) (task : Task) (outcome : Outcome) :
    Mutes (s.announce task outcome) (q.announce task outcome) := by
  rw [Session.announce, Session.announce, h.noticeOf?]
  cases s.noticeOf? task outcome with
  | none => exact h
  | some n => exact h.emit n

theorem goOn (h : Mutes s q) (t : Nat) (c : Call) : Mutes (s.goOn t c) (q.goOn t c) := by
  obtain ⟨rfl, hj⟩ := h
  exact ⟨rfl, hj⟩

theorem complete (h : Mutes s q) (t : Nat) (outcome : Outcome) :
    Mutes (s.complete t outcome) (q.complete t outcome) := by
  have htask : q.tasks[t]? = s.tasks[t]? := by rw [h.quiet]; rfl
  cases hk : s.tasks[t]? with
  | none =>
    simp only [Session.complete, htask, hk]
    exact h
  | some task =>
    have hd : q.destinationOf task.call.outlet? = s.destinationOf task.call.outlet? := by rw [h.quiet]; rfl
    rw [complete_eq hk, complete_eq (htask.trans hk), hd]
    cases task.call.resume (s.destinationOf task.call.outlet?) outcome with
    | done outcome' => exact (h.announce task outcome).finish t outcome'
    | more c => exact (h.announce task outcome).goOn t c

theorem wakeGate (h : Mutes s q) (g : Nat) : Mutes (s.wakeGate g) (q.wakeGate g) := by
  have hgate : q.gates[g]? = s.gates[g]? := by rw [h.quiet]; rfl
  unfold Session.wakeGate
  rw [hgate]
  cases s.gates[g]? with
  | none => exact h
  | some gate =>
    refine enqueue ?_ _
    obtain ⟨rfl, hj⟩ := h
    exact ⟨rfl, hj⟩

theorem release (h : Mutes s q) (gate : Option Nat) : Mutes (s.release gate) (q.release gate) := by
  cases gate with
  | none => exact h
  | some g =>
    refine wakeGate ?_ g
    obtain ⟨rfl, hj⟩ := h
    exact ⟨rfl, hj⟩

theorem refresh (h : Mutes s q) (p : Nat) (served : Pipe.Served) :
    Mutes (s.refresh p served) (q.refresh p served) := by
  have hw : q.waiters (.pipe p) = s.waiters (.pipe p) := by rw [h.quiet]; rfl
  unfold Session.refresh
  rw [hw]
  refine enqueue ?_ _
  obtain ⟨rfl, hj⟩ := h
  exact ⟨rfl, hj⟩

theorem park (h : Mutes s q) (t : Nat) (gate : Option Nat) (p : Nat) (r : Pipe.Request) :
    Mutes (s.park t gate p r) (q.park t gate p r) := by
  refine setStage ?_ t _
  obtain ⟨rfl, hj⟩ := h
  exact ⟨rfl, hj⟩

theorem serve (h : Mutes s q) (t : Nat) (gate : Option Nat) (p : Nat) (r : Pipe.Request) :
    Mutes (s.serve t gate p r) (q.serve t gate p r) := by
  have hpipe : q.pipe? p = s.pipe? p := by rw [h.quiet]; rfl
  cases hb : s.pipe? p with
  | none =>
    have hc : s.channels[p]? = none := by simpa [pipe?] using hb
    have hc' : q.channels[p]? = none := by simpa [pipe?] using hpipe.trans hb
    simp only [Session.serve, hc, hc']
    exact h
  | some b =>
    rw [serve_eq hb, serve_eq (hpipe.trans hb)]
    cases (b.serve r).reply with
    | wait again => exact (h.refresh p (b.serve r)).park t gate p again
    | done outcome => exact ((h.refresh p (b.serve r)).release gate).complete t outcome

theorem enter (h : Mutes s q) (t g : Nat) (r : Pipe.Request) : Mutes (s.enter t g r) (q.enter t g r) := by
  have hgate : q.gates[g]? = s.gates[g]? := by rw [h.quiet]; rfl
  cases hg : s.gates[g]? with
  | none =>
    simp only [Session.enter, hgate, hg]
    exact h
  | some gate =>
    rw [enter_eq hg, enter_eq (hgate.trans hg)]
    refine serve ?_ t _ _ r
    obtain ⟨rfl, hj⟩ := h
    exact ⟨rfl, hj⟩

theorem approach (h : Mutes s q) (t : Nat) (b : Backing) (r : Sink.Request) :
    Mutes (s.approach t b r) (q.approach t b r) := by
  cases b with
  | stream n =>
    have hio : q.stdio = s.stdio := by rw [h.quiet]; rfl
    simp only [Session.approach, hio]
    refine complete ?_ t _
    obtain ⟨rfl, hj⟩ := h
    exact ⟨rfl, hj⟩
  | pipe p => exact h.serve t none p _
  | gate g =>
    have hgate : q.gates[g]? = s.gates[g]? := by rw [h.quiet]; rfl
    simp only [Session.approach, hgate]
    cases s.gates[g]? with
    | none => exact h
    | some gate =>
      by_cases hopen : gate.isOpen = true
      · simp only [hopen, if_true]
        exact h.enter t g _
      · simp only [hopen]
        refine setStage ?_ t _
        obtain ⟨rfl, hj⟩ := h
        exact ⟨rfl, hj⟩

theorem begin (h : Mutes s q) (t : Nat) (op : Operation) : Mutes (s.begin t op) (q.begin t op) := by
  cases op with
  | answered outcome => exact h.complete t outcome
  | onPipe p r => exact h.serve t none p r
  | onBacking b r => exact h.approach t b r
  | onOutlet o r =>
    have houtlet : q.outlets[o]? = s.outlets[o]? := by rw [h.quiet]; rfl
    simp only [Session.begin, houtlet]
    cases s.outlets[o]? with
    | none => exact h
    | some x =>
      have hentry := h.of_tasks fun ts => ts.modify t fun task => { task with entry := x.destination }
      obtain ⟨d, backing⟩ := x
      cases d <;> cases backing <;> first | exact hentry.complete t _ | exact hentry.approach t _ r

theorem leave (h : Mutes s q) (t : Nat) (a : Place) : Mutes (s.leave t a) (q.leave t a) := by
  obtain ⟨rfl, hj⟩ := h
  cases a <;> exact ⟨rfl, hj⟩

theorem abandon (h : Mutes s q) (t : Nat) (st : Stage) : Mutes (s.abandon t st) (q.abandon t st) := by
  cases st with
  | atGate g r =>
    have hleft := h.leave t (.gate g)
    have hheld : (q.leave t (.gate g)).gateHeld g = (s.leave t (.gate g)).gateHeld g := by
      rw [hleft.quiet]
      rfl
    have hwoken : Mutes
        (if (s.leave t (.gate g)).gateHeld g then s.leave t (.gate g) else (s.leave t (.gate g)).wakeGate g)
        (if (q.leave t (.gate g)).gateHeld g then q.leave t (.gate g) else (q.leave t (.gate g)).wakeGate g) := by
      rw [hheld]
      split
      · exact hleft
      · exact hleft.wakeGate g
    exact hwoken.finish t _
  | inPipe gate p r => exact ((h.leave t (.pipe p)).release gate).finish t _
  | fresh => exact h.finish t _
  | ended o => exact h.finish t _

theorem runTask (h : Mutes s q) (t : Nat) : Mutes (s.runTask t) (q.runTask t) := by
  have htask : q.tasks[t]? = s.tasks[t]? := by rw [h.quiet]; rfl
  unfold Session.runTask
  rw [htask]
  cases s.tasks[t]? with
  | none => exact h
  | some task =>
    obtain ⟨c, st, d, cancelling⟩ := task
    cases cancelling with
    | true =>
      cases st with
      | ended o => exact h
      | fresh => exact h.abandon t _
      | atGate g r => exact h.abandon t _
      | inPipe gate p r => exact h.abandon t _
    | false =>
      cases st with
      | ended o => exact h
      | fresh => exact h.begin t _
      | atGate g r => exact h.enter t g r
      | inPipe gate p r => exact (h.leave t (.pipe p)).serve t gate p r

/-- The turn of a task is the same with the journal and without. -/
theorem turn_task (h : Mutes s q) {rest : List Job} (hr : s.ready = .task t :: rest) : Mutes s.turn q.turn := by
  have hq : q.ready = .task t :: rest.filter Job.isTask := by
    rw [h.quiet, Session.quiet, hr]
    rfl
  have hrest : Mutes { s with ready := rest } { q with ready := rest.filter Job.isTask } := by
    obtain ⟨rfl, hj⟩ := h
    exact ⟨rfl, hj⟩
  simp only [Session.turn, hr, hq]
  exact hrest.runTask t

/-- The turn of a notice makes no difference without the journal. -/
theorem turn_deliver (h : Mutes s q) {n : Notice} {copies : Nat} {rest : List Job}
    (hr : s.ready = .deliver n copies :: rest) : Mutes s.turn q := by
  obtain ⟨hio, hfiles⟩ := h.journal.deliver s.stdio n copies
  simp only [Session.turn, hr, Session.deliver]
  refine ⟨?_, hfiles⟩
  rw [h.quiet]
  simp only [Session.quiet, hr, hio, List.filter_cons, Job.isTask]
  rfl

theorem iterate (h : Mutes s q) (n : Nat) : ∃ m, Mutes (turn^[n] s) (turn^[m] q) := by
  induction n generalizing s q with
  | zero => exact ⟨0, h⟩
  | succ n ih =>
    rw [Function.iterate_succ_apply]
    cases hr : s.ready with
    | nil =>
      have hturn : s.turn = s := by rw [Session.turn, hr]
      rw [hturn]
      exact ih h
    | cons job rest =>
      cases job with
      | task t =>
        obtain ⟨m, hm⟩ := ih (h.turn_task hr)
        exact ⟨m + 1, by rwa [Function.iterate_succ_apply]⟩
      | deliver n' copies => exact ih (h.turn_deliver hr)

/-- When both have settled, they are still the same. -/
theorem settle (h : Mutes s q) (hs : s.settle.ready = []) (hq : q.settle.ready = []) :
    Mutes s.settle q.settle := by
  obtain ⟨m, hm⟩ := h.iterate s.budget
  rw [← run_eq_iterate] at hm
  have hempty : (turn^[m] q).ready = [] := by
    rw [hm.quiet, Session.quiet, ← Session.settle, hs]
    rfl
  have hsame : turn^[m] q = q.settle := by
    rw [Session.settle, run_eq_iterate] at hq ⊢
    exact iterate_eq_of_ready_nil hempty hq
  rw [← hsame]
  exact hm

/-! ### What is done from outside -/

theorem spawn (h : Mutes s q) (c : Call) : Mutes (s.spawn c).1 (q.spawn c).1 := by
  obtain ⟨rfl, hj⟩ := h
  refine ⟨?_, hj⟩
  simp only [Session.quiet, List.filter_append, Session.spawn]
  rfl

theorem cancel (h : Mutes s q) (t : Nat) :
    (q.cancel t).2 = (s.cancel t).2 ∧ Mutes (s.cancel t).1 (q.cancel t).1 := by
  have htask : q.tasks[t]? = s.tasks[t]? := by rw [h.quiet]; rfl
  have hask : Mutes (s.ask t) (q.ask t) := h.of_tasks _
  cases hk : s.tasks[t]? with
  | none =>
    simp only [Session.cancel, htask, hk]
    exact ⟨trivial, h⟩
  | some task =>
    rw [cancel_eq hk, cancel_eq (htask.trans hk)]
    cases task.stage.place? with
    | none =>
      dsimp only
      split
      · exact ⟨rfl, hask⟩
      · exact ⟨rfl, h⟩
    | some a =>
      have hw : q.waiters a = s.waiters a := by
        rw [h.quiet]
        cases a <;> rfl
      dsimp only
      rw [hw]
      split
      · refine ⟨rfl, ?_⟩
        have halter : Mutes ((s.ask t).alter (Waiter.cancel t) a) ((q.ask t).alter (Waiter.cancel t) a) := by
          obtain ⟨he, hj⟩ := hask
          rw [he]
          cases a <;> exact ⟨rfl, hj⟩
        exact halter.enqueue [t]
      · exact ⟨rfl, hask⟩

end Mutes

end Session

end Outflow
