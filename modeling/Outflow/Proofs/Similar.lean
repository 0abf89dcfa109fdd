import Outflow.Proofs.Loopless
import Outflow.Proofs.Session.Twins

/-!
# The same step in two scripts

Two scripts of which lenses show the same do the same with a step, as far as the lenses show it.

* `State.Similar`: scripts of which lenses show the same, with the same names for their members;
* `State.Agree`: what is done at once in two such scripts;
* `Similar.makePipe`, `Similar.makeClone` and so on: new members; `Similar.look`: views;
* `State.viaJournal`: what a step does that touches the journal and the standard streams only;
* `Similar.perform`: every step that makes no task and asks none to end.
-/

namespace Outflow.Script

open Session (Lens Twins)

variable {st st' : State} {s s' : Session}

namespace State

variable {L L' : Lens}

/-- What is done by a step that touches the journal and the standard streams only. -/
def viaJournal (st : State) (f : Log.Journal → Stdio → Log.Journal × Stdio × Except Failure Result) : Performed :=
  let (journal, stdio, result) := f st.session.journal st.session.stdio
  (st.setJournal journal stdio, result)

theorem print_eq (n : StreamName) (text : String) (st : State) : st.print n text = st.viaJournal fun j io =>
    (j, (io.update n (io.current n) (.ok ()) fun s => s.writeText text).1,
      match (io.update n (io.current n) (.ok ()) fun s => s.writeText text).2 with
      | .ok () => .ok .nothing
      | .error f => .error (.fault f)) := by
  simp only [State.print, viaJournal]
  cases (st.session.stdio.update n (st.session.stdio.current n) (.ok ()) fun s => s.writeText text).2 <;> rfl

theorem streams_eq (st : State) : st.streams = st.viaJournal fun j io =>
    (j, ⟨io.out.map fun s => { s with calls := [] }, io.err.map fun s => { s with calls := [] }⟩,
      .ok (.streams io.out io.err)) := rfl

theorem configure_eq (given : Log.Overrides) (st : State) : st.configure given = st.viaJournal fun j io =>
    match j.configure io (.resolve st.environment given) with
    | (j, io, .ok already) => (j, io, .ok (.configured already j.configured))
    | (j, io, .error e) => (j, io, .error (.setup e)) := by
  simp only [State.configure, viaJournal]
  rcases st.session.journal.configure st.session.stdio (.resolve st.environment given) with ⟨j, io, _ | _⟩ <;> rfl

theorem setUpLog_eq (given : Log.Overrides) (st : State) : st.setUpLog given = st.viaJournal fun j io =>
    match j.setup io (.resolve st.environment given) with
    | (j, .ok ()) => (j, io, .ok .nothing)
    | (j, .error e) => (j, io, .error (.setup e)) := by
  simp only [State.setUpLog, viaJournal]
  rcases st.session.journal.setup st.session.stdio (.resolve st.environment given) with ⟨j, _ | _⟩ <;> rfl

theorem logged_eq (write : Log.Journal → Stdio → Log.Journal × Stdio × Except Fault Unit) (st : State) :
    st.logged (write st.session.journal st.session.stdio) = st.viaJournal fun j io =>
      match write j io with
      | (j, io, .ok ()) => (j, io, .ok .nothing)
      | (j, io, .error f) => (j, io, .error (.fault f)) := by
  simp only [State.logged, viaJournal]
  rcases write st.session.journal st.session.stdio with ⟨j, io, _ | _⟩ <;> rfl

/-- Two scripts of which lenses show the same, with the same names for their members. -/
structure Similar (L L' : Lens) (st st' : State) : Prop where
  twins : Twins L L' st.session st'.session
  members : st'.members = st.members
  pipes : st'.pipes = st.pipes
  environment : st'.environment = st.environment

/-- What is done at once in two such scripts; the result is the same if everything is looked at. -/
structure Agree (L L' : Lens) (q q' : Performed) : Prop where
  result : L.scope.isAll = true → q'.2 = q.2
  similar : Similar L L' q.1 q'.1

namespace Similar

theorem of_session (h : Similar L L' st st') (ht : Twins L L' s s') :
    Similar L L' { st with session := s } { st' with session := s' } :=
  ⟨ht, h.members, h.pipes, h.environment⟩

theorem addMember (h : Similar L L' st st') (name : String) (m : Member) :
    Similar L L' (st.addMember name m) (st'.addMember name m) :=
  ⟨h.twins, congrArg (· ++ [(name, m)]) h.members, h.pipes, h.environment⟩

/-- A new outlet with its name. -/
theorem addOutlet (h : Similar L L' st st') (name : String) {o : Outlet}
    (ho : ∀ b, o.backing = some b → st.session.Has b ∧ o.destination ≠ .null) :
    (L.scope.isAll = true → (st'.addOutlet name o).2 = (st.addOutlet name o).2)
      ∧ Similar L L' (st.addOutlet name o).1 (st'.addOutlet name o).1 := by
  have hplace : st'.session.outlets.length = st.session.outlets.length := congrArg List.length h.twins.outlets
  refine ⟨fun hall => h.twins.describeOutlet hall o, ?_⟩
  have hsession := (h.of_session (h.twins.addOutlet ho)).addMember name (.outlet st.session.outlets.length)
  simp only [State.addOutlet, Session.addOutlet, hplace]
  exact hsession

/-- A new outlet, which stands before what is there, as is known afterwards. -/
theorem makeOutlet (h : Similar L L' st st') {name : String} {o : Outlet} (hp : (st.makeOutlet name o).1.Proper) :
    Agree L L' (st.makeOutlet name o) (st'.makeOutlet name o) := by
  have ho : ∀ b, o.backing = some b → st.session.Has b ∧ o.destination ≠ .null := by
    intro b hb
    have hhas := hp.reachable.sound.housed.backing o (by simp [State.makeOutlet, State.addOutlet, State.addMember,
      Session.addOutlet]) b hb
    cases b <;> exact hhas
  obtain ⟨hwords, hsimilar⟩ := h.addOutlet name ho
  exact ⟨fun hall => congrArg (fun w => Except.ok (Result.words w)) (hwords hall), hsimilar⟩

/-- A new gate before a pipe that is there. -/
theorem addGate (h : Similar L L' st st') {p : Nat} (hp : st.session.Has (.pipe p)) :
    Similar L L' { st with session := (st.session.addGate p).1 } { st' with session := (st'.session.addGate p).1 } :=
  h.of_session (h.twins.addGate hp (h.twins.has hp))

theorem addPipeOutlet (h : Similar L L' st st') (hst : st.Proper) (name : String) {p : Nat} (hp : st.session.Has (.pipe p)) :
    (L.scope.isAll = true → (st'.addPipeOutlet name p).2 = (st.addPipeOutlet name p).2)
      ∧ Similar L L' (st.addPipeOutlet name p).1 (st'.addPipeOutlet name p).1 := by
  have hplace : st'.session.gates.length = st.session.gates.length := h.twins.lengths.2
  have hadd := (h.addGate hp).addOutlet name (o := .ofGate st.session.gates.length) fun b hb => by
    cases hb
    exact ⟨(hst.addGate hp).2, by simp [Outlet.ofGate]⟩
  simp only [State.addPipeOutlet, Session.addGate, hplace] at hadd ⊢
  exact hadd

/-- A new pipe, and its place. -/
theorem addPipe (h : Similar L L' st st') (name : String) {capacity : Int} {b : Pipe}
    (hb : Pipe.create? capacity = some b) : (st'.addPipe name b).2 = (st.addPipe name b).2
      ∧ Similar L L' (st.addPipe name b).1 (st'.addPipe name b).1 := by
  have hplace : st'.session.channels.length = st.session.channels.length := h.twins.lengths.1
  refine ⟨hplace, ?_⟩
  have hadd : Similar L L' { st with session := (st.session.addPipe b).1, pipes := st.pipes ++ [name] }
      { st' with session := (st'.session.addPipe b).1, pipes := st'.pipes ++ [name] } :=
    ⟨h.twins.addPipe hb, h.members, congrArg (· ++ [name]) h.pipes, h.environment⟩
  have hmember := hadd.addMember (readEndName name) (.readEnd st.session.channels.length)
  simp only [State.addPipe, Session.addPipe, hplace] at hmember ⊢
  exact hmember

theorem makePipe (h : Similar L L' st st') (name : String) (capacity : Int) :
    Agree L L' (st.makePipe name capacity) (st'.makePipe name capacity) := by
  unfold State.makePipe
  cases hb : Pipe.create? capacity with
  | none => exact ⟨fun _ => rfl, h⟩
  | some b =>
    obtain ⟨hplace, hadd⟩ := h.addPipe name hb
    dsimp only
    rw [hplace]
    have hmember := hadd.addMember (writeEndName name) (.writeEnd (st.addPipe name b).2)
    exact ⟨fun hall => congrArg (fun w => Except.ok (Result.words w)) (hmember.twins.describeEnds hall _).1, hmember⟩

theorem member (h : Similar L L' st st') (name : String) : st'.member name = st.member name := by
  rw [State.member, State.member, h.members]

theorem pipeNamed (h : Similar L L' st st') (name : String) : st'.pipeNamed name = st.pipeNamed name := by
  rw [State.pipeNamed, State.pipeNamed, h.member]

theorem outlet (h : Similar L L' st st') (name part : String) : st'.outlet name part = st.outlet name part := by
  rw [State.outlet, State.outlet, h.member, h.twins.outlets]

theorem backingNamed (h : Similar L L' st st') (backing : Option String) :
    st'.backingNamed backing = st.backingNamed backing := by
  cases backing with
  | none => rfl
  | some name => rw [State.backingNamed, State.backingNamed, h.member]

theorem makePipeOutlet (h : Similar L L' st st') (hst : st.Proper) (name pipe : String) :
    Agree L L' (st.makePipeOutlet name pipe) (st'.makePipeOutlet name pipe) := by
  rw [State.makePipeOutlet, State.makePipeOutlet, h.pipeNamed]
  cases hp : st.pipeNamed pipe with
  | error e => exact ⟨fun _ => rfl, h⟩
  | ok p =>
    obtain ⟨hwords, hsimilar⟩ := h.addPipeOutlet hst name (hst.pipeNamed hp)
    exact ⟨fun hall => congrArg (fun w => Except.ok (Result.words w)) (hwords hall), hsimilar⟩

theorem makeOutletBefore (h : Similar L L' st st') (hst : st.Proper) (name : String) (d : Destination)
    (backing : Option String) : Agree L L' (st.makeOutletBefore name d backing) (st'.makeOutletBefore name d backing) := by
  have hmade := hst.makeOutletBefore name d backing
  rw [State.makeOutletBefore] at hmade ⊢
  rw [State.makeOutletBefore, h.backingNamed]
  cases hb : st.backingNamed backing with
  | error e => exact ⟨fun _ => rfl, h⟩
  | ok b =>
    rw [hb] at hmade
    dsimp only at hmade ⊢
    cases ho : Outlet.create? d b with
    | none =>
      exact ⟨fun hall => congrArg (fun w => Except.error (Failure.backing d.name w)) (h.twins.describeBacking? hall b), h⟩
    | some o =>
      rw [ho] at hmade
      exact h.makeOutlet hmade

theorem makeNamedOutlet (h : Similar L L' st st') (hst : st.Proper) (name given : String) :
    Agree L L' (st.makeNamedOutlet name given) (st'.makeNamedOutlet name given) := by
  have hmade := hst.makeNamedOutlet name given
  rw [State.makeNamedOutlet] at hmade ⊢
  rw [State.makeNamedOutlet]
  cases ho : Outlet.ofName (Text.codesOf given) with
  | error e => exact ⟨fun _ => rfl, h⟩
  | ok o =>
    rw [ho] at hmade
    exact h.makeOutlet hmade

theorem makeGate (h : Similar L L' st st') (hst : st.Proper) (name pipe : String) :
    Agree L L' (st.makeGate name pipe) (st'.makeGate name pipe) := by
  rw [State.makeGate, State.makeGate, h.pipeNamed]
  cases hp : st.pipeNamed pipe with
  | error e => exact ⟨fun _ => rfl, h⟩
  | ok p =>
    have hplace : st'.session.gates.length = st.session.gates.length := h.twins.lengths.2
    have hadd := h.addGate (hst.pipeNamed hp)
    have hmember := hadd.addMember name (.gate st.session.gates.length)
    simp only [Session.addGate, hplace] at hmember ⊢
    exact ⟨fun hall => congrArg (fun w => Except.ok (Result.words w)) (hmember.twins.describeBacking hall _), hmember⟩

theorem makeCapture (h : Similar L L' st st') (hst : st.Proper) (name : String) (asked : Routing.Asked) :
    Agree L L' (st.makeCapture name asked) (st'.makeCapture name asked) := by
  unfold State.makeCapture
  cases hr : Routing.ofAsked asked with
  | error e => exact ⟨fun _ => rfl, h⟩
  | ok routing =>
    dsimp only
    cases hb : routing.capturePipe with
    | none => exact ⟨fun _ => rfl, h⟩
    | some b =>
      obtain ⟨hplace, hadd⟩ := h.addPipe name hb
      obtain ⟨hproper, hhas⟩ := hst.addPipe name hb
      obtain ⟨hwords, hsimilar⟩ := hadd.addPipeOutlet hproper name hhas
      dsimp only
      rw [hplace]
      exact ⟨fun hall => congrArg (fun w => Except.ok (Result.words w)) (hwords hall), hsimilar⟩

theorem makeClone (h : Similar L L' st st') (hst : st.Proper) (name source : String) :
    Agree L L' (st.makeClone name source) (st'.makeClone name source) := by
  have hmade := hst.makeClone name source
  rw [State.makeClone] at hmade ⊢
  rw [State.makeClone, h.outlet]
  cases ho : st.outlet source "clone" with
  | error e => exact ⟨fun _ => rfl, h⟩
  | ok found =>
    obtain ⟨place, o⟩ := found
    rw [ho] at hmade
    dsimp only at hmade ⊢
    cases hc : o.clone with
    | error f => exact ⟨fun _ => rfl, h⟩
    | ok c =>
      rw [hc] at hmade
      have hagree : Agree L L' (st.makeOutlet name c) (st'.makeOutlet name c) := h.makeOutlet hmade
      refine ⟨fun hall => ?_, hagree.similar⟩
      have hwords := hagree.result hall
      simp only [State.makeOutlet, Except.ok.injEq, Result.words.injEq] at hwords
      simp only [hwords]

theorem retarget (h : Similar L L' st st') (name destination : String) :
    Agree L L' (st.retarget name destination) (st'.retarget name destination) := by
  rw [State.retarget, State.retarget, h.outlet]
  cases ho : st.outlet name "_kind" with
  | error e => exact ⟨fun _ => rfl, h⟩
  | ok found =>
    obtain ⟨place, o⟩ := found
    have hx : st.session.outlets[place]? = some o := State.Proper.outlet ho
    have hx' : st'.session.outlets[place]? = some o := by rw [h.twins.outlets, hx]
    have htwins := h.twins.of_outlets (.retarget destination hx)
      (by have hm := Session.Move.retarget destination hx'; rwa [h.twins.outlets] at hm)
    refine ⟨fun _ => rfl, ?_⟩
    dsimp only
    rw [h.twins.outlets]
    exact h.of_session htwins

/-- The journal and the standard streams after what depends on them only. -/
theorem setJournal (h : Similar L L' st st') {j j' : Log.Journal} {io io' : Stdio}
    (hall : L.scope.isAll = true → j' = j ∧ io' = io) :
    Similar L L' (st.setJournal j io) (st'.setJournal j' io') :=
  h.of_session (h.twins.record hall)

/-! Views -/

theorem pipeFlag (h : Similar L L' st st') (hall : L.scope.isAll = true) (p : Nat) (f : Pipe → Bool) :
    st'.pipeFlag p f = st.pipeFlag p f := by
  have hflag : ∀ st : State, st.pipeFlag p f = .ok (.flag (((st.session.pipe? p).map f).getD false)) := by
    intro st
    rw [State.pipeFlag, Session.pipe?, Option.map_map]
    rfl
  rw [hflag, hflag, h.twins.pipe?_eq (Session.Scope.pipe_of_isAll hall p)]

theorem memberWords (h : Similar L L' st st') (hall : L.scope.isAll = true) (m : Member) :
    st'.memberWords m = st.memberWords m := by
  have hends := h.twins.describeEnds hall
  cases m with
  | readEnd p => exact congrArg (fun w => Except.ok (Result.words w)) (hends p).2
  | writeEnd p => exact congrArg (fun w => Except.ok (Result.words w)) (hends p).1
  | gate g => exact congrArg (fun w => Except.ok (Result.words w)) (h.twins.describeBacking hall (.gate g))
  | stream n => rfl
  | outlet o =>
    rw [State.memberWords, State.memberWords, h.twins.outlets]
    cases st.session.outlets[o]? with
    | none => rfl
    | some x =>
      dsimp only [outletWords]
      rw [h.twins.describeOutlet hall]

theorem look (h : Similar L L' st st') (hall : L.scope.isAll = true) (m : Member) (v : View) :
    st'.look m v = st.look m v := by
  have hd : ∀ o, st'.session.destinationOf o = st.session.destinationOf o := fun o => by
    rw [Session.destinationOf, Session.destinationOf, h.twins.outlets]
  cases v with
  | words => exact h.memberWords hall m
  | isSink => rfl
  | destination => cases m <;> simp only [State.look, hd]
  | isClosing => cases m <;> simp only [State.look, h.pipeFlag hall]
  | atEof => cases m <;> simp only [State.look, h.pipeFlag hall]
  | locked => cases m <;> simp only [State.look, h.twins.gateHeld_of_all hall]

/-- What touches the journal and the standard streams only. -/
theorem viaJournal (h : Similar L L' st st') (f : Log.Journal → Stdio → Log.Journal × Stdio × Except Failure Result) :
    Agree L L' (st.viaJournal f) (st'.viaJournal f) := by
  have hsame : L.scope.isAll = true → f st'.session.journal st'.session.stdio = f st.session.journal st.session.stdio := by
    intro hall
    rw [(h.twins.streams hall).1, (h.twins.streams hall).2]
  exact ⟨fun hall => congrArg (fun r => r.2.2) (hsame hall),
    h.setJournal fun hall => ⟨congrArg (fun r => r.1) (hsame hall), congrArg (fun r => r.2.1) (hsame hall)⟩⟩

/-- A step that makes no task and asks none to end. -/
theorem perform (h : Similar L L' st st') (hst : st.Proper) {step : Step} (hs : step.IsPlain)
    (hcall : ∀ task name method, step ≠ .call task name method)
    (hforward : ∀ task name limit target, step ≠ .forward task name limit target)
    (hcancel : ∀ task, step ≠ .cancel task) : Agree L L' (st.perform step) (st'.perform step) := by
  have hjournal : ∀ f, st.perform step = st.viaJournal f → st'.perform step = st'.viaJournal f →
      Agree L L' (st.perform step) (st'.perform step) := by
    intro f hf hf'
    rw [hf, hf']
    exact h.viaJournal f
  cases step with
  | call task name method => exact absurd rfl (hcall task name method)
  | forward task name limit target => exact absurd rfl (hforward task name limit target)
  | cancel task => exact absurd rfl (hcancel task)
  | pipe name capacity => exact h.makePipe name capacity
  | outlet name o =>
    have hproper : (st.perform (.outlet name o)).1.Proper := hst.perform hs
    exact h.makeOutlet hproper
  | pipeOutlet name pipe => exact h.makePipeOutlet hst name pipe
  | outletBefore name d backing => exact h.makeOutletBefore hst name d backing
  | namedOutlet name given => exact h.makeNamedOutlet hst name given
  | gate name pipe => exact h.makeGate hst name pipe
  | stream name given =>
    simp only [State.perform, State.makeStream]
    split
    · exact ⟨fun _ => rfl, h.addMember ..⟩
    · exact ⟨fun _ => rfl, h⟩
  | capture name asked => exact h.makeCapture hst name asked
  | clone name source => exact h.makeClone hst name source
  | retarget name destination => exact h.retarget name destination
  | view name v =>
    refine ⟨fun hall => ?_, h⟩
    simp only [State.perform, h.member, h.look hall]
  | settle => exact ⟨fun _ => rfl, h⟩
  | emit n => exact ⟨fun _ => rfl, h.of_session (h.twins.post n)⟩
  | redirect n traits => exact hjournal (fun j io => (j, io.install n (.fresh traits), .ok .nothing)) rfl rfl
  | print n text => exact hjournal _ (print_eq n text st) (print_eq n text st')
  | streams => exact hjournal _ (streams_eq st) (streams_eq st')
  | configure given => exact hjournal _ (configure_eq given st) (h.environment ▸ configure_eq given st')
  | reset => exact hjournal (fun j io => (j.reset, io, .ok .nothing)) rfl rfl
  | setUpLog given => exact hjournal _ (setUpLog_eq given st) (h.environment ▸ setUpLog_eq given st')
  | tearDownLog => exact hjournal (fun j io => (j.teardown, io, .ok .nothing)) rfl rfl
  | isConfigured => exact hjournal (fun j io => (j, io, .ok (.flag j.configured))) rfl rfl
  | log severity event given =>
    exact hjournal _ (logged_eq (fun j io => j.writeEvent io severity event given) st)
      (logged_eq (fun j io => j.writeEvent io severity event given) st')
  | foreignLog severity message =>
    exact hjournal _ (logged_eq (fun j io => j.write io (.foreign severity message)) st)
      (logged_eq (fun j io => j.write io (.foreign severity message)) st')
  | handlers => exact hjournal (fun j io => (j, io, .ok (.handlers j.handlers.length (j.own.map Log.Handler.kind)))) rfl rfl
  | files => exact hjournal (fun j io => (j, io, .ok (.files j.files.listing))) rfl rfl

end Similar

end State

end Outflow.Script
