import Outflow.Proofs.Session.Effects
import Outflow.Script.Run

/-!
# Scripts

What a script does to its session are moves and turns, so whatever holds on every run holds of every
script.

* `Member.IsIn`: what a member stands for is there;
* `Step.IsPlain`: the steps that a script can have: they know members by their names;
* `State.Proper`: the session of a script is one that a run leads to, and its names stand for what is
  there;
* `Proper.perform`, `Proper.step`: a step keeps this;
* `reachable_after`: so it holds of every script.
-/

namespace Outflow.Script

open Session (Extends Move Sound)

variable {s s' : Session} {st st' : State} {m : Member}

/-- Whether what a member stands for is there. -/
def Member.IsIn (s : Session) : Member → Prop
  | .readEnd p | .writeEnd p => s.Has (.pipe p)
  | .outlet o => ∃ x, s.outlets[o]? = some x
  | .gate g => s.Has (.gate g)
  | .stream _ => True

/-- Whether a step knows members by their names only: an outlet that is given stands before a standard
stream or before nothing, and forwarding is a step of its own. -/
def Step.IsPlain : Step → Prop
  | .outlet _ o => ∀ b, o.backing = some b → (∃ n, b = .stream n) ∧ o.destination ≠ .null
  | .call _ _ method => ∀ limit target, method ≠ .forward limit target
  | _ => True

theorem Member.IsIn.extends (h : m.IsIn s) (he : Extends s s') : m.IsIn s' := by
  cases m with
  | readEnd p => exact he.has (b := .pipe p) h
  | writeEnd p => exact he.has (b := .pipe p) h
  | gate g => exact he.has (b := .gate g) h
  | stream n => trivial
  | outlet o =>
    obtain ⟨x, hx⟩ := h
    obtain ⟨x', hx', -⟩ := he.outlet o x hx
    exact ⟨x', hx'⟩

theorem Member.IsIn.backing (h : m.IsIn s) {b : Backing} (hb : m.backing? = some b) : s.Has b := by
  cases m with
  | readEnd p => cases hb
  | outlet o => cases hb
  | writeEnd p => cases hb; exact h
  | gate g => cases hb; exact h
  | stream n => cases hb; trivial

/-- The call of a method finds what it needs. -/
theorem Member.IsIn.fits (h : m.IsIn s) {method : Method}
    (ht : ∀ limit target, method = .forward limit target → target.IsIn s) {c : Call}
    (hc : method.call? m = some c) : s.Fits c := by
  have hsink : ∀ r, (m.backing?.map fun b => Call.backing b r) = some c → s.Fits c := by
    intro r he
    obtain ⟨b, hb, rfl⟩ := Option.map_eq_some_iff.1 he
    exact h.backing hb
  cases method with
  | sink r =>
    cases m with
    | outlet o => cases hc; exact h
    | readEnd p => exact hsink r hc
    | writeEnd p => exact hsink r hc
    | gate g => exact hsink r hc
    | stream n => exact hsink r hc
  | forward limit target =>
    have htarget := ht limit target rfl
    cases m with
    | readEnd p =>
      cases target with
      | outlet o => cases hc; exact ⟨h, htarget⟩
      | _ => cases hc
    | _ => cases target <;> cases hc
  | leave failing =>
    cases m with
    | outlet o =>
      cases failing with
      | true => cases hc; trivial
      | false => cases hc; exact h
    | readEnd p => cases hc; exact h
    | writeEnd p => cases hc; exact h
    | _ => cases hc
  | enter =>
    cases m <;> cases hc
    all_goals trivial
  | _ =>
    cases m <;> cases hc
    all_goals exact h

/-- The session of a script is one that a run leads to, and its names stand for what is there. -/
structure State.Proper (st : State) : Prop where
  reachable : st.session.Reachable
  members : ∀ m ∈ st.members, m.2.IsIn st.session

namespace State.Proper

theorem start (environment : Environment) (out err : Stream.Traits) :
    (State.start environment out err).Proper :=
  ⟨Session.reachable_start out err, fun m hm => by cases hm⟩

/-- Only the names and the session matter. -/
theorem congr (h : st.Proper) (hs : st'.session = st.session) (hm : st'.members = st.members) :
    st'.Proper :=
  ⟨by rw [hs]; exact h.reachable, by rw [hs, hm]; exact h.members⟩

/-- The session makes a move. -/
theorem move (h : st.Proper) (hm : Move st.session s') : { st with session := s' }.Proper :=
  ⟨h.reachable.move hm, fun m hmem => (h.members m hmem).extends (hm.extends h.reachable.sound)⟩

/-- The session takes a number of turns. -/
theorem run (h : st.Proper) (n : Nat) : { st with session := st.session.run n }.Proper := by
  refine ⟨h.reachable.run n, fun m hm => (h.members m hm).extends ?_⟩
  have hrun := (@Session.Run.refl st.session).iterate n
  rw [Session.run_eq_iterate]
  exact hrun.extends h.reachable.sound

/-- The journal and the standard streams are changed. -/
theorem setJournal (h : st.Proper) (journal : Log.Journal) (stdio : Stdio) :
    (st.setJournal journal stdio).Proper := h.move (.record ..)

theorem addMember (h : st.Proper) (name : String) (hm : m.IsIn st.session) :
    (st.addMember name m).Proper := by
  refine ⟨h.reachable, fun m' hm' => ?_⟩
  rcases List.mem_append.1 hm' with hm' | hm'
  · exact h.members m' hm'
  · rw [List.mem_singleton.1 hm']
    exact hm

theorem member (h : st.Proper) {name : String} (hm : st.member name = .ok m) :
    m.IsIn st.session := by
  unfold State.member at hm
  split at hm
  · rename_i m' hl
    cases hm
    obtain ⟨l₁, l₂, hmem, -⟩ := List.lookup_eq_some_iff.1 hl
    exact h.members (name, m) (by rw [hmem]; simp)
  · cases hm

theorem pipeNamed (h : st.Proper) {name : String} {p : Nat} (hp : st.pipeNamed name = .ok p) :
    st.session.Has (.pipe p) := by
  unfold State.pipeNamed at hp
  split at hp
  · rename_i q hm
    cases hp
    exact h.member hm
  · cases hp

theorem outlet {name part : String} {o : Nat} {x : Outlet} (ho : st.outlet name part = .ok (o, x)) :
    st.session.outlets[o]? = some x := by
  unfold State.outlet at ho
  split at ho
  · cases ho
  · split at ho
    · split at ho
      · rename_i hx
        cases ho
        exact hx
      · cases ho
    · cases ho

/-! ### New members -/

theorem addOutlet (h : st.Proper) (name : String) {o : Outlet}
    (ho : ∀ b, o.backing = some b → st.session.Has b ∧ o.destination ≠ .null) :
    (st.addOutlet name o).1.Proper :=
  (h.move (.addOutlet ho)).addMember name ⟨o, by simp [Session.addOutlet]⟩

theorem addGate (h : st.Proper) {p : Nat} (hp : st.session.Has (.pipe p)) :
    { st with session := (st.session.addGate p).1 }.Proper ∧
      (st.session.addGate p).1.Has (.gate st.session.gates.length) := by
  refine ⟨h.move (.addGate hp), p, ?_⟩
  simp [Session.gatePipe?, Session.addGate, Gate.ofPipe]

theorem addPipeOutlet (h : st.Proper) (name : String) {p : Nat} (hp : st.session.Has (.pipe p)) :
    (st.addPipeOutlet name p).1.Proper := by
  obtain ⟨hproper, hgate⟩ := h.addGate hp
  refine hproper.addOutlet name fun b hb => ?_
  cases hb
  exact ⟨hgate, by simp [Outlet.ofGate]⟩

theorem addPipe (h : st.Proper) (name : String) {capacity : Int} {b : Pipe}
    (hb : Pipe.create? capacity = some b) : (st.addPipe name b).1.Proper ∧
      (st.addPipe name b).1.session.Has (.pipe (st.addPipe name b).2) := by
  have hhas : (st.session.addPipe b).1.Has (.pipe st.session.channels.length) :=
    ⟨b, by simp [Session.pipe?, Session.addPipe]⟩
  have hproper : { st with
      session := (st.session.addPipe b).1, pipes := st.pipes ++ [name] }.Proper :=
    (h.move (.addPipe hb)).congr rfl rfl
  exact ⟨hproper.addMember _ hhas, hhas⟩

theorem makePipe (h : st.Proper) (name : String) (capacity : Int) :
    (st.makePipe name capacity).1.Proper := by
  unfold State.makePipe
  split
  · exact h
  · rename_i b hb
    obtain ⟨hproper, hhas⟩ := h.addPipe name hb
    exact hproper.addMember _ hhas

theorem makePipeOutlet (h : st.Proper) (name pipe : String) :
    (st.makePipeOutlet name pipe).1.Proper := by
  unfold State.makePipeOutlet
  split
  · exact h
  · rename_i p hp
    exact h.addPipeOutlet name (h.pipeNamed hp)

theorem makeOutletBefore (h : st.Proper) (name : String) (d : Destination)
    (backing : Option String) : (st.makeOutletBefore name d backing).1.Proper := by
  unfold State.makeOutletBefore
  split
  · exact h
  · rename_i b hb
    split
    · rename_i o ho
      refine h.addOutlet name fun b' hb' => ?_
      unfold Outlet.create? at ho
      split at ho
      · rename_i hnull
        cases ho
        subst hb'
        refine ⟨?_, by simpa using hnull⟩
        unfold State.backingNamed at hb
        split at hb
        · cases hb
        · split at hb
          · cases hb
          · rename_i m hm
            rw [Except.ok.injEq] at hb
            exact (h.member hm).backing hb
      · cases ho
    · exact h

/-- A destination that a user names needs nothing but a standard stream. -/
theorem makeNamedOutlet (h : st.Proper) (name given : String) :
    (st.makeNamedOutlet name given).1.Proper := by
  unfold State.makeNamedOutlet
  split
  · rename_i o ho
    refine h.addOutlet name fun b hb => ?_
    unfold Outlet.ofName Outlet.ofDestination at ho
    grind [Outlet.ofStream, Outlet.null, Session.Has, Destination.ofStream]
  · exact h

theorem makeGate (h : st.Proper) (name pipe : String) : (st.makeGate name pipe).1.Proper := by
  unfold State.makeGate
  split
  · exact h
  · rename_i p hp
    obtain ⟨hproper, hgate⟩ := h.addGate (h.pipeNamed hp)
    exact hproper.addMember name hgate

theorem makeStream (h : st.Proper) (name given : String) :
    (st.makeStream name given).1.Proper := by
  unfold State.makeStream
  split
  · exact h.addMember name trivial
  · exact h

theorem makeCapture (h : st.Proper) (name : String) (asked : Routing.Asked) :
    (st.makeCapture name asked).1.Proper := by
  unfold State.makeCapture
  split
  · exact h
  · split
    · exact h
    · rename_i b hb
      obtain ⟨hproper, hhas⟩ := h.addPipe name hb
      exact hproper.addPipeOutlet name hhas

/-- A clone stands before the same, or before a standard stream, or before nothing. -/
theorem makeClone (h : st.Proper) (name source : String) :
    (st.makeClone name source).1.Proper := by
  unfold State.makeClone
  split
  · exact h
  · rename_i o x hx
    split
    · exact h
    · rename_i c hc
      have hmem := List.mem_of_getElem? (outlet hx)
      refine h.addOutlet name fun b hb => ?_
      unfold Outlet.clone at hc
      split at hc
      · cases hc; cases hb; exact ⟨trivial, by simp [Outlet.ofStream, Destination.ofStream]⟩
      · cases hc; cases hb; exact ⟨trivial, by simp [Outlet.ofStream, Destination.ofStream]⟩
      · -- the clone for a pipe stands before what the outlet stands before
        cases hc
        exact ⟨(h.reachable.sound.housed.backing x hmem b hb).1, by simp⟩
      · cases hc; cases hb
      · cases hc

theorem retarget (h : st.Proper) (name destination : String) :
    (st.retarget name destination).1.Proper := by
  unfold State.retarget
  split
  · exact h
  · rename_i place x hx
    exact h.move (.retarget destination (outlet hx))

/-! ### The journal and the standard streams -/

theorem print (h : st.Proper) (n : StreamName) (text : String) : (st.print n text).1.Proper := by
  unfold State.print
  dsimp only
  split
  · exact h.move (.record ..)
  · exact h.move (.record ..)

theorem configure (h : st.Proper) (given : Log.Overrides) : (st.configure given).1.Proper := by
  unfold State.configure
  dsimp only
  split
  · exact h.setJournal ..
  · exact h.setJournal ..

theorem setUpLog (h : st.Proper) (given : Log.Overrides) : (st.setUpLog given).1.Proper := by
  unfold State.setUpLog
  dsimp only
  split
  · exact h.setJournal ..
  · exact h.setJournal ..

theorem logged (h : st.Proper) (written : Log.Journal × Stdio × Except Fault Unit) :
    (st.logged written).1.Proper := by
  unfold State.logged
  split
  · exact h.setJournal ..
  · exact h.setJournal ..

/-! ### Steps -/

theorem callNamed (h : st.Proper) (task name : String) {method : Method}
    (ht : ∀ limit target, method = .forward limit target → target.IsIn st.session) :
    (st.callNamed task name method).1.Proper := by
  unfold State.callNamed
  split
  · exact h
  · rename_i m hm
    unfold State.call
    split
    · exact h
    · rename_i c hc
      exact (h.move (.spawn ((h.member hm).fits ht hc))).congr rfl rfl

theorem forward (h : st.Proper) (task name : String) (limit : Int) (target : String) :
    (st.forward task name limit target).1.Proper := by
  unfold State.forward
  split
  · exact h
  · rename_i m hm
    refine h.callNamed task name fun limit' target' he => ?_
    cases he
    exact h.member hm

theorem cancel (h : st.Proper) (task : String) : (st.cancel task).1.Proper := by
  unfold State.cancel
  split
  · exact h
  · exact h.move (.cancel ..)

/-- A step keeps the names of a script in order. -/
theorem perform (h : st.Proper) {step : Step} (hp : step.IsPlain) : (st.perform step).1.Proper := by
  cases step with
  | pipe name capacity => exact h.makePipe name capacity
  | outlet name o =>
    refine h.addOutlet name fun b hb => ?_
    obtain ⟨⟨n, rfl⟩, hd⟩ := hp b hb
    exact ⟨trivial, hd⟩
  | pipeOutlet name pipe => exact h.makePipeOutlet name pipe
  | outletBefore name d backing => exact h.makeOutletBefore name d backing
  | namedOutlet name given => exact h.makeNamedOutlet name given
  | gate name pipe => exact h.makeGate name pipe
  | stream name given => exact h.makeStream name given
  | capture name asked => exact h.makeCapture name asked
  | clone name source => exact h.makeClone name source
  | retarget name destination => exact h.retarget name destination
  | view name v => exact h
  | call task name method =>
    exact h.callNamed task name fun limit target he => absurd he (hp limit target)
  | forward task name limit target => exact h.forward task name limit target
  | cancel task => exact h.cancel task
  | settle => exact h
  | redirect n traits => exact h.move (.record ..)
  | print n text => exact h.print n text
  | streams => exact h.move (.record ..)
  | configure given => exact h.configure given
  | reset => exact h.setJournal ..
  | setUpLog given => exact h.setUpLog given
  | tearDownLog => exact h.setJournal ..
  | isConfigured => exact h
  | emit n => exact h.move (.post ..)
  | log severity event given => exact h.logged _
  | foreignLog severity message => exact h.logged _
  | handlers => exact h
  | files => exact h

theorem step (h : st.Proper) {step : Step} (hp : step.IsPlain) (hasty : Bool) :
    (st.step step hasty).1.Proper := by
  have hperform := h.perform hp
  cases hasty with
  | true => exact hperform.congr rfl rfl
  | false => exact (hperform.run _).congr rfl rfl

end State.Proper

/-- What becomes of a script's state on a list of steps. -/
def State.after (st : State) : List (Step × Bool) → State
  | [] => st
  | (s, hasty) :: rest => (st.step s hasty).1.after rest

/-- The session of every script is one that a run leads to. -/
theorem reachable_after (environment : Environment) (out err : Stream.Traits)
    (steps : List (Step × Bool)) (hp : ∀ s ∈ steps, s.1.IsPlain) :
    ((State.start environment out err).after steps).session.Reachable := by
  suffices h : ∀ st : State, st.Proper → (st.after steps).Proper from
    (h _ (.start environment out err)).reachable
  induction steps with
  | nil => exact fun st h => h
  | cons s rest ih =>
    exact fun st h => ih (fun s' hs => hp s' (List.mem_cons_of_mem _ hs)) _
      (h.step (hp s List.mem_cons_self) s.2)

end Outflow.Script
