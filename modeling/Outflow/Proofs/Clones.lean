import Outflow.Proofs.Script
import Outflow.Proofs.Session.Redirect

/-!
# Clones stand in for their originals

An outlet and its clones are equal, so it does not matter to which of them a call is made: the calls can be
redirected to the first of their equals.

* `Outlet.Made`, `Outlet.Matches`: how outlets are made, and that what stands behind one is what its
  destination says;
* `State.play`: a script at any pace, not only with settling after each step;
* `State.perform_collapse`: the steps of a script do the same when the calls are redirected;
* `Swapped`: scripts that differ in which clones they call;
* `clones_stand_in`: they have the same reports, and the same becomes of everything.
-/

namespace Outflow

namespace Outlet

/-- How outlets are made: for a standard stream, for a pipe, for nothing, for a destination that a user
names, by a routing, and from others. -/
inductive Made : Outlet → Prop
  | stream (n : StreamName) : Made (.ofStream n)
  | gate (g : Nat) : Made (.ofGate g)
  | null : Made .null
  | named {given x} (h : Outlet.ofName given = .ok x) : Made x
  | routedOut {r : Routing} {x y} (h : r.outlets = .ok (x, y)) : Made x
  | routedErr {r : Routing} {x y} (h : r.outlets = .ok (x, y)) : Made y
  | clone {x y} (h : Made x) (hc : x.clone = .ok y) : Made y

variable {x y : Outlet}

/-- Whether what stands behind an outlet is what its destination says. -/
def Matches (x : Outlet) : Prop :=
  match x.destination with
  | .stdout => x.backing = some (.stream .stdout)
  | .stderr => x.backing = some (.stream .stderr)
  | .pipe => ∃ g, x.backing = some (.gate g)
  | .null => x.backing = none
  | .other _ => False

/-- Whether an outlet is got from another by cloning, any number of times. -/
def Descends : Outlet → Outlet → Prop := Relation.ReflTransGen fun x y => x.clone = .ok y

/-- A clone is equal to its original. -/
theorem Matches.clone (h : x.Matches) : x.clone = .ok x := by
  obtain ⟨d, b⟩ := x
  cases d with
  | stdout | stderr | null => cases (show b = _ from h); rfl
  | pipe => rfl
  | other name => exact h.elim

theorem Matches.descends (h : x.Matches) (hd : x.Descends y) : y = x := by
  induction hd with
  | refl => rfl
  | tail _ hc ih =>
    subst ih
    exact (Except.ok.inj (h.clone.symm.trans hc)).symm

theorem matches_of_ofName {given : Text.Codes} (h : Outlet.ofName given = .ok x) : x.Matches := by
  unfold ofName at h
  split at h
  · cases h
  · rename_i d hd
    cases d <;> cases h <;> rfl

theorem matches_of_outlets {r : Routing} (h : r.outlets = .ok (x, y)) : x.Matches ∧ y.Matches := by
  unfold Routing.outlets at h
  cases hx : Outlet.ofName (Text.codesOf r.stdout.name) with
  | error e => rw [hx] at h; cases h
  | ok out =>
    cases hy : Outlet.ofName (Text.codesOf r.stderr.name) with
    | error e => rw [hx, hy] at h; cases h
    | ok err =>
      rw [hx, hy] at h
      cases h
      exact ⟨matches_of_ofName hx, matches_of_ofName hy⟩

theorem Made.matches (h : x.Made) : x.Matches := by
  induction h with
  | stream n => cases n <;> rfl
  | gate g => exact ⟨g, rfl⟩
  | null => rfl
  | named h => exact matches_of_ofName h
  | routedOut h => exact (matches_of_outlets h).1
  | routedErr h => exact (matches_of_outlets h).2
  | clone h hc ih => exact ih.descends (.single hc) ▸ ih

end Outlet

namespace Script

open Session (first)

/-- Whether a step makes outlets in none but the usual ways, and changes none.  Forwarding is a step of its
own. -/
def Step.MakesHandles : Step → Prop
  | .outlet _ o => o.Made ∧ ∀ g, o.backing ≠ some (.gate g)
  | .outletBefore .. | .retarget .. => False
  | .call _ _ method => ∀ limit target, method ≠ .forward limit target
  | _ => True

theorem Step.MakesHandles.isPlain {step : Step} (h : step.MakesHandles) : step.IsPlain := by
  cases step with
  | outlet name o =>
    intro b hb
    have hm := h.1.matches
    obtain ⟨d, backing⟩ := o
    cases hb
    cases d with
    | stdout => exact ⟨⟨.stdout, Option.some.inj hm⟩, by simp⟩
    | stderr => exact ⟨⟨.stderr, Option.some.inj hm⟩, by simp⟩
    | pipe =>
      obtain ⟨g, hg⟩ := hm
      exact absurd hg (h.2 g)
    | null => cases hm
    | other name => exact hm.elim
  | call task name method => exact h
  | _ => trivial

/-- A script with its calls redirected to the first equals of their outlets. -/
def State.collapse (st : State) : State := { st with session := st.session.collapse }

/-- What a step does, with the calls redirected. -/
def Performed.collapse (r : Performed) : Performed := (r.1.collapse, r.2)

namespace State

variable {st st' : State}

@[simp] theorem collapse_collapse (st : State) : st.collapse.collapse = st.collapse := by
  simp [collapse]

theorem addOutlet_collapse (st : State) (name : String) (x : Outlet) :
    (st.collapse.addOutlet name x).1.collapse = (st.addOutlet name x).1.collapse := by
  have hs := st.session.collapse_addOutlet x
  have hmember := congrArg (fun session : Session =>
    { st with session }.addMember name (.outlet st.session.outlets.length)) hs
  exact hmember

theorem addPipeOutlet_collapse (st : State) (name : String) (p : Nat) :
    (st.collapse.addPipeOutlet name p).1.collapse = (st.addPipeOutlet name p).1.collapse :=
  addOutlet_collapse { st with session := (st.session.addGate p).1 } name _

/-- A call at an equal outlet. -/
theorem collapse_call (h : st.collapse = st'.collapse) (task : String) {method method' : Method}
    {m m' : Member} (hlacks : Failure.lacks m.kind method.name = .lacks m'.kind method'.name)
    (hc : (method.call? m).map (Call.redirect (first st.session.outlets)) =
      (method'.call? m').map (Call.redirect (first st.session.outlets))) :
    (st.call task method m).collapse = (st'.call task method' m').collapse := by
  unfold State.call
  cases hm : method.call? m with
  | none =>
    rw [hm] at hc
    rw [Option.map_eq_none_iff.1 hc.symm, hlacks]
    exact congrArg (·, _) h
  | some c =>
    rw [hm] at hc
    obtain ⟨c', hm', hcc⟩ := Option.map_eq_some_iff.1 hc.symm
    rw [hm']
    have hspawn := Session.collapse_spawn (congrArg session h) hcc.symm
    have hspawned := congrArg₂ (fun (st : State) (session : Session) =>
      ({ st with session, tasks := st.tasks ++ [task] } : State)) h hspawn
    exact congrArg (·, _) hspawned

theorem makePipeOutlet_collapse (st : State) (name pipe : String) :
    (st.collapse.makePipeOutlet name pipe).collapse = (st.makePipeOutlet name pipe).collapse := by
  simp only [makePipeOutlet, show st.collapse.pipeNamed pipe = st.pipeNamed pipe from rfl]
  cases st.pipeNamed pipe with
  | error e => simp [Performed.collapse]
  | ok p => exact congrArg (·, _) (addPipeOutlet_collapse st name p)

theorem makeNamedOutlet_collapse (st : State) (name given : String) :
    (st.collapse.makeNamedOutlet name given).collapse = (st.makeNamedOutlet name given).collapse := by
  unfold makeNamedOutlet
  cases Outlet.ofName (Text.codesOf given) with
  | error e => simp [Performed.collapse]
  | ok o => exact congrArg (·, _) (addOutlet_collapse st name o)

theorem makeCapture_collapse (st : State) (name : String) (asked : Routing.Asked) :
    (st.collapse.makeCapture name asked).collapse = (st.makeCapture name asked).collapse := by
  unfold makeCapture
  cases Routing.ofAsked asked with
  | error e => simp [Performed.collapse]
  | ok routing =>
    simp only
    cases routing.capturePipe with
    | none => simp [Performed.collapse]
    | some b => exact congrArg (·, _) (addPipeOutlet_collapse (st.addPipe name b).1 name _)

theorem makeClone_collapse (st : State) (name source : String) :
    (st.collapse.makeClone name source).collapse = (st.makeClone name source).collapse := by
  simp only [makeClone, show st.collapse.outlet source "clone" = st.outlet source "clone" from rfl]
  cases st.outlet source "clone" with
  | error e => simp [Performed.collapse]
  | ok found =>
    obtain ⟨o, x⟩ := found
    simp only
    cases x.clone with
    | error f => simp [Performed.collapse]
    | ok c => exact congrArg (·, _) (addOutlet_collapse st name c)

theorem callNamed_collapse (st : State) (task name : String) (method : Method) :
    (st.collapse.callNamed task name method).collapse = (st.callNamed task name method).collapse := by
  simp only [callNamed, show st.collapse.member name = st.member name from rfl]
  cases st.member name with
  | error e => simp [Performed.collapse]
  | ok m => exact collapse_call (collapse_collapse st) task rfl rfl

theorem forward_collapse (st : State) (task name : String) (limit : Int) (target : String) :
    (st.collapse.forward task name limit target).collapse =
      (st.forward task name limit target).collapse := by
  simp only [forward, show st.collapse.member target = st.member target from rfl]
  cases st.member target with
  | error e => simp [Performed.collapse]
  | ok m => exact callNamed_collapse st task name (.forward limit m)

theorem cancel_collapse (h : st.session.Reachable) (task : String) :
    st.collapse.cancel task = (st.cancel task).collapse := by
  simp only [cancel, show st.collapse.tasks = st.tasks from rfl]
  cases st.tasks.idxOf? task with
  | none => rfl
  | some t =>
    simp only [show st.collapse.session = st.session.collapse from rfl,
      Session.cancel_collapse h.sound]
    rfl

theorem makeGate_collapse (st : State) (name pipe : String) :
    st.collapse.makeGate name pipe = (st.makeGate name pipe).collapse := by
  simp only [makeGate, show st.collapse.pipeNamed pipe = st.pipeNamed pipe from rfl]
  cases st.pipeNamed pipe <;> rfl

theorem makePipe_collapse (st : State) (name : String) (capacity : Int) :
    st.collapse.makePipe name capacity = (st.makePipe name capacity).collapse := by
  unfold makePipe
  cases Pipe.create? capacity <;> rfl

theorem makeStream_collapse (st : State) (name given : String) :
    st.collapse.makeStream name given = (st.makeStream name given).collapse := by
  unfold makeStream
  cases StreamName.ofName? given <;> rfl

theorem print_collapse (st : State) (n : StreamName) (text : String) :
    st.collapse.print n text = (st.print n text).collapse := by
  simp only [print, show st.collapse.session.stdio = st.session.stdio from rfl]
  split <;> rfl

theorem configure_collapse (st : State) (given : Log.Overrides) :
    st.collapse.configure given = (st.configure given).collapse := by
  simp only [configure, collapse, Session.collapse, Session.redirect]
  split <;> rfl

theorem setUpLog_collapse (st : State) (given : Log.Overrides) :
    st.collapse.setUpLog given = (st.setUpLog given).collapse := by
  simp only [setUpLog, collapse, Session.collapse, Session.redirect]
  split <;> rfl

theorem logged_collapse (st : State) (written : Log.Journal × Stdio × Except Fault Unit) :
    st.collapse.logged written = (st.logged written).collapse := by
  unfold logged
  split <;> rfl

/-- Each step does the same when the calls are redirected. -/
theorem perform_collapse (h : st.session.Reachable) {step : Step} (hp : step.MakesHandles) :
    (st.collapse.perform step).collapse = (st.perform step).collapse := by
  -- most steps come to exactly the same
  have hexact : st.collapse.perform step = (st.perform step).collapse →
      (st.collapse.perform step).collapse = (st.perform step).collapse := by
    intro he
    rw [he, Performed.collapse, Performed.collapse, collapse_collapse]
  cases step with
  | outletBefore name d backing => exact hp.elim
  | retarget name destination => exact hp.elim
  | outlet name o => exact congrArg (·, _) (addOutlet_collapse st name o)
  | pipeOutlet name pipe => exact makePipeOutlet_collapse ..
  | namedOutlet name given => exact makeNamedOutlet_collapse ..
  | capture name asked => exact makeCapture_collapse ..
  | clone name source => exact makeClone_collapse ..
  | call task name method => exact callNamed_collapse ..
  | forward task name limit target => exact forward_collapse ..
  | cancel task => exact hexact (cancel_collapse h task)
  | emit n =>
    exact hexact (congrArg (fun session => ({ st with session }, _)) (st.session.post_collapse n))
  | pipe name capacity => exact hexact (makePipe_collapse ..)
  | gate name pipe => exact hexact (makeGate_collapse ..)
  | stream name given => exact hexact (makeStream_collapse ..)
  | print n text => exact hexact (print_collapse ..)
  | configure given => exact hexact (configure_collapse ..)
  | setUpLog given => exact hexact (setUpLog_collapse ..)
  | log severity event given => exact hexact (logged_collapse ..)
  | foreignLog severity message => exact hexact (logged_collapse ..)
  | _ => exact hexact rfl

/-! ### Names and outlets stay -/

/-- Whether a script still has the outlets and names that it had, and others were made as they should. -/
structure Grows (st st' : State) : Prop where
  outlets : ∃ made, st'.session.outlets = st.session.outlets ++ made ∧ ∀ x ∈ made, Outlet.Made x
  members : st.members <+: st'.members

theorem Grows.of_eq (ho : st'.session.outlets = st.session.outlets)
    (hm : st.members <+: st'.members) : Grows st st' :=
  ⟨⟨[], by simpa using ho, fun x hx => by cases hx⟩, hm⟩

theorem Grows.refl (st : State) : Grows st st := .of_eq rfl List.prefix_rfl

theorem Grows.trans {st'' : State} (h : Grows st st') (h' : Grows st' st'') : Grows st st'' := by
  obtain ⟨made, ho, hmade⟩ := h.outlets
  obtain ⟨made', ho', hmade'⟩ := h'.outlets
  refine ⟨⟨made ++ made', by rw [ho', ho, List.append_assoc], fun x hx => ?_⟩,
    h.members.trans h'.members⟩
  rcases List.mem_append.1 hx with hx | hx
  · exact hmade x hx
  · exact hmade' x hx

theorem grows_addMember (st : State) (name : String) (m : Member) : Grows st (st.addMember name m) :=
  .of_eq rfl (List.prefix_append ..)

theorem grows_addOutlet (st : State) (name : String) {x : Outlet} (hx : x.Made) :
    Grows st (st.addOutlet name x).1 :=
  ⟨⟨[x], rfl, fun _ hy => List.mem_singleton.1 hy ▸ hx⟩, List.prefix_append ..⟩

theorem grows_addPipeOutlet (st : State) (name : String) (p : Nat) :
    Grows st (st.addPipeOutlet name p).1 := by
  have hgate : Grows st { st with session := (st.session.addGate p).1 } := .of_eq rfl List.prefix_rfl
  exact hgate.trans (grows_addOutlet _ name (.gate st.session.gates.length))

theorem grows_addPipe (st : State) (name : String) (b : Pipe) : Grows st (st.addPipe name b).1 :=
  .of_eq rfl (List.prefix_append ..)

/-- The session of a script is one that a run leads to, its names stand for what is there, and its outlets
were made as they should. -/
structure Regular (st : State) : Prop where
  proper : st.Proper
  made : ∀ x ∈ st.session.outlets, Outlet.Made x

theorem Grows.made (h : Grows st st') (hm : ∀ x ∈ st.session.outlets, Outlet.Made x) :
    ∀ x ∈ st'.session.outlets, Outlet.Made x := by
  obtain ⟨made, ho, hmade⟩ := h.outlets
  intro x hx
  rw [ho] at hx
  rcases List.mem_append.1 hx with hx | hx
  · exact hm x hx
  · exact hmade x hx

theorem grows_logged (st : State) (written : Log.Journal × Stdio × Except Fault Unit) :
    Grows st (st.logged written).1 := by
  unfold logged
  split <;> exact .of_eq rfl List.prefix_rfl

theorem grows_callNamed (st : State) (task name : String) (method : Method) :
    Grows st (st.callNamed task name method).1 := by
  unfold callNamed
  split
  · exact .refl st
  · unfold State.call
    split
    · exact .refl st
    · exact .of_eq rfl List.prefix_rfl

theorem grows_forward (st : State) (task name : String) (limit : Int) (target : String) :
    Grows st (st.forward task name limit target).1 := by
  unfold forward
  split
  · exact .refl st
  · exact grows_callNamed ..

theorem grows_cancel (h : st.session.Reachable) (task : String) : Grows st (st.cancel task).1 := by
  unfold cancel
  split
  · exact .refl st
  · exact .of_eq (Session.fields_cancel h.sound _).2.2.1 List.prefix_rfl

theorem grows_makePipe (st : State) (name : String) (capacity : Int) :
    Grows st (st.makePipe name capacity).1 := by
  unfold makePipe
  split
  · exact .refl st
  · exact (grows_addPipe st name _).trans (grows_addMember ..)

theorem grows_makeGate (st : State) (name pipe : String) : Grows st (st.makeGate name pipe).1 := by
  unfold makeGate
  split
  · exact .refl st
  · exact .of_eq rfl (List.prefix_append ..)

theorem grows_makeStream (st : State) (name given : String) :
    Grows st (st.makeStream name given).1 := by
  unfold makeStream
  split
  · exact grows_addMember ..
  · exact .refl st

theorem grows_makePipeOutlet (st : State) (name pipe : String) :
    Grows st (st.makePipeOutlet name pipe).1 := by
  unfold makePipeOutlet
  split
  · exact .refl st
  · exact grows_addPipeOutlet ..

theorem grows_makeNamedOutlet (st : State) (name given : String) :
    Grows st (st.makeNamedOutlet name given).1 := by
  unfold makeNamedOutlet
  split
  · rename_i o ho
    exact grows_addOutlet st name (.named ho)
  · exact .refl st

theorem grows_makeCapture (st : State) (name : String) (asked : Routing.Asked) :
    Grows st (st.makeCapture name asked).1 := by
  unfold makeCapture
  split
  · exact .refl st
  · split
    · exact .refl st
    · exact (grows_addPipe st name _).trans (grows_addPipeOutlet ..)

theorem Regular.grows_makeClone (h : st.Regular) (name source : String) :
    Grows st (st.makeClone name source).1 := by
  unfold makeClone
  split
  · exact .refl st
  · rename_i o x hx
    split
    · exact .refl st
    · rename_i c hc
      have hmade := h.made x (List.mem_of_getElem? (Proper.outlet hx))
      exact grows_addOutlet st name (hmade.clone hc)

/-- No step takes an outlet or a name away. -/
theorem Regular.grows (h : st.Regular) {step : Step} (hp : step.MakesHandles) :
    Grows st (st.perform step).1 := by
  cases step with
  | outletBefore name d backing => exact hp.elim
  | retarget name destination => exact hp.elim
  | outlet name o => exact grows_addOutlet st name hp.1
  | pipeOutlet name pipe => exact grows_makePipeOutlet ..
  | namedOutlet name given => exact grows_makeNamedOutlet ..
  | capture name asked => exact grows_makeCapture ..
  | clone name source => exact h.grows_makeClone name source
  | call task name method => exact grows_callNamed ..
  | forward task name limit target => exact grows_forward ..
  | cancel task => exact grows_cancel h.proper.reachable task
  | emit n => exact .of_eq (Session.fields_post st.session n).2.2.1 List.prefix_rfl
  | pipe name capacity => exact grows_makePipe ..
  | gate name pipe => exact grows_makeGate ..
  | stream name given => exact grows_makeStream ..
  | print n text =>
    simp only [perform, print]
    split <;> exact .of_eq rfl List.prefix_rfl
  | configure given =>
    simp only [perform, configure]
    split <;> exact .of_eq rfl List.prefix_rfl
  | setUpLog given =>
    simp only [perform, setUpLog]
    split <;> exact .of_eq rfl List.prefix_rfl
  | log severity event given => exact grows_logged ..
  | foreignLog severity message => exact grows_logged ..
  | _ => exact .of_eq rfl List.prefix_rfl

/-! ### Scripts at any pace -/

/-- The session takes a number of turns, or settles. -/
def rest (st : State) (turns : Option Nat) : State :=
  { st with session := turns.elim st.session.settle st.session.run }

/-- A step, what follows it, and the report. -/
def pace (st : State) (s : Step) (turns : Option Nat) : State × Report :=
  let (st, result) := st.perform s
  ((st.rest turns).seen, (st.rest turns).report result)

/-- The reports on a list of steps, each with its turns. -/
def play (st : State) : List (Step × Option Nat) → List Report
  | [] => []
  | (s, turns) :: rest => (st.pace s turns).2 :: (st.pace s turns).1.play rest

/-- What becomes of a script's state on a list of steps, each with its turns. -/
def played (st : State) : List (Step × Option Nat) → State
  | [] => st
  | (s, turns) :: rest => (st.pace s turns).1.played rest

theorem grows_rest (h : st.session.Reachable) (turns : Option Nat) :
    Grows st (st.rest turns).seen := by
  cases turns with
  | none => exact .of_eq (Session.outlets_run h.sound _) List.prefix_rfl
  | some n => exact .of_eq (Session.outlets_run h.sound n) List.prefix_rfl

theorem Proper.rest (h : st.Proper) (turns : Option Nat) : (st.rest turns).Proper := by
  cases turns with
  | none => exact h.run _
  | some n => exact h.run n

theorem Regular.pace (h : st.Regular) {s : Step} (hp : s.MakesHandles) (turns : Option Nat) :
    (st.pace s turns).1.Regular ∧ Grows st (st.pace s turns).1 := by
  have hproper := h.proper.perform hp.isPlain
  have hgrows := (h.grows hp).trans (grows_rest hproper.reachable turns)
  exact ⟨⟨(hproper.rest turns).congr rfl rfl, hgrows.made h.made⟩, hgrows⟩

/-! ### Clones by their names -/

/-- Whether two names stand for an outlet and for one that is got from it by cloning. -/
def IsClone (st : State) (name name' : String) : Prop :=
  ∃ o o' x x', st.member name = .ok (.outlet o) ∧ st.member name' = .ok (.outlet o') ∧
    st.session.outlets[o]? = some x ∧ st.session.outlets[o']? = some x' ∧ x.Descends x'

theorem IsClone.trans {name name' name'' : String} (h : st.IsClone name name')
    (h' : st.IsClone name' name'') : st.IsClone name name'' := by
  obtain ⟨o, o', x, x', hm, hm', hx, hx', hd⟩ := h
  obtain ⟨u, u', y, y', hn, hn', hy, hy', hd'⟩ := h'
  cases hm'.symm.trans hn
  cases hx'.symm.trans hy
  exact ⟨o, u', x, y', hm, hn', hx, hy', Relation.ReflTransGen.trans hd hd'⟩

theorem Grows.member (h : Grows st st') {name : String} {m : Member} (hm : st.member name = .ok m) :
    st'.member name = .ok m := by
  obtain ⟨names, hnames⟩ := h.members
  unfold State.member at hm ⊢
  split at hm
  · rename_i m' hl
    rw [← hnames, List.lookup_append, hl]
    exact hm
  · cases hm

theorem Grows.outlet (h : Grows st st') {o : Nat} {x : Outlet} (hx : st.session.outlets[o]? = some x) :
    st'.session.outlets[o]? = some x := by
  obtain ⟨made, ho, -⟩ := h.outlets
  obtain ⟨hlt, rfl⟩ := List.getElem?_eq_some_iff.1 hx
  rw [ho, List.getElem?_append_left hlt, List.getElem?_eq_getElem hlt]

/-- A clone stays one. -/
theorem IsClone.grows {name name' : String} (h : st.IsClone name name') (hg : Grows st st') :
    st'.IsClone name name' := by
  obtain ⟨o, o', x, x', hm, hm', hx, hx', hd⟩ := h
  exact ⟨o, o', x, x', hg.member hm, hg.member hm', hg.outlet hx, hg.outlet hx', hd⟩

theorem outlet_eq_ok {name part : String} {o : Nat} {x : Outlet}
    (h : st.outlet name part = .ok (o, x)) :
    st.member name = .ok (.outlet o) ∧ st.session.outlets[o]? = some x := by
  refine ⟨?_, Proper.outlet h⟩
  unfold outlet at h
  split at h
  · cases h
  · rename_i m hm
    split at h
    · split at h
      · cases h
        exact hm
      · cases h
    · cases h

/-- Cloning under a new name makes a clone. -/
theorem Regular.isClone_clone (h : st.Regular) {name source : String} {r : Result}
    (hname : st.members.lookup name = none) (hr : (st.perform (.clone name source)).2 = .ok r) :
    (st.perform (.clone name source)).1.IsClone source name := by
  have hg := h.grows (show (Step.clone name source).MakesHandles from trivial)
  cases hsource : st.outlet source "clone" with
  | error e => simp [perform, makeClone, hsource] at hr
  | ok found =>
    obtain ⟨o, x⟩ := found
    cases hc : x.clone with
    | error f => simp [perform, makeClone, hsource, hc] at hr
    | ok c =>
      obtain ⟨hm, hx⟩ := outlet_eq_ok hsource
      have hst : (st.perform (.clone name source)).1 = (st.addOutlet name c).1 := by
        simp only [perform, makeClone, hsource, hc]
      refine ⟨o, st.session.outlets.length, x, c, hg.member hm, ?_, hg.outlet hx, ?_, .single hc⟩
      · rw [hst]
        simp [State.addOutlet, addMember, State.member, List.lookup_append, hname, Session.addOutlet]
      · rw [hst]
        simp [State.addOutlet, addMember, Session.addOutlet]

/-- The outlets of a clone and its original are equal. -/
theorem Regular.first_of_isClone (h : st.Regular) {name name' : String}
    (hc : st.IsClone name name') : ∃ o o', st.member name = .ok (.outlet o) ∧
      st.member name' = .ok (.outlet o') ∧
      first st.session.outlets o = first st.session.outlets o' := by
  obtain ⟨o, o', x, x', hm, hm', hx, hx', hd⟩ := hc
  cases (h.made x (List.mem_of_getElem? hx)).matches.descends hd
  exact ⟨o, o', hm, hm', Session.first_eq_first hx hx'⟩

/-- A method of equal outlets. -/
theorem call?_redirect {os : List Outlet} {o o' : Nat} (h : first os o = first os o')
    (method : Method) : (method.call? (.outlet o)).map (Call.redirect (first os)) =
      (method.call? (.outlet o')).map (Call.redirect (first os)) := by
  cases method with
  | sink r => exact congrArg (fun o => some (Call.outlet o r)) h
  | writeAll data => exact congrArg (fun o => some (Call.writeAll o data)) h
  | leave failing =>
    cases failing with
    | true => rfl
    | false => exact congrArg (fun o => some (Call.outlet o .flush)) h
  | forward limit target => cases target <;> rfl
  | _ => rfl

/-- Forwarding to equal outlets. -/
theorem call?_forward_redirect {os : List Outlet} {o o' : Nat} (h : first os o = first os o')
    (limit : Int) (m : Member) :
    ((Method.forward limit (.outlet o)).call? m).map (Call.redirect (first os)) =
      ((Method.forward limit (.outlet o')).call? m).map (Call.redirect (first os)) := by
  cases m with
  | readEnd p => exact congrArg (fun o => some (Call.forward p limit o 0 .read)) h
  | _ => rfl

/-! ### Scripts that call clones -/

theorem member_congr (h : st.collapse = st'.collapse) (name : String) :
    st'.member name = st.member name :=
  show st'.collapse.member name = st.collapse.member name by rw [h]

/-- A script does the same as one that is equal when collapsed. -/
theorem perform_congr (h : st.session.Reachable) (h' : st'.session.Reachable)
    (he : st.collapse = st'.collapse) {step : Step} (hp : step.MakesHandles) :
    (st.perform step).collapse = (st'.perform step).collapse := by
  rw [← perform_collapse h hp, ← perform_collapse h' hp, he]

theorem callNamed_congr (h : st.Regular) (he : st.collapse = st'.collapse) {name name' : String}
    (hc : st.IsClone name name') (task : String) (method : Method) :
    (st.callNamed task name method).collapse = (st'.callNamed task name' method).collapse := by
  obtain ⟨o, o', hm, hm', hf⟩ := h.first_of_isClone hc
  have hm' : st'.member name' = .ok (.outlet o') := by
    rw [member_congr he, hm']
  simp only [callNamed, hm, hm']
  exact collapse_call he task rfl (call?_redirect hf method)

theorem forward_congr (h : st.Regular) (he : st.collapse = st'.collapse) {target target' : String}
    (hc : st.IsClone target target') (task name : String) (limit : Int) :
    (st.forward task name limit target).collapse =
      (st'.forward task name limit target').collapse := by
  obtain ⟨o, o', hm, hm', hf⟩ := h.first_of_isClone hc
  have hm' : st'.member target' = .ok (.outlet o') := by
    rw [member_congr he, hm']
  simp only [forward, callNamed, hm, hm', member_congr he]
  cases st.member name with
  | error e => exact congrArg (·, _) he
  | ok m => exact collapse_call he task rfl (call?_forward_redirect hf limit m)

theorem report_collapse (st : State) (result : Except Failure Result) :
    st.collapse.report result = st.report result := by
  have hn : st.collapse.namedTasks = st.namedTasks := by
    simp only [namedTasks, collapse, Session.collapse, Session.redirect, List.map_map]
    rfl
  have he : st.collapse.ending? = st.ending? := by
    funext t
    simp only [ending?, hn]
  simp only [report, hn, he]
  rfl

theorem rest_collapse (h : st.session.Reachable) (turns : Option Nat) :
    (st.rest turns).collapse = st.collapse.rest turns := by
  cases turns with
  | none =>
    exact congrArg (fun session => ({ st with session } : State))
      (Session.settle_collapse h.sound).symm
  | some n =>
    exact congrArg (fun session => ({ st with session } : State))
      (Session.run_collapse h.sound n).symm

/-- What follows a step that did the same. -/
theorem pace_congr {s s' : Step} (h : (st.perform s).1.session.Reachable)
    (h' : (st'.perform s').1.session.Reachable)
    (he : (st.perform s).collapse = (st'.perform s').collapse) (turns : Option Nat) :
    (st.pace s turns).1.collapse = (st'.pace s' turns).1.collapse ∧
      (st.pace s turns).2 = (st'.pace s' turns).2 := by
  have hst : (st.perform s).1.collapse = (st'.perform s').1.collapse :=
    show (st.perform s).collapse.1 = (st'.perform s').collapse.1 by rw [he]
  have hr : (st.perform s).2 = (st'.perform s').2 :=
    show (st.perform s).collapse.2 = (st'.perform s').collapse.2 by rw [he]
  have hrest : ((st.perform s).1.rest turns).collapse = ((st'.perform s').1.rest turns).collapse := by
    rw [rest_collapse h, hst, rest_collapse h']
  refine ⟨congrArg seen hrest, ?_⟩
  have hreport := congrArg (report · (st'.perform s').2) hrest
  simp only [report_collapse] at hreport
  simp only [pace, hr, hreport]

end State

end Script

/-- Whether everything is the same in two sessions, but which of equal outlets the tasks call. -/
structure Session.Alike (s s' : Session) : Prop where
  channels : s'.channels = s.channels
  gates : s'.gates = s.gates
  outlets : s'.outlets = s.outlets
  ready : s'.ready = s.ready
  notices : s'.notices = s.notices
  endings : s'.endings = s.endings
  stdio : s'.stdio = s.stdio
  journal : s'.journal = s.journal
  stages : s'.tasks.map Task.stage = s.tasks.map Task.stage

theorem Session.alike_of_collapse {s s' : Session} (h : s.collapse = s'.collapse) : s.Alike s' := by
  have hstages : ∀ s : Session, s.collapse.tasks.map Task.stage = s.tasks.map Task.stage := fun s => by
    simp only [collapse, redirect, List.map_map]
    rfl
  have hf : ∀ {α : Type} (f : Session → α), f s'.collapse = f s.collapse := fun f => by rw [h]
  exact ⟨hf channels, hf gates, hf outlets, hf ready, hf notices, hf endings, hf stdio, hf journal,
    (hstages s').symm.trans ((hf fun s => s.tasks.map Task.stage).trans (hstages s))⟩

namespace Script.State

/-- Whether two steps are the same but that one calls a clone, or forwards to it. -/
inductive Swaps (st : State) : Step → Step → Prop
  | same (s) : Swaps st s s
  | call {name name'} (h : st.IsClone name name') (task method) :
    Swaps st (.call task name method) (.call task name' method)
  | forward {target target'} (h : st.IsClone target target') (task name limit) :
    Swaps st (.forward task name limit target) (.forward task name limit target')

/-- Whether a script is another one with any of the outlets that are called replaced by clones. -/
inductive Swapped : State → List (Step × Option Nat) → List (Step × Option Nat) → Prop
  | nil {st} : Swapped st [] []
  | cons {st s s' turns rest rest'} (hs : st.Swaps s s')
    (h : Swapped (st.pace s turns).1 rest rest') :
    Swapped st ((s, turns) :: rest) ((s', turns) :: rest')

variable {st st' : State}

theorem Swaps.makesHandles {s s' : Step} (h : st.Swaps s s') (hp : s.MakesHandles) :
    s'.MakesHandles := by
  cases h with
  | same => exact hp
  | call hc task method => exact hp
  | forward hc task name limit => trivial

/-- A step does the same as one that calls a clone. -/
theorem Swaps.perform {s s' : Step} (h : st.Swaps s s') (hr : st.Regular) (hr' : st'.Regular)
    (he : st.collapse = st'.collapse) (hp : s.MakesHandles) :
    (st.perform s).collapse = (st'.perform s').collapse := by
  cases h with
  | same => exact perform_congr hr.proper.reachable hr'.proper.reachable he hp
  | call hc task method => exact callNamed_congr hr he hc task method
  | forward hc task name limit => exact forward_congr hr he hc task name limit

theorem Swapped.alike {steps steps' : List (Step × Option Nat)} (h : Swapped st steps steps')
    (hr : st.Regular) (hr' : st'.Regular) (he : st.collapse = st'.collapse)
    (hp : ∀ s ∈ steps, s.1.MakesHandles) :
    st'.play steps' = st.play steps ∧
      ∀ k, (st.played (steps.take k)).session.Alike (st'.played (steps'.take k)).session := by
  have halike : st.session.Alike st'.session := Session.alike_of_collapse (congrArg session he)
  induction h generalizing st' with
  | nil =>
    refine ⟨rfl, fun k => ?_⟩
    rw [List.take_nil]
    exact halike
  | @cons st s s' turns rest rest' hs h ih =>
    have hp₁ : s.MakesHandles := hp (s, turns) List.mem_cons_self
    have hp₁' := hs.makesHandles hp₁
    obtain ⟨hstate, hreport⟩ := pace_congr (hr.proper.perform hp₁.isPlain).reachable
      (hr'.proper.perform hp₁'.isPlain).reachable (hs.perform hr hr' he hp₁) turns
    obtain ⟨hplay, htake⟩ := ih (hr.pace hp₁ turns).1 (hr'.pace hp₁' turns).1 hstate
      (fun s hs => hp s (List.mem_cons_of_mem _ hs))
      (Session.alike_of_collapse (congrArg session hstate))
    refine ⟨by simp only [play, hplay, hreport], fun k => ?_⟩
    cases k with
    | zero => exact halike
    | succ k => exact htake k

/-! ### Scripts from the start -/

theorem regular_start (environment : Environment) (out err : Stream.Traits) :
    (State.start environment out err).Regular :=
  ⟨.start environment out err, fun x hx => by cases hx⟩

theorem Regular.played (h : st.Regular) {steps : List (Step × Option Nat)}
    (hp : ∀ s ∈ steps, s.1.MakesHandles) :
    (st.played steps).Regular ∧ Grows st (st.played steps) := by
  induction steps generalizing st with
  | nil => exact ⟨h, .refl st⟩
  | cons s rest ih =>
    obtain ⟨hreg, hg⟩ := h.pace (hp s List.mem_cons_self) s.2
    obtain ⟨hreg', hg'⟩ := ih hreg fun s' hs => hp s' (List.mem_cons_of_mem _ hs)
    exact ⟨hreg', hg.trans hg'⟩

theorem played_append (st : State) (steps more : List (Step × Option Nat)) :
    st.played (steps ++ more) = (st.played steps).played more := by
  induction steps generalizing st with
  | nil => rfl
  | cons s rest ih => exact ih _

/-- An outlet that is made in any of the usual ways stands before what its destination says, can be cloned,
and all that are got from it by cloning are for the same and stand before the same.  These are the outlets
of a script at any pace, what is cloned under a new name is a clone from then on, and however many calls are
made to clones in place of their originals, the script has the same reports, and the same becomes of
everything with each of its steps. -/
theorem clones_stand_in (environment : Environment) (out err : Stream.Traits)
    (steps : List (Step × Option Nat)) (hp : ∀ s ∈ steps, s.1.MakesHandles) :
    (∀ x : Outlet, x.Made → x.Matches ∧ (∃ c, x.clone = .ok c) ∧
      ∀ y, x.Descends y → y.destination = x.destination ∧ y.backing = x.backing) ∧
    (∀ x ∈ ((State.start environment out err).played steps).session.outlets, x.Made) ∧
    (∀ past name source turns rest r, steps = past ++ (.clone name source, turns) :: rest →
      ((State.start environment out err).played past).members.lookup name = none →
      (((State.start environment out err).played past).perform (.clone name source)).2 = .ok r →
      ((State.start environment out err).played steps).IsClone source name) ∧
    ∀ steps', Swapped (State.start environment out err) steps steps' →
      (State.start environment out err).play steps' = (State.start environment out err).play steps ∧
      ∀ k, ((State.start environment out err).played (steps.take k)).session.Alike
        ((State.start environment out err).played (steps'.take k)).session := by
  have hstart := regular_start environment out err
  refine ⟨fun x hx => ?_, (hstart.played hp).1.made, ?_, fun steps' hs =>
    hs.alike hstart hstart rfl hp⟩
  · have hm := hx.matches
    refine ⟨hm, ⟨x, hm.clone⟩, fun y hy => ?_⟩
    rw [hm.descends hy]
    exact ⟨rfl, rfl⟩
  · rintro past name source turns rest r rfl hname hr
    have hpast := (hstart.played fun s hs => hp s (List.mem_append_left _ hs)).1
    have hcloned := hpast.proper.perform (show (Step.clone name source).IsPlain from trivial)
    have hpace := (hpast.pace (s := .clone name source) trivial turns).1
    have hrest := (hpace.played fun s hs =>
      hp s (List.mem_append_right _ (List.mem_cons_of_mem _ hs))).2
    -- the clone is there after the step, and no later step takes it away
    rw [played_append]
    exact ((hpast.isClone_clone hname hr).grows (grows_rest hcloned.reachable turns)).grows hrest

/-- The steps of a script, with the turns that follow each. -/
def paced (steps : List (Step × Bool)) : List (Step × Option Nat) :=
  steps.map fun s => (s.1, if s.2 then some 0 else none)

/-- In a script, the session settles after each step that is not hasty. -/
theorem run_eq_play (st : State) (steps : List (Step × Bool)) : st.run steps = st.play (paced steps) := by
  induction steps generalizing st with
  | nil => rfl
  | cons s rest ih =>
    obtain ⟨s, hasty⟩ := s
    cases hasty <;> exact congrArg _ (ih _)

/-- A pipe for one byte, an outlet for it with a clone, and two tasks that are to write a byte each, the
second one through the outlet with a name. -/
def writesThrough (name : String) : List (Step × Bool) :=
  [(.pipe "p" 1, false), (.pipeOutlet "w" "p", false), (.clone "c" "w", false),
    (.call "first" "w" (.sink (.write [1])), true), (.call "second" name (.sink (.write [2])), false)]

theorem isClone_writesThrough : ((State.start [] .plain .plain).played
    ((paced (writesThrough "w")).take 4)).IsClone "w" "c" :=
  ⟨0, 1, .ofGate 0, .ofGate 0, rfl, rfl, rfl, rfl, .single rfl⟩

/-- The clone is one to the end, and the second write waits for the pipe, be it through the outlet or through
its clone. -/
theorem run_writesThrough :
    ((State.start [] .plain .plain).played (paced (writesThrough "w"))).IsClone "w" "c" ∧
      (State.start [] .plain .plain).run (writesThrough "c") =
        (State.start [] .plain .plain).run (writesThrough "w") := by
  have hp : ∀ s ∈ paced (writesThrough "w"), s.1.MakesHandles := by
    simp [paced, writesThrough, Step.MakesHandles]
  have hsame : ∀ st s turns rest rest', Swapped (State.pace st s turns).1 rest rest' →
      Swapped st ((s, turns) :: rest) ((s, turns) :: rest') := fun st s _ _ _ h => .cons (.same s) h
  obtain ⟨-, -, hclone, hswap⟩ := clones_stand_in [] .plain .plain _ hp
  refine ⟨hclone ((paced (writesThrough "w")).take 2) "c" "w" none _ _ rfl rfl rfl, ?_⟩
  rw [run_eq_play, run_eq_play]
  refine (hswap _ ?_).1
  refine hsame _ _ _ _ _ (hsame _ _ _ _ _ (hsame _ _ _ _ _ (hsame _ _ _ _ _ ?_)))
  exact .cons (.call isClone_writesThrough _ _) .nil

end Script.State

end Outflow
