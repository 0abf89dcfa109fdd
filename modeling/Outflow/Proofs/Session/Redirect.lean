import Outflow.Proofs.Session.Order

/-!
# Calls redirected to other outlets

Calls know outlets by their places.  When each call is redirected from the place of its outlet to the place of
an equal one, whatever is done to the session does the same as before.

* `Call.redirect`, `Session.redirect`: calls at other places;
* `turn_redirect`, `cancel_redirect`, `run_redirect`: this makes no difference as long as the outlets at
  both places are equal;
* `Session.collapse`: every call at the first place of an outlet that is equal to its own;
* `collapse_spawn`: calls at equal outlets collapse to the same.
-/

namespace Outflow

variable {ρ : Nat → Nat}

/-- A call with its outlet at another place. -/
def Call.redirect (ρ : Nat → Nat) : Call → Call
  | .outlet o r => .outlet (ρ o) r
  | .writeAll o rest => .writeAll (ρ o) rest
  | .forward p limit o total leg => .forward p limit (ρ o) total leg
  | c => c

/-- An operation with its outlet at another place. -/
def Operation.redirect (ρ : Nat → Nat) : Operation → Operation
  | .onOutlet o r => .onOutlet (ρ o) r
  | op => op

/-- What follows an operation, with the outlet at another place. -/
def Call.Next.redirect (ρ : Nat → Nat) : Call.Next → Call.Next
  | .done outcome => .done outcome
  | .more c => .more (c.redirect ρ)

namespace Call

theorem operation_redirect (ρ : Nat → Nat) (c : Call) :
    (c.redirect ρ).operation = c.operation.redirect ρ := by
  have hread : ∀ p limit, (Operation.read p limit).redirect ρ = Operation.read p limit := by
    intro p limit
    unfold Operation.read
    split
    · rfl
    · split <;> rfl
  cases c with
  | writeAll o rest => cases rest <;> rfl
  | read p limit => exact (hread p limit).symm
  | forward p limit o total leg =>
    cases leg with
    | read => exact (hread p limit).symm
    | write | flush => rfl
  | _ => rfl

theorem outlet?_redirect (ρ : Nat → Nat) (c : Call) :
    (c.redirect ρ).outlet? = c.outlet?.map ρ := by
  cases c <;> rfl

theorem resume_redirect (ρ : Nat → Nat) (c : Call) (d : Destination) (outcome : Outcome) :
    (c.redirect ρ).resume d outcome = (c.resume d outcome).redirect ρ := by
  cases c with
  | writeAll o rest =>
    cases rest with
    | nil => rfl
    | cons b rest =>
      simp only [redirect, resume]
      cases leftAfter d (b :: rest) outcome with
      | error f => rfl
      | ok left => cases left <;> rfl
  | nextLine p =>
    cases outcome with
    | error f => rfl
    | ok a =>
      cases a with
      | bytes x => cases x <;> rfl
      | nothing | flag | count | lines => rfl
  | lines p got =>
    cases outcome with
    | error f => rfl
    | ok a =>
      cases a with
      | bytes x => cases x <;> rfl
      | nothing | flag | count | lines => rfl
  | forward p limit o total leg =>
    cases leg with
    | read =>
      cases outcome with
      | error f => rfl
      | ok a =>
        cases a with
        | bytes x => cases x <;> rfl
        | nothing | flag | count | lines => rfl
    | flush => cases outcome <;> rfl
    | write rest size =>
      simp only [redirect, resume]
      cases leftAfter d rest outcome with
      | error f => rfl
      | ok left => cases left <;> rfl
  | _ => rfl

theorem owed_redirect (ρ : Nat → Nat) (c : Call) : (c.redirect ρ).owed = c.owed := by
  cases c with
  | outlet o r => cases r <;> rfl
  | forward p limit o total leg => cases leg <;> rfl
  | _ => rfl

theorem isForward_redirect (ρ : Nat → Nat) (c : Call) : (c.redirect ρ).isForward = c.isForward := by
  cases c <;> rfl

theorem redirect_redirect (ρ σ : Nat → Nat) (c : Call) :
    (c.redirect ρ).redirect σ = c.redirect (σ ∘ ρ) := by
  cases c <;> rfl

end Call

/-- A task with the outlet of its call at another place. -/
def Task.redirect (ρ : Nat → Nat) (task : Task) : Task := { task with call := task.call.redirect ρ }

namespace Session

variable {s s' : Session} {t p g : Nat} {task : Task}

/-- A session with the outlets of its calls at other places. -/
def redirect (ρ : Nat → Nat) (s : Session) : Session := { s with tasks := s.tasks.map (.redirect ρ) }

/-- Whether a place is always sent to that of an equal outlet. -/
def Redirects (s : Session) (ρ : Nat → Nat) : Prop := ∀ o, s.outlets[ρ o]? = s.outlets[o]?

theorem task_redirect (s : Session) (t : Nat) :
    (s.redirect ρ).tasks[t]? = (s.tasks[t]?).map (.redirect ρ) := List.getElem?_map ..

theorem setStage_redirect (s : Session) (t : Nat) (st : Stage) :
    (s.redirect ρ).setStage t st = (s.setStage t st).redirect ρ := by
  simp only [setStage, redirect, map_modify (f := Task.redirect ρ)
    (m := fun task => { task with stage := st }) (k := fun task => { task with stage := st })
    fun _ _ => rfl]

theorem finish_redirect (s : Session) (t : Nat) (outcome : Outcome) :
    (s.redirect ρ).finish t outcome = (s.finish t outcome).redirect ρ := by
  simp only [finish, setStage_redirect]
  rfl

theorem post_redirect (s : Session) (n : Notice) :
    (s.redirect ρ).post n = (s.post n).redirect ρ := by
  simp only [post, apply_ite (redirect ρ)]
  rfl

theorem emit_redirect (s : Session) (n : Notice) :
    (s.redirect ρ).emit n = (s.emit n).redirect ρ :=
  post_redirect { s with notices := s.notices ++ [n] } n

theorem destinationOf_redirect (h : s.Redirects ρ) (o : Option Nat) :
    (s.redirect ρ).destinationOf (o.map ρ) = s.destinationOf o := by
  cases o with
  | none => rfl
  | some o => exact congrArg (fun x => (Option.map Outlet.destination x).getD .null) (h o)

theorem noticeOf?_redirect (h : s.Redirects ρ) (task : Task) (outcome : Outcome) :
    (s.redirect ρ).noticeOf? (task.redirect ρ) outcome = s.noticeOf? task outcome := by
  simp only [noticeOf?, Task.redirect, Call.operation_redirect]
  cases task.call.operation with
  | onOutlet o r => exact congrArg (Notice.about? _ · r outcome) (destinationOf_redirect h (some o))
  | _ => rfl

theorem announce_redirect (h : s.Redirects ρ) (task : Task) (outcome : Outcome) :
    (s.redirect ρ).announce (task.redirect ρ) outcome = (s.announce task outcome).redirect ρ := by
  rw [announce, noticeOf?_redirect h, announce]
  cases s.noticeOf? task outcome with
  | none => rfl
  | some n => exact emit_redirect s n

theorem complete_redirect (h : s.Redirects ρ) (t : Nat) (outcome : Outcome) :
    (s.redirect ρ).complete t outcome = (s.complete t outcome).redirect ρ := by
  cases hk : s.tasks[t]? with
  | none =>
    have hk' : (s.redirect ρ).tasks[t]? = none := by rw [task_redirect, hk]; rfl
    simp only [complete, hk, hk']
  | some task =>
    have hk' : (s.redirect ρ).tasks[t]? = some (task.redirect ρ) := by rw [task_redirect, hk]; rfl
    rw [complete_eq hk, complete_eq hk', announce_redirect h, Task.redirect, Call.outlet?_redirect,
      destinationOf_redirect h, Call.resume_redirect]
    cases task.call.resume (s.destinationOf task.call.outlet?) outcome with
    | done outcome' => exact finish_redirect ..
    | more c =>
      simp only [Call.Next.redirect, goOn, redirect, map_modify (f := Task.redirect ρ)
        (m := fun task => { task with call := c, stage := .fresh })
        (k := fun task => { task with call := c.redirect ρ, stage := .fresh }) fun _ _ => rfl]

theorem wakeGate_redirect (s : Session) (g : Nat) :
    (s.redirect ρ).wakeGate g = (s.wakeGate g).redirect ρ := by
  unfold wakeGate
  rw [show (s.redirect ρ).gates[g]? = s.gates[g]? from rfl]
  cases s.gates[g]? <;> rfl

theorem release_redirect (s : Session) (gate : Option Nat) :
    (s.redirect ρ).release gate = (s.release gate).redirect ρ := by
  cases gate with
  | none => rfl
  | some g =>
    exact wakeGate_redirect
      { s with gates := s.gates.modify g fun gate => { gate with holder := none } } g

theorem refresh_redirect (s : Session) (p : Nat) (served : Pipe.Served) :
    (s.redirect ρ).refresh p served = (s.refresh p served).redirect ρ := rfl

theorem park_redirect (s : Session) (t : Nat) (gate : Option Nat) (p : Nat) (r : Pipe.Request) :
    (s.redirect ρ).park t gate p r = (s.park t gate p r).redirect ρ :=
  setStage_redirect { s with channels := s.channels.modify p fun c =>
    { c with waiting := c.waiting ++ [(⟨t, .parked⟩ : Waiter)] } } t _

/-- Only the outlets matter. -/
theorem Redirects.congr (h : s.Redirects ρ) (ho : s'.outlets = s.outlets) : s'.Redirects ρ := by
  intro o
  rw [ho, h o]

theorem serve_redirect (h : s.Redirects ρ) (t : Nat) (gate : Option Nat) (p : Nat)
    (r : Pipe.Request) :
    (s.redirect ρ).serve t gate p r = (s.serve t gate p r).redirect ρ := by
  cases hb : s.pipe? p with
  | none =>
    have hc : s.channels[p]? = none := by simpa [pipe?] using hb
    have hc' : (s.redirect ρ).channels[p]? = none := hc
    simp only [serve, hc, hc']
  | some b =>
    have hb' : (s.redirect ρ).pipe? p = some b := hb
    rw [serve_eq hb, serve_eq hb', refresh_redirect]
    cases (b.serve r).reply with
    | wait again => exact park_redirect (s.refresh p (b.serve r)) ..
    | done outcome =>
      simp only [release_redirect]
      exact complete_redirect (s := (s.refresh p (b.serve r)).release gate)
        (h.congr (outlets_release ..)) ..

theorem enter_redirect (h : s.Redirects ρ) (t g : Nat) (r : Pipe.Request) :
    (s.redirect ρ).enter t g r = (s.enter t g r).redirect ρ := by
  cases hg : s.gates[g]? with
  | none =>
    have hg' : (s.redirect ρ).gates[g]? = none := hg
    simp only [enter, hg, hg']
  | some gate =>
    have hg' : (s.redirect ρ).gates[g]? = some gate := hg
    rw [enter_eq hg, enter_eq hg']
    exact serve_redirect (s := s.take t g) (h.congr rfl) ..

theorem approach_redirect (h : s.Redirects ρ) (t : Nat) (b : Backing) (q : Sink.Request) :
    (s.redirect ρ).approach t b q = (s.approach t b q).redirect ρ := by
  cases b with
  | stream n =>
    exact complete_redirect (s := { s with stdio := (s.stdio.perform n q).1 }) (h.congr rfl) ..
  | pipe p => exact serve_redirect h ..
  | gate g =>
    cases hg : s.gates[g]? with
    | none =>
      have hg' : (s.redirect ρ).gates[g]? = none := hg
      simp only [approach, hg, hg']
    | some gate =>
      have hg' : (s.redirect ρ).gates[g]? = some gate := hg
      simp only [approach, hg, hg']
      rw [enter_redirect h, apply_ite (redirect ρ)]
      congr 1
      let queued : Gate := { gate with queue := gate.queue ++ [⟨t, .parked⟩] }
      exact setStage_redirect { s with gates := s.gates.set g queued } t _

theorem begin_redirect (h : s.Redirects ρ) (t : Nat) (op : Operation) :
    (s.redirect ρ).begin t (op.redirect ρ) = (s.begin t op).redirect ρ := by
  cases op with
  | answered outcome => exact complete_redirect h ..
  | onPipe p r => exact serve_redirect h ..
  | onBacking b q => exact approach_redirect h ..
  | onOutlet o q =>
    have ho : (s.redirect ρ).outlets[ρ o]? = s.outlets[o]? := h o
    simp only [Operation.redirect, begin, ho]
    cases s.outlets[o]? with
    | none => rfl
    | some x =>
      have hset : (s.redirect ρ).setEntry t x.destination = (s.setEntry t x.destination).redirect ρ := by
        simp only [setEntry, redirect, map_modify (f := Task.redirect ρ)
          (m := fun task => { task with entry := x.destination })
          (k := fun task => { task with entry := x.destination }) fun _ _ => rfl]
      have h' : (s.setEntry t x.destination).Redirects ρ := h.congr rfl
      have hcomplete : ∀ outcome, ((s.redirect ρ).setEntry t x.destination).complete t outcome =
          ((s.setEntry t x.destination).complete t outcome).redirect ρ := fun outcome => by
        rw [hset, complete_redirect h']
      have happroach : ∀ b, ((s.redirect ρ).setEntry t x.destination).approach t b q =
          ((s.setEntry t x.destination).approach t b q).redirect ρ := fun b => by
        rw [hset, approach_redirect h']
      obtain ⟨d, backing⟩ := x
      cases d <;> cases backing <;> first | exact hcomplete _ | exact happroach _

theorem abandon_redirect (s : Session) (t : Nat) (st : Stage) :
    (s.redirect ρ).abandon t st = (s.abandon t st).redirect ρ := by
  cases st with
  | atGate g r =>
    have hleft : (if ((s.leave t (.gate g)).redirect ρ).gateHeld g then (s.leave t (.gate g)).redirect ρ
        else ((s.leave t (.gate g)).redirect ρ).wakeGate g) =
        (if (s.leave t (.gate g)).gateHeld g then s.leave t (.gate g)
          else (s.leave t (.gate g)).wakeGate g).redirect ρ := by
      rw [wakeGate_redirect, apply_ite (redirect ρ)]
      rfl
    exact (congrArg (finish · t _) hleft).trans (finish_redirect ..)
  | inPipe gate p r =>
    exact (congrArg (finish · t _) (release_redirect (s.leave t (.pipe p)) gate)).trans
      (finish_redirect ..)
  | fresh => exact finish_redirect ..
  | ended o => exact finish_redirect ..

theorem runTask_redirect (h : s.Redirects ρ) (t : Nat) :
    (s.redirect ρ).runTask t = (s.runTask t).redirect ρ := by
  unfold runTask
  rw [task_redirect]
  cases s.tasks[t]? with
  | none => rfl
  | some task =>
    simp only [Option.map_some, Task.redirect, Call.operation_redirect]
    cases task.cancelling with
    | true =>
      cases task.stage with
      | ended o => rfl
      | fresh => exact abandon_redirect ..
      | atGate g r => exact abandon_redirect ..
      | inPipe gate p r => exact abandon_redirect ..
    | false =>
      cases task.stage with
      | ended o => rfl
      | fresh => exact begin_redirect h ..
      | atGate g r => exact enter_redirect h ..
      | inPipe gate p r => exact serve_redirect (s := s.leave t (.pipe p)) (h.congr rfl) ..

theorem turn_redirect (h : s.Redirects ρ) : (s.redirect ρ).turn = s.turn.redirect ρ := by
  unfold turn
  rw [show (s.redirect ρ).ready = s.ready from rfl]
  cases s.ready with
  | nil => rfl
  | cons job rest =>
    cases job with
    | task t => exact runTask_redirect (s := { s with ready := rest }) (h.congr rfl) t
    | deliver n copies => rfl

theorem ask_redirect (s : Session) (t : Nat) : (s.redirect ρ).ask t = (s.ask t).redirect ρ := by
  simp only [ask, redirect, map_modify (f := Task.redirect ρ)
    (m := fun task => { task with cancelling := true })
    (k := fun task => { task with cancelling := true }) fun _ _ => rfl]

theorem evict_redirect (s : Session) (t : Nat) (a : Place) :
    (s.redirect ρ).evict t a = (s.evict t a).redirect ρ := by cases a <;> rfl

theorem cancel_redirect (s : Session) (t : Nat) :
    (s.redirect ρ).cancel t = ((s.cancel t).1.redirect ρ, (s.cancel t).2) := by
  cases hk : s.tasks[t]? with
  | none =>
    have hk' : (s.redirect ρ).tasks[t]? = none := by rw [task_redirect, hk]; rfl
    simp only [cancel, hk, hk']
  | some task =>
    have hk' : (s.redirect ρ).tasks[t]? = some (task.redirect ρ) := by rw [task_redirect, hk]; rfl
    have hw : ∀ a, (s.redirect ρ).waiters a = s.waiters a := fun a => by cases a <;> rfl
    rw [cancel_eq hk, cancel_eq hk', ask_redirect, show (task.redirect ρ).stage = task.stage from rfl]
    cases task.stage.place? with
    | none =>
      simp only [show (task.redirect ρ).isUnfinished = task.isUnfinished from rfl]
      split <;> rfl
    | some a =>
      simp only [hw, evict_redirect]
      split <;> rfl

/-! ### Runs -/

theorem budget_redirect (s : Session) : (s.redirect ρ).budget = s.budget := by
  have hu : (s.redirect ρ).unfinished = s.unfinished.map (.redirect ρ) := by
    simp only [unfinished, redirect, List.filter_map]
    rfl
  have ho : (s.redirect ρ).owed = s.owed := by
    simp only [owed, hu, List.map_map]
    congr 2
    funext task
    exact Call.owed_redirect ρ task.call
  have hf : (s.redirect ρ).forwards = s.forwards := by
    simp only [forwards, hu, List.filter_map, List.length_map]
    congr 2
    funext task
    exact Call.isForward_redirect ρ task.call
  simp only [budget, potential, ho, hf, hu, List.length_map]
  rfl

theorem run_redirect (hs : Sound s none none) (h : s.Redirects ρ) (n : Nat) :
    (s.redirect ρ).run n = (s.run n).redirect ρ := by
  induction n generalizing s with
  | zero => rfl
  | succ n ih =>
    simp only [run]
    rw [turn_redirect h, ih hs.turn (h.congr (outlets_turn hs)), apply_ite (redirect ρ)]
    rfl

/-! ### Collapsing -/

theorem redirect_redirect (ρ σ : Nat → Nat) (s : Session) :
    (s.redirect ρ).redirect σ = s.redirect (σ ∘ ρ) := by
  simp only [redirect, List.map_map]
  congr 2
  funext task
  exact congrArg (fun c => { task with call := c }) (Call.redirect_redirect ρ σ task.call)

/-- The first place of an outlet that is equal to the one at a place. -/
def first (os : List Outlet) (o : Nat) : Nat :=
  match os[o]? with
  | some x => os.idxOf x
  | none => o

theorem getElem?_first (os : List Outlet) (o : Nat) : os[first os o]? = os[o]? := by
  unfold first
  split
  · rename_i x hx
    rw [hx, List.getElem?_eq_some_iff]
    have hlt := List.idxOf_lt_length_of_mem (List.mem_of_getElem? hx)
    exact ⟨hlt, List.getElem_idxOf hlt⟩
  · rfl

theorem first_eq_first {os : List Outlet} {o o' : Nat} {x : Outlet} (h : os[o]? = some x)
    (h' : os[o']? = some x) : first os o = first os o' := by
  simp only [first, h, h']

/-- More outlets at the end make no other the first. -/
theorem first_first {os os' : List Outlet} (h : os <+: os') (o : Nat) :
    first os' (first os o) = first os' o := by
  cases hx : os[o]? with
  | none => simp only [first, hx]
  | some x =>
    have hat : ∀ {u : Nat}, os[u]? = some x → os'[u]? = some x := fun hu => by
      obtain ⟨hlt, rfl⟩ := List.getElem?_eq_some_iff.1 hu
      exact List.prefix_iff_getElem?.1 h _ hlt
    exact first_eq_first (hat ((getElem?_first os o).trans hx)) (hat hx)

/-- A session in which the outlet of each call is at the first place of its equals. -/
def collapse (s : Session) : Session := s.redirect (first s.outlets)

theorem redirects_first (s : Session) : s.Redirects (first s.outlets) := getElem?_first s.outlets

theorem collapse_redirect {os : List Outlet} (h : os <+: s.outlets) :
    (s.redirect (first os)).collapse = s.collapse := by
  rw [collapse, redirect_redirect]
  exact congrArg (redirect · s) (funext (first_first h))

@[simp] theorem collapse_collapse (s : Session) : s.collapse.collapse = s.collapse :=
  collapse_redirect List.prefix_rfl

/-! ### What is done to a collapsed session -/

theorem outlets_run (hs : Sound s none none) (n : Nat) : (s.run n).outlets = s.outlets := by
  induction n generalizing s with
  | zero => rfl
  | succ n ih =>
    rw [run]
    split
    · rfl
    · rw [ih hs.turn, outlets_turn hs]

theorem cancel_collapse (hs : Sound s none none) (t : Nat) :
    s.collapse.cancel t = ((s.cancel t).1.collapse, (s.cancel t).2) := by
  rw [collapse, cancel_redirect, collapse, (fields_cancel hs t).2.2.1]

theorem post_collapse (s : Session) (n : Notice) : s.collapse.post n = (s.post n).collapse := by
  rw [collapse, post_redirect, collapse, (fields_post s n).2.2.1]

theorem run_collapse (hs : Sound s none none) (n : Nat) : s.collapse.run n = (s.run n).collapse := by
  rw [collapse, run_redirect hs s.redirects_first, collapse, outlets_run hs]

theorem settle_collapse (hs : Sound s none none) : s.collapse.settle = s.settle.collapse := by
  rw [settle, collapse, budget_redirect]
  exact run_collapse hs s.budget

theorem spawn_redirect (s : Session) (c : Call) :
    ((s.redirect ρ).spawn (c.redirect ρ)).1 = (s.spawn c).1.redirect ρ := by
  simp [spawn, redirect, Task.redirect, Task.ofCall]

/-- Calls at equal outlets collapse to the same. -/
theorem collapse_spawn {c c' : Call} (hs : s.collapse = s'.collapse)
    (hc : c.redirect (first s.outlets) = c'.redirect (first s.outlets)) :
    (s.spawn c).1.collapse = (s'.spawn c').1.collapse := by
  have ho : s.outlets = s'.outlets :=
    show s.collapse.outlets = s'.collapse.outlets by rw [hs]
  have hspawn : ∀ (s : Session) c,
      (s.spawn c).1.collapse = (s.collapse.spawn (c.redirect (first s.outlets))).1 :=
    fun s c => (spawn_redirect s c).symm
  rw [hspawn, hspawn, hs, hc, ho]

theorem collapse_addOutlet (s : Session) (x : Outlet) :
    (s.collapse.addOutlet x).1.collapse = (s.addOutlet x).1.collapse :=
  collapse_redirect (s := (s.addOutlet x).1) (List.prefix_append ..)

end Session

end Outflow
