import Outflow.Proofs.Loopless
import Outflow.Proofs.Session.Twins
import Mathlib.Data.List.ReduceOption

/-!
# Sides

Of a script some pipes are looked at, with all that belongs to them, or everything but the outlets for nothing.

* `Member.side`: whether a member belongs to what is looked at, or stands elsewhere, or belongs to no pipe;
* `Method.has_iff`: what is called on a member has to do with what the member belongs to;
* `Sided`: a script with the sides of what its tasks were called on;
* `Sided.about`, `Sided.reports`: what its reports say about what is looked at;
* `Sided.thinned`: its steps without those that are elsewhere;
* `Sided.Proper`: a script without forwarding, with a name and a side for each of its tasks;
* `Sided.Proper.reports_isPart`, `Sided.Proper.reports_of_all`: what is said about what is looked at is part of what
  is said; it is all of it if everything is looked at and nothing is called elsewhere.
-/

namespace Outflow

theorem filterMap_getElem?_findIdxs {α : Type} (p : α → Bool) (l : List α) :
    (l.findIdxs p).filterMap (l[·]?) = l.filter p := by
  induction l using List.reverseRecOn with
  | nil => rfl
  | append_singleton l a ih =>
    have hold : (l.findIdxs p).filterMap ((l ++ [a])[·]?) = (l.findIdxs p).filterMap (l[·]?) := by
      refine List.filterMap_congr fun i hi => ?_
      rw [List.getElem?_append_left (by simpa using List.lt_add_of_mem_findIdxs i hi)]
    rw [List.findIdxs_append, List.filterMap_append, List.filter_append, hold, ih, List.findIdxs_singleton,
      Nat.zero_add, List.filter_singleton]
    cases p a <;> simp

theorem filterMap_getElem?_range {α : Type} (l : List α) (n : Nat) : (List.range n).filterMap (l[·]?) = l.take n := by
  induction n with
  | zero => rfl
  | succ n ih =>
    rw [List.range_succ, List.filterMap_append, ih, List.take_add_one]
    cases h : l[n]? <;> simp [h]

theorem idxsOf_of_forall_eq {α : Type} [BEq α] [LawfulBEq α] {l : List α} {a : α} (h : ∀ x ∈ l, x = a) :
    l.idxsOf a = List.range l.length := by
  induction l using List.reverseRecOn with
  | nil => rfl
  | append_singleton l x ih =>
    have hx : x = a := h x List.mem_concat_self
    have hidx : l.idxsOf a = List.range l.length := ih fun y hy => h y (List.mem_append_left _ hy)
    rw [List.idxsOf_append, hidx, List.length_append, List.length_singleton, List.range_succ, hx]
    simp

namespace Session

variable {s s' : Session} {p : Nat} {b : Backing}

/-- The pipe that a backing leads to. -/
def pipeBehind? (s : Session) : Backing → Option Nat
  | .pipe p => some p
  | .gate g => s.gatePipe? g
  | .stream _ => none

theorem pipeBehind?_of_leadsTo (h : s.LeadsTo b p) : s.pipeBehind? b = some p := by
  rcases h with rfl | ⟨g, rfl, hg⟩
  · rfl
  · exact hg

/-- The pipe that is a region. -/
def Region.pipe? : Region → Option Nat
  | .pipe p => some p
  | .streams => none

end Session

namespace Script

open Session (Scope Lens Sound Twins Region)

variable {st st' : State} {σ : Scope} {s s' : Session} {m : Member} {method : Method} {c : Call}

/-! ### Sides -/

/-- The pipe that a member belongs to. -/
def Member.pipe? (s : Session) : Member → Option Nat
  | .readEnd p => some p
  | .outlet o => ((s.outlets[o]?).bind Outlet.backing).bind s.pipeBehind?
  | m => m.backing?.bind s.pipeBehind?

/-- Whether a member is an outlet for nothing. -/
def Member.isNull (s : Session) : Member → Bool
  | .outlet o => s.destinationOf (some o) == .null
  | _ => false

/-- Where a member stands. -/
inductive Side
  /-- It belongs to what is looked at. -/
  | within
  /-- It belongs to another pipe, or is for nothing. -/
  | elsewhere
  /-- It belongs to no pipe. -/
  | neither
  deriving DecidableEq

/-- Where a member stands, as some pipes are looked at, or everything. -/
def Member.side (σ : Scope) (s : Session) (m : Member) : Side :=
  if m.isNull s then .elsewhere
  else match m.pipe? s with
    | some p => if σ.pipe p then .within else .elsewhere
    | none => if σ.isAll then .within else .neither

/-- The member that a call names is the one that it is made on. -/
theorem Method.members_of_call? (hm : ∀ limit target, method ≠ .forward limit target)
    (hc : method.call? m = some c) : (∀ p, c.pipe? = some p → m = .readEnd p) ∧
      (∀ b, c.backing? = some b → m.backing? = some b) ∧ (∀ o, c.outlet? = some o → m = .outlet o) := by
  cases method with
  | forward limit target => exact absurd rfl (hm limit target)
  | leave failing => cases failing <;> cases m <;> cases hc <;> simp [Call.pipe?, Call.backing?, Call.outlet?, Member.backing?]
  | _ => cases m <;> cases hc <;> simp [Call.pipe?, Call.backing?, Call.outlet?, Member.backing?]

/-- A call has to do with what its member belongs to, and with nothing if that is an outlet for nothing. -/
theorem Method.pipe?_of_regards (hh : s.Housed) (hm : ∀ limit target, method ≠ .forward limit target)
    (hc : method.call? m = some c) {r : Region} (hr : s.Regards c r) :
    m.isNull s = false ∧ m.pipe? s = r.pipe? := by
  obtain ⟨hpipe, hbacking, houtlet⟩ := Method.members_of_call? hm hc
  -- the pipe behind what stands behind the member
  have hdirect : ∀ b, c.backing? = some b → m.isNull s = false ∧ m.pipe? s = s.pipeBehind? b := by
    intro b hb
    have hmb := hbacking b hb
    cases m <;> cases hmb <;> exact ⟨rfl, rfl⟩
  have hbehind : ∀ o x b, c.outlet? = some o → s.outlets[o]? = some x → x.backing = some b →
      m.isNull s = false ∧ m.pipe? s = s.pipeBehind? b := by
    intro o x b ho hx hb
    rw [houtlet o ho]
    refine ⟨?_, by simp [Member.pipe?, hx, hb]⟩
    have hd := (hh.backing x (List.mem_of_getElem? hx) b hb).2
    simp [Member.isNull, Session.destinationOf, hx, hd]
  cases r with
  | pipe p =>
    rcases hr with hp | ⟨b, hb, hl⟩ | ⟨o, x, b, ho, hx, hb, hl⟩
    · rw [hpipe p hp]
      exact ⟨rfl, rfl⟩
    · have hdirect' := hdirect b hb
      rwa [Session.pipeBehind?_of_leadsTo hl] at hdirect'
    · have hbehind' := hbehind o x b ho hx hb
      rwa [Session.pipeBehind?_of_leadsTo hl] at hbehind'
  | streams =>
    obtain ⟨n, hb | ⟨o, x, ho, hx, hb⟩⟩ := hr
    · exact hdirect _ hb
    · exact hbehind o x _ ho hx hb

/-- A call has to do with what is looked at if its member stands within, and only then. -/
theorem Method.has_iff (hh : s.Housed) (hm : ∀ limit target, method ≠ .forward limit target)
    (hc : method.call? m = some c) {r : Region} (hr : s.Regards c r) : σ.Has r ↔ m.side σ s = .within := by
  obtain ⟨hnull, hpipe⟩ := Method.pipe?_of_regards hh hm hc hr
  cases r with
  | pipe p =>
    simp only [Member.side, hnull, hpipe, Region.pipe?, Scope.Has, Bool.false_eq_true, if_false]
    cases σ.pipe p <;> simp
  | streams =>
    simp only [Member.side, hnull, hpipe, Region.pipe?, Scope.Has, Bool.false_eq_true, if_false]
    cases σ.isAll <;> simp

theorem Member.scope_of_within (h : m.side σ s = .within) {p : Nat} (hp : m.pipe? s = some p) : σ.pipe p = true := by
  by_contra hout
  simp only [Member.side, hp, if_neg hout] at h
  split at h <;> cases h

theorem Member.isAll_of_within (h : m.side σ s = .within) (hp : m.pipe? s = none) : σ.isAll = true := by
  by_contra hall
  simp only [Member.side, hp, if_neg hall] at h
  split at h <;> cases h

/-- When everything is looked at, every member stands within but the outlets for nothing. -/
theorem Member.side_of_isAll (h : σ.isAll = true) :
    m.side σ s = if m.isNull s then .elsewhere else .within := by
  unfold Member.side
  cases m.pipe? s with
  | none => simp [h]
  | some p => simp [Scope.pipe_of_isAll h p]

theorem Member.side_ne_neither (h : σ.isAll = true) : m.side σ s ≠ .neither := by
  rw [Member.side_of_isAll h]
  split <;> simp

/-- An outlet for nothing is not locked. -/
theorem Member.isNull_of_isLocked (hh : st.session.Housed) (h : st.isLocked m = true) : m.isNull st.session = false := by
  cases m with
  | outlet o =>
    cases hx : st.session.outlets[o]? with
    | none => simp [State.isLocked, Session.outletLocked, hx] at h
    | some x =>
      cases hb : x.backing with
      | none => simp [State.isLocked, Session.outletLocked, hx, hb] at h
      | some b =>
        have hd := (hh.backing x (List.mem_of_getElem? hx) b hb).2
        simp [Member.isNull, Session.destinationOf, hx, hd]
  | _ => rfl

/-- The same members stand on the same sides. -/
theorem Member.side_congr (ho : s'.outlets = s.outlets) (hg : s'.gatePipe? = s.gatePipe?) :
    m.side σ s' = m.side σ s := by
  have hbehind : s'.pipeBehind? = s.pipeBehind? := by
    funext b
    cases b <;> simp only [Session.pipeBehind?, hg]
  have hpipe : m.pipe? s' = m.pipe? s := by
    cases m <;> simp only [Member.pipe?, ho, hbehind]
  have hnull : m.isNull s' = m.isNull s := by
    cases m <;> simp only [Member.isNull, Session.destinationOf, ho]
  rw [Member.side, Member.side, hpipe, hnull]

/-! ### What is said about some pipes -/

/-- A script with the sides of what its tasks were called on. -/
structure Sided where
  state : State
  sides : List Side

/-- Whether all that a report says is said by another, in the same order; the results of the steps aside. -/
structure Report.IsPart (r r' : Report) : Prop where
  ended : r.ended.Sublist r'.ended
  notices : r.notices.Sublist r'.notices
  pending : r.pending.Sublist r'.pending
  pipes : r.pipes.Sublist r'.pipes
  locked : r.locked.Sublist r'.locked

namespace Sided

variable {tr tr' : Sided}

/-- Nothing has been done yet. -/
def start (environment : Environment) (out err : Stream.Traits) : Sided := ⟨.start environment out err, []⟩

/-- The tasks that were called on what is looked at. -/
def within (tr : Sided) : List Nat := tr.sides.idxsOf .within

/-- What a step does at once. -/
def perform (σ : Scope) (tr : Sided) (s : Step) : Sided where
  state := (tr.state.perform s).1
  sides := tr.sides ++ (tr.state.called? s).toList.map (Member.side σ tr.state.session)

/-- After a step the session settles, unless the step is hasty. -/
def pause (tr : Sided) (hasty : Bool) : Sided :=
  if hasty then tr else { tr with state := { tr.state with session := tr.state.session.settle } }

/-- A step. -/
def step (σ : Scope) (tr : Sided) (s : Step) (hasty : Bool) : Sided :=
  let tr := (tr.perform σ s).pause hasty
  { tr with state := tr.state.seen }

/-- Whether a step calls something that stands elsewhere, or cancels what was called there. -/
def isElsewhere (σ : Scope) (tr : Sided) : Step → Bool
  | .call _ name _ =>
    match tr.state.member name with
    | .ok m => m.side σ tr.state.session == .elsewhere
    | .error _ => false
  | .cancel task =>
    match tr.state.tasks.idxOf? task with
    | some t => tr.sides[t]? == some .elsewhere
    | none => false
  | _ => false

/-- The tasks within, by their names, with their outcomes if they have ended. -/
def named (tr : Sided) : List (String × Option Outcome) := tr.within.filterMap (tr.state.namedTasks[·]?)

/-- The part of a report that is about what is looked at. -/
def about (σ : Scope) (tr : Sided) (result : Except Failure Result) (notices : List Notice) : Report where
  result := result
  ended := ((tr.state.session.endings.drop tr.state.endingsSeen).filter (· ∈ tr.within)).filterMap tr.state.ending?
  notices := notices
  pending := (tr.named.filter fun t => t.2.isNone).map Prod.fst
  pipes := ((List.range tr.state.pipes.length).filter σ.pipe).filterMap
    ((tr.state.pipes.zip (tr.state.session.channels.map Channel.pipe))[·]?)
  locked := (tr.state.members.filter fun m =>
    tr.state.isLocked m.2 && m.2.side σ tr.state.session == .within).map Prod.fst

/-- The notices of the tasks within as the session settles. -/
def noticesWithin (tr : Sided) (hasty : Bool) : List Notice :=
  if hasty then [] else tr.state.session.noticesOf tr.within tr.state.session.budget

/-- What the report on a step says about what is looked at.  If that is everything, the result of the step is part
of it, but for steps that are elsewhere. -/
def report (σ : Scope) (tr : Sided) (s : Step) (hasty : Bool) : Report :=
  let performed := tr.perform σ s
  (performed.pause hasty).about σ
    (if σ.isAll && !tr.isElsewhere σ s then (tr.state.perform s).2 else .ok .nothing)
    (performed.noticesWithin hasty)

/-- What the reports on a list of steps say about what is looked at. -/
def reports (σ : Scope) (tr : Sided) : List (Step × Bool) → List Report
  | [] => []
  | (s, hasty) :: rest => tr.report σ s hasty :: (tr.step σ s hasty).reports σ rest

/-- What is left of a step: settling stands in place of one that is elsewhere, or nothing if it is hasty. -/
def left? (σ : Scope) (tr : Sided) (s : Step) (hasty : Bool) : Option (Step × Bool) :=
  if tr.isElsewhere σ s then if hasty then none else some (.settle, false) else some (s, hasty)

/-- What is left of the steps of a script. -/
def thinned (σ : Scope) (tr : Sided) : List (Step × Bool) → List (Option (Step × Bool))
  | [] => []
  | (s, hasty) :: rest => tr.left? σ s hasty :: (tr.step σ s hasty).thinned σ rest

/-- Only a step that is not elsewhere is left as it is. -/
theorem isElsewhere_of_left {s : Step} {hasty : Bool} (h : tr.left? σ s hasty = some (s, hasty)) :
    tr.isElsewhere σ s = false := by
  cases helsewhere : tr.isElsewhere σ s with
  | false => rfl
  | true =>
    rw [left?, helsewhere, if_pos rfl] at h
    cases hasty with
    | true => cases h
    | false =>
      cases h
      cases helsewhere

theorem loopless_thinned {steps : List (Step × Bool)} (hsteps : ∀ s ∈ steps, s.1.IsLoopless) :
    ∀ s ∈ (tr.thinned σ steps).reduceOption, s.1.IsLoopless := by
  induction steps generalizing tr with
  | nil => exact fun s hs => (by cases hs)
  | cons step rest ih =>
    obtain ⟨s, hasty⟩ := step
    have hrest : ∀ s' ∈ ((tr.step σ s hasty).thinned σ rest).reduceOption, s'.1.IsLoopless :=
      ih fun s hs => hsteps s (List.mem_cons_of_mem _ hs)
    intro s' hs'
    rw [List.reduceOption_mem_iff, thinned, List.mem_cons] at hs'
    rcases hs' with hs' | hs'
    · unfold left? at hs'
      split at hs'
      · split at hs'
        · cases hs'
        · cases hs'
          trivial
      · cases hs'
        exact hsteps _ List.mem_cons_self
    · exact hrest s' (List.reduceOption_mem_iff.2 hs')

/-- What is found at the places of the tasks within. -/
theorem filterMap_within {α : Type} {xs : List α} (hlen : xs.length = tr.sides.length) :
    tr.within.filterMap (xs[·]?) = ((xs.zip tr.sides).filter (·.2 == .within)).map Prod.fst := by
  have hidxs : tr.within = (xs.zip tr.sides).findIdxs (·.2 == .within) := by
    rw [← List.idxsOf_map, List.map_snd_zip (Nat.le_of_eq hlen.symm), within]
  rw [hidxs, ← filterMap_getElem?_findIdxs, List.map_filterMap]
  refine List.filterMap_congr fun t _ => ?_
  rw [← List.getElem?_map, List.map_fst_zip (Nat.le_of_eq hlen)]

/-- What is said after the steps in whose place something is left. -/
def kept (left : List (Option (Step × Bool))) (reports : List Report) : List Report :=
  (left.zip reports).filterMap fun e => e.1.map fun _ => e.2

theorem kept_cons_some (s : Step × Bool) (left : List (Option (Step × Bool))) (r : Report) (reports : List Report) :
    kept (some s :: left) (r :: reports) = r :: kept left reports := rfl

theorem kept_cons_none (left : List (Option (Step × Bool))) (r : Report) (reports : List Report) :
    kept (none :: left) (r :: reports) = kept left reports := rfl

/-! ### One script -/

/-- A script without forwarding, whose tasks have names and sides. -/
structure Proper (tr : Sided) : Prop where
  loopless : tr.state.Loopless
  names : tr.state.tasks.length = tr.state.session.tasks.length
  sides : tr.sides.length = tr.state.session.tasks.length

/-- Whether all endings and notices so far were reported. -/
structure Reported (tr : Sided) : Prop where
  endings : tr.state.endingsSeen = tr.state.session.endings.length
  notices : tr.state.noticesSeen = tr.state.session.notices.length

theorem Reported.step (tr : Sided) (s : Step) (hasty : Bool) : (tr.step σ s hasty).Reported := ⟨rfl, rfl⟩

namespace Proper

theorem start (environment : Environment) (out err : Stream.Traits) : (Sided.start environment out err).Proper :=
  ⟨.start environment out err, rfl, rfl⟩

theorem sound (h : tr.Proper) : Sound tr.state.session none none := h.loopless.proper.reachable.sound

/-- A step makes a task when it calls something, and ends none; nothing is noticed yet. -/
theorem counts (h : tr.Proper) {s : Step} (hs : s.IsLoopless) :
    (tr.state.perform s).1.tasks = tr.state.tasks ++ (tr.state.called? s).toList.map (fun _ => s.taskName)
      ∧ (tr.state.perform s).1.session.tasks.length
        = tr.state.session.tasks.length + (tr.state.called? s).toList.length
      ∧ (tr.state.perform s).1.endingsSeen = tr.state.endingsSeen
      ∧ (tr.state.perform s).1.session.endings = tr.state.session.endings
      ∧ (tr.state.perform s).1.noticesSeen = tr.state.noticesSeen
      ∧ (tr.state.perform s).1.session.notices = tr.state.session.notices := by
  obtain ⟨m, c, hm, -, he⟩ | ⟨hnone, t, he⟩ | ⟨hnone, he⟩ := State.Loopless.tasks_perform tr.state hs
  · rw [he, hm]
    exact ⟨rfl, List.length_append, rfl, rfl, rfl, rfl⟩
  · rw [he, hnone]
    exact ⟨(List.append_nil _).symm, Session.length_cancel h.sound t, rfl,
      (Session.Move.cancel ..).endings h.sound, rfl, (Session.Move.cancel ..).notices h.sound⟩
  · simp only [State.tally, State.Tally.mk.injEq] at he
    obtain ⟨hnames, htasks, hendings, hseen, hnotices, hseen'⟩ := he
    rw [hnone, Option.toList_none, List.map_nil, List.append_nil, htasks]
    exact ⟨hnames, rfl, hseen, hendings, hseen', hnotices⟩

theorem perform (h : tr.Proper) {s : Step} (hs : s.IsLoopless) : (tr.perform σ s).Proper := by
  obtain ⟨hnames, htasks, -⟩ := h.counts hs
  refine ⟨h.loopless.perform hs, ?_, ?_⟩
  · rw [Sided.perform, hnames, htasks, List.length_append, List.length_map, h.names]
  · rw [Sided.perform, List.length_append, List.length_map, htasks, h.sides]

theorem reported_perform (h : tr.Proper) (hr : tr.Reported) {s : Step} (hs : s.IsLoopless) :
    (tr.perform σ s).Reported := by
  obtain ⟨-, -, hseen, hendings, hseen', hnotices⟩ := h.counts hs
  exact ⟨by rw [Sided.perform, hseen, hendings, hr.endings], by rw [Sided.perform, hseen', hnotices, hr.notices]⟩

theorem pause (h : tr.Proper) (hasty : Bool) : (tr.pause hasty).Proper := by
  cases hasty with
  | true => exact h
  | false =>
    have hlen : tr.state.session.settle.tasks.length = tr.state.session.tasks.length := Session.length_run h.sound _
    exact ⟨h.loopless.settle, h.names.trans hlen.symm, h.sides.trans hlen.symm⟩

theorem step (h : tr.Proper) {s : Step} (hs : s.IsLoopless) (hasty : Bool) : (tr.step σ s hasty).Proper := by
  have hpause : ((tr.perform σ s).pause hasty).Proper := (h.perform hs).pause hasty
  exact ⟨⟨hpause.loopless.proper.congr rfl rfl, hpause.loopless.forwards⟩, hpause.names, hpause.sides⟩

/-- The tasks within are among all tasks. -/
theorem named_sublist (h : tr.Proper) : tr.named.Sublist tr.state.namedTasks := by
  have hlen : tr.state.namedTasks.length = tr.sides.length := by
    rw [State.namedTasks, List.length_zip, List.length_map, h.names, Nat.min_self, h.sides]
  have hsub : ((tr.state.namedTasks.zip tr.sides).filter (·.2 == .within)).Sublist (tr.state.namedTasks.zip tr.sides) :=
    List.filter_sublist
  have hmap := hsub.map Prod.fst
  rwa [← filterMap_within hlen, List.map_fst_zip (Nat.le_of_eq hlen)] at hmap

theorem about_isPart (h : tr.Proper) (result result' : Except Failure Result) {notices : List Notice}
    (hn : notices.Sublist (tr.state.report result').notices) :
    (tr.about σ result notices).IsPart (tr.state.report result') where
  ended := List.filter_sublist.filterMap _
  notices := hn
  pending := (h.named_sublist.filter _).map _
  pipes := by
    have hsub := (List.filter_sublist (p := σ.pipe) (l := List.range tr.state.pipes.length)).filterMap
      ((tr.state.pipes.zip (tr.state.session.channels.map Channel.pipe))[·]?)
    rw [filterMap_getElem?_range] at hsub
    exact hsub.trans (List.take_sublist _ _)
  locked := by
    refine List.Sublist.map _ (List.monotone_filter_right _ fun m hm => ?_)
    exact (Bool.and_eq_true_iff.1 hm).1

/-- What is said about what is looked at is part of what is said. -/
theorem report_isPart (h : tr.Proper) (hr : tr.Reported) {s : Step} (hs : s.IsLoopless) (hasty : Bool) :
    (tr.report σ s hasty).IsPart (tr.state.step s hasty).2 := by
  have hp : (tr.perform σ s).Proper := h.perform hs
  have hreported : (tr.perform σ s).Reported := h.reported_perform hr hs
  cases hasty with
  | true => exact hp.about_isPart _ _ (List.nil_sublist _)
  | false =>
    refine (hp.pause false).about_isPart _ (tr.state.perform s).2 ?_
    obtain ⟨ns, hns, hsub⟩ := Session.noticesOf_sublist hp.sound (tr.perform σ s).within (tr.perform σ s).state.session.budget
    rw [← Session.run_eq_iterate] at hns
    have hwhole : (((tr.perform σ s).pause false).state.report (tr.state.perform s).2).notices = ns := by
      change (tr.perform σ s).state.session.settle.notices.drop (tr.perform σ s).state.noticesSeen = ns
      rw [Session.settle, hns, hreported.notices, List.drop_left]
    rw [hwhole]
    exact hsub

/-! When everything is looked at, and nothing is called elsewhere, everything is said. -/

theorem within_of_all (hall : ∀ x ∈ tr.sides, x = .within) : tr.within = List.range tr.sides.length :=
  idxsOf_of_forall_eq hall

theorem named_of_all (h : tr.Proper) (hall : ∀ x ∈ tr.sides, x = .within) : tr.named = tr.state.namedTasks := by
  have hlen : tr.state.namedTasks.length = tr.sides.length := by
    rw [State.namedTasks, List.length_zip, List.length_map, h.names, Nat.min_self, h.sides]
  rw [named, within_of_all hall, filterMap_getElem?_range, ← hlen, List.take_length]

theorem about_of_all (h : tr.Proper) (hσ : σ.isAll = true) (hall : ∀ x ∈ tr.sides, x = .within)
    (result : Except Failure Result) : tr.about σ result (tr.state.report result).notices = tr.state.report result := by
  have hended : (fun t => if t ∈ tr.within then tr.state.ending? t else none) = tr.state.ending? := by
    funext t
    simp only [within_of_all hall, List.mem_range]
    split
    · rfl
    · rename_i hge
      have hnone : tr.state.namedTasks[t]? = none := by
        rw [List.getElem?_eq_none_iff, State.namedTasks, List.length_zip, List.length_map, h.names, ← h.sides]
        omega
      rw [State.ending?, hnone]
  have hlocked : ∀ m : String × Member, (tr.state.isLocked m.2 && m.2.side σ tr.state.session == .within)
      = tr.state.isLocked m.2 := by
    intro m
    cases hm : tr.state.isLocked m.2 with
    | false => rfl
    | true =>
      rw [Member.side_of_isAll hσ, Member.isNull_of_isLocked h.sound.housed hm]
      rfl
  have hpipes : (List.range tr.state.pipes.length).filter σ.pipe = List.range tr.state.pipes.length :=
    List.filter_eq_self.2 fun p _ => Scope.pipe_of_isAll hσ p
  have hzip : (tr.state.pipes.zip (tr.state.session.channels.map Channel.pipe)).length ≤ tr.state.pipes.length := by
    rw [List.length_zip]
    exact Nat.min_le_left _ _
  rw [about, State.report, h.named_of_all hall, hpipes, filterMap_getElem?_range, List.take_of_length_le hzip,
    List.filterMap_filter]
  simp only [decide_eq_true_eq, hended, hlocked]

/-- What is called stands within, unless it stands elsewhere. -/
theorem sides_perform_of_all (hσ : σ.isAll = true) (hall : ∀ x ∈ tr.sides, x = .within) {s : Step}
    (hhere : tr.isElsewhere σ s = false) : ∀ x ∈ (tr.perform σ s).sides, x = .within := by
  intro x hx
  rcases List.mem_append.1 hx with hx | hx
  · exact hall x hx
  obtain ⟨m, hm, rfl⟩ := List.mem_map.1 hx
  cases s with
  | call task name method =>
    simp only [State.called?, Sided.isElsewhere] at hm hhere
    cases hname : tr.state.member name with
    | error e => simp [hname] at hm
    | ok m' =>
      simp only [hname] at hm hhere
      split at hm
      · have hm' : m = m' := by simpa using hm
        subst hm'
        rw [Member.side_of_isAll hσ] at hhere ⊢
        cases hnull : m.isNull tr.state.session with
        | false => rfl
        | true => simp [hnull] at hhere
      · cases hm
  | _ => cases hm

/-- A step that is not elsewhere. -/
theorem report_of_all (h : tr.Proper) (hr : tr.Reported) (hσ : σ.isAll = true) (hall : ∀ x ∈ tr.sides, x = .within)
    {s : Step} (hs : s.IsLoopless) (hhere : tr.isElsewhere σ s = false) (hasty : Bool) :
    tr.report σ s hasty = (tr.state.step s hasty).2 := by
  have hp : (tr.perform σ s).Proper := h.perform hs
  have hreported : (tr.perform σ s).Reported := h.reported_perform hr hs
  have hall' := sides_perform_of_all hσ hall hhere
  have hnotices : (tr.perform σ s).noticesWithin hasty
      = (((tr.perform σ s).pause hasty).state.report (tr.state.perform s).2).notices := by
    cases hasty with
    | true =>
      refine (List.drop_eq_nil_of_le ?_).symm
      exact Nat.le_of_eq hreported.notices.symm
    | false =>
      have hin : ∀ t < (tr.perform σ s).state.session.tasks.length, t ∈ (tr.perform σ s).within := by
        intro t ht
        rw [within_of_all hall', List.mem_range, hp.sides]
        exact ht
      have hwhole := Session.noticesOf_all hp.sound hin (tr.perform σ s).state.session.budget
      rw [← Session.run_eq_iterate] at hwhole
      change _ = (tr.perform σ s).state.session.settle.notices.drop (tr.perform σ s).state.noticesSeen
      rw [Session.settle, hwhole, hreported.notices, List.drop_left]
      rfl
  rw [report, hσ, hhere, hnotices, Bool.not_false, Bool.and_true, if_pos rfl,
    (hp.pause hasty).about_of_all hσ (by cases hasty <;> exact hall')]
  cases hasty <;> rfl

/-- Steps of which all are left. -/
theorem reports_of_all (h : tr.Proper) (hr : tr.Reported) (hσ : σ.isAll = true) (hall : ∀ x ∈ tr.sides, x = .within)
    {steps : List (Step × Bool)} (hsteps : ∀ s ∈ steps, s.1.IsLoopless)
    (hhere : tr.thinned σ steps = steps.map some) : tr.reports σ steps = tr.state.run steps := by
  induction steps generalizing tr with
  | nil => rfl
  | cons step rest ih =>
    obtain ⟨s, hasty⟩ := step
    have hs : s.IsLoopless := hsteps _ List.mem_cons_self
    rw [thinned, List.map_cons, List.cons.injEq] at hhere
    have hnot : tr.isElsewhere σ s = false := isElsewhere_of_left hhere.1
    have hrun : tr.state.run ((s, hasty) :: rest)
        = (tr.state.step s hasty).2 :: (tr.step σ s hasty).state.run rest := by cases hasty <;> rfl
    rw [hrun, reports, h.report_of_all hr hσ hall hs hnot]
    refine congrArg _ (ih (h.step hs hasty) (.step ..) ?_ (fun s hs => hsteps s (List.mem_cons_of_mem _ hs)) hhere.2)
    cases hasty <;> exact sides_perform_of_all hσ hall hnot

theorem reports_isPart (h : tr.Proper) (hr : tr.Reported) {steps : List (Step × Bool)}
    (hsteps : ∀ s ∈ steps, s.1.IsLoopless) : List.Forall₂ Report.IsPart (tr.reports σ steps) (tr.state.run steps) := by
  induction steps generalizing tr with
  | nil => exact .nil
  | cons step rest ih =>
    obtain ⟨s, hasty⟩ := step
    have hs : s.IsLoopless := hsteps _ List.mem_cons_self
    have hstate : (tr.step σ s hasty).state = (tr.state.step s hasty).1 := by cases hasty <;> rfl
    have hrun : tr.state.run ((s, hasty) :: rest)
        = (tr.state.step s hasty).2 :: (tr.step σ s hasty).state.run rest := by rw [hstate]; rfl
    rw [hrun]
    exact .cons (h.report_isPart hr hs hasty)
      (ih (h.step hs hasty) (.step ..) fun s hs => hsteps s (List.mem_cons_of_mem _ hs))

end Proper

end Sided

end Script

end Outflow
