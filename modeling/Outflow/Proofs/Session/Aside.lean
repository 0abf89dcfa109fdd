import Outflow.Proofs.Session.Focus
import Outflow.Proofs.Settling
import Outflow.Proofs.Session.Quiet

/-!
# The other tasks of a session

What a task that a lens does not show does changes nothing of what the lens shows, as long as its call has to do
with nothing that is looked at.

* `focus_complete`, `focus_serve` and so on: what is done by a task that is not shown;
* `focus_turn`: its turn is not seen;
* `Call.nullAnswer?`, `turn_of_null`: a call on an outlet for nothing is over with its first turn, in which
  nothing else happens.
-/

namespace Outflow

/-- The answer to a call on an outlet for nothing. -/
def Call.nullAnswer? : Call → Option Answer
  | .outlet _ r => some (Outlet.nullAnswer r)
  | .writeAll _ _ => some .nothing
  | _ => none

theorem Call.members_of_nullAnswer? {c : Call} {answer : Answer} (h : c.nullAnswer? = some answer) :
    c.pipe? = none ∧ c.backing? = none := by
  cases c <;> cases h <;> exact ⟨rfl, rfl⟩

namespace Session

variable {s : Session} {L : Lens} {t p g : Nat} {task : Task}

theorem focus_setStage (ht : t ∉ L.tasks) (st : Stage) : (s.setStage t st).focus L = s.focus L := by
  simp only [focus, setStage, L.tasksOf_modify_of_notMem ht]

theorem focus_finish (ht : t ∉ L.tasks) (outcome : Outcome) : (s.finish t outcome).focus L = s.focus L := by
  have hendings : (s.endings ++ [t]).filter (· ∈ L.tasks) = s.endings.filter (· ∈ L.tasks) := by
    rw [List.filter_append, List.filter_singleton]
    simp [ht]
  rw [← focus_setStage (s := s) ht (.ended outcome)]
  simp only [focus, finish, hendings]
  rfl

theorem focus_enqueue {ts : List Nat} (hts : ∀ u ∈ ts, u ∉ L.tasks) : (s.enqueue ts).focus L = s.focus L := by
  have hjobs : (ts.map Job.task).filterMap L.job = [] := by
    rw [List.filterMap_map, List.filterMap_eq_nil_iff]
    exact fun u hu => if_neg (hts u hu)
  simp only [focus, enqueue, List.filterMap_append, hjobs, List.append_nil]

theorem focus_emit (hall : L.scope.isAll = false) (n : Notice) : (s.emit n).focus L = s.focus L := by
  unfold emit post
  split
  · simp [focus, Lens.job, hall]
  · rfl

theorem focus_announce {task : Task} {outcome : Outcome}
    (h : L.scope.isAll = true → s.noticeOf? task outcome = none) : (s.announce task outcome).focus L = s.focus L := by
  unfold announce
  cases hn : s.noticeOf? task outcome with
  | none => rfl
  | some n =>
    refine focus_emit ?_ n
    by_contra hall
    rw [h (by simpa using hall)] at hn
    cases hn

theorem focus_goOn (ht : t ∉ L.tasks) (c : Call) : (s.goOn t c).focus L = s.focus L := by
  have hjob : L.job (.task t) = none := if_neg ht
  simp only [focus, goOn, L.tasksOf_modify_of_notMem ht, List.filterMap_cons, hjob]

theorem focus_complete (ht : t ∉ L.tasks) {outcome : Outcome}
    (h : L.scope.isAll = true → ∀ task, s.tasks[t]? = some task → s.noticeOf? task outcome = none) :
    (s.complete t outcome).focus L = s.focus L := by
  cases hk : s.tasks[t]? with
  | none => simp only [complete, hk]
  | some task =>
    have hannounce : (s.announce task outcome).focus L = s.focus L := focus_announce fun hall => h hall task hk
    rw [complete_eq hk]
    cases task.call.resume (s.destinationOf task.call.outlet?) outcome with
    | done outcome' => exact (focus_finish ht outcome').trans hannounce
    | more c => exact (focus_goOn ht c).trans hannounce

/-- A change of a gate that is not looked at. -/
theorem focus_modifyGate (h : ∀ p, s.gatePipe? g = some p → L.scope.pipe p = false) {f : Gate → Gate}
    (hf : ∀ x, (f x).pipe = x.pipe) :
    ({ s with gates := s.gates.modify g f } : Session).focus L = s.focus L := by
  have hmap : (s.gates.modify g f).map L.gate = s.gates.map L.gate := by
    refine map_modify_eq fun x hx => ?_
    have hp : L.scope.pipe x.pipe = false := h x.pipe (by rw [gatePipe?, hx]; rfl)
    rw [L.gate_eq_ofPipe hp, L.gate_eq_ofPipe (by rw [hf]; exact hp), hf]
  simp only [focus, hmap]

/-- A change of a pipe that is not looked at. -/
theorem focus_modifyChannel (h : L.scope.pipe p = false) (f : Channel → Channel) :
    ({ s with channels := s.channels.modify p f } : Session).focus L = s.focus L := by
  have hmap : (s.channels.modify p f).mapIdx L.channel = s.channels.mapIdx L.channel := by
    refine mapIdx_modify_eq fun c _ => ?_
    simp [Lens.channel, h]
  simp only [focus, hmap]

theorem focus_alter {a : Place} (h : Uniform L false s a) (f : List Waiter → List Waiter) :
    (s.alter f a).focus L = s.focus L := by
  cases a with
  | gate g => exact focus_modifyGate (fun _ hp => h.pipe_eq hp) fun _ => rfl
  | pipe p => exact focus_modifyChannel h.inPipe _

theorem focus_wakeGate (h : Uniform L false s (.gate g)) : (s.wakeGate g).focus L = s.focus L := by
  cases hx : s.gates[g]? with
  | none => simp only [wakeGate, hx]
  | some x =>
    have hwoken : ∀ u ∈ (Waiter.wakeFirst (s.waiters (.gate g))).2, u ∉ L.tasks :=
      fun u hu => h.hidden ((Waiter.roused_wakeFirst _).mem hu)
    rw [wakeGate_eq hx]
    exact (focus_enqueue hwoken).trans (focus_alter h _)

theorem focus_release {gate : Option Nat} (h : ∀ g, gate = some g → Uniform L false s (.gate g)) :
    (s.release gate).focus L = s.focus L := by
  cases gate with
  | none => rfl
  | some g =>
    have hg := h g rfl
    cases hx : s.gates[g]? with
    | none => simp only [release, wakeGate, modify_of_none hx, hx]
    | some x => exact (focus_wakeGate hg.freed).trans (focus_modifyGate (fun _ hp => hg.pipe_eq hp) fun _ => rfl)

theorem focus_refresh {b : Pipe} (h : Uniform L false s (.pipe p)) (hb : s.pipe? p = some b) (served : Pipe.Served) :
    (s.refresh p served).focus L = s.focus L := by
  obtain ⟨c, hc, -⟩ := Option.map_eq_some_iff.1 hb
  have hset : ∀ c', ({ s with channels := s.channels.set p c' } : Session).focus L = s.focus L := by
    intro c'
    rw [set_eq_modify hc fun _ => c']
    exact focus_modifyChannel h.inPipe _
  unfold refresh
  cases served.wakes with
  | true =>
    exact (focus_enqueue fun u hu => h.hidden ((Waiter.roused_wakeAll _).mem hu)).trans (hset _)
  | false =>
    have hnobody : ∀ u ∈ ([] : List Nat), u ∉ L.tasks := by simp
    exact (focus_enqueue hnobody).trans (hset _)

theorem focus_park (ht : t ∉ L.tasks) (h : Uniform L false s (.pipe p)) (gate : Option Nat) (r : Pipe.Request) :
    (s.park t gate p r).focus L = s.focus L :=
  (focus_setStage ht _).trans (focus_modifyChannel h.inPipe _)

theorem focus_queue (ht : t ∉ L.tasks) (h : Uniform L false s (.gate g)) (r : Pipe.Request) :
    (s.queue t g r).focus L = s.focus L :=
  (focus_setStage ht _).trans (focus_modifyGate (fun _ hp => h.pipe_eq hp) fun _ => rfl)

theorem Uniform.isAll (h : Uniform L false s (.pipe p)) : L.scope.isAll = false := by
  have hin := h.inPipe
  cases hσ : L.scope with
  | pipes chosen => rfl
  | all =>
    rw [hσ] at hin
    cases hin

theorem focus_serve (ht : t ∉ L.tasks) (hp : Uniform L false s (.pipe p)) {gate : Option Nat}
    (hg : ∀ g, gate = some g → Uniform L false s (.gate g)) {b : Pipe} (hb : s.pipe? p = some b) (r : Pipe.Request) :
    (s.serve t gate p r).focus L = s.focus L := by
  have hrefresh := focus_refresh hp hb (b.serve r)
  rw [serve_eq hb]
  cases (b.serve r).reply with
  | wait again => exact (focus_park ht (hp.refresh hb _) gate again).trans hrefresh
  | done outcome =>
    refine (focus_complete ht fun h => ?_).trans
      ((focus_release fun g he => (hg g he).refresh hb _).trans hrefresh)
    rw [hp.isAll] at h
    cases h

theorem focus_enter (ht : t ∉ L.tasks) (hg : Uniform L false s (.gate g)) (hgp : s.gatePipe? g = some p)
    (hp : Uniform L false s (.pipe p)) {b : Pipe} (hb : s.pipe? p = some b) (r : Pipe.Request) :
    (s.enter t g r).focus L = s.focus L := by
  obtain ⟨x, hx, rfl⟩ := Option.map_eq_some_iff.1 hgp
  rw [enter_eq hx]
  exact (focus_serve (s := s.take t g) ht (hp.take t g) (fun g' he => by cases he; exact hg.take t g) hb r).trans
    (focus_modifyGate (fun _ hp => hg.pipe_eq hp) fun _ => rfl)

theorem focus_approach {c : Call} (h : Attends L false s c) (ht : t ∉ L.tasks) {b : Backing} {r : Sink.Request}
    (haim : s.Aims c b r) : (s.approach t b r).focus L = s.focus L := by
  cases b with
  | stream n =>
    have hall := h.streams haim.streams
    have hstdio : ({ s with stdio := (s.stdio.perform n r).1 } : Session).focus L = s.focus L := by
      simp only [focus, hall, Bool.false_eq_true, if_false]
    refine Eq.trans (focus_complete ht fun h' => ?_) hstdio
    rw [hall] at h'
    cases h'
  | pipe p =>
    have hc := haim.concerns (.inl rfl)
    obtain ⟨b, hb⟩ := h.pipes p hc
    exact focus_serve ht (h.places p hc (.pipe p) rfl) (by simp) hb _
  | gate g =>
    obtain ⟨p, hgp⟩ := h.has _ r haim
    have hc := haim.concerns (.inr ⟨g, rfl, hgp⟩)
    obtain ⟨b, hb⟩ := h.pipes p hc
    have hg := h.places p hc (.gate g) hgp
    obtain ⟨x, hx, -⟩ := Option.map_eq_some_iff.1 hgp
    cases hopen : x.isOpen with
    | true =>
      rw [approach_of_open hx hopen]
      exact focus_enter ht hg hgp (h.places p hc (.pipe p) rfl) hb _
    | false =>
      rw [approach_of_not_open hx hopen]
      exact focus_queue ht hg _

/-- An operation that began at an outlet for nothing and does not fail gives no notice. -/
theorem noticeOf?_of_null {task : Task} (h : task.entry = .null) (a : Answer) : s.noticeOf? task (.ok a) = none := by
  unfold noticeOf?
  split
  · rename_i o r _
    rw [h]
    cases r <;> rfl
  · rfl

theorem noticeOf?_unhandled (s : Session) (task : Task) (name : Text.Codes) :
    s.noticeOf? task (.error (.unhandled name)) = none := by
  unfold noticeOf?
  split <;> rfl

theorem focus_begin {task : Task} (hkt : s.tasks[t]? = some task) (h : Attends L false s task.call) (ht : t ∉ L.tasks) :
    (s.begin t task.call.operation).focus L = s.focus L := by
  cases ho : task.call.operation with
  | answered outcome =>
    refine focus_complete ht fun _ task' hk => ?_
    rw [hkt] at hk
    cases hk
    rw [noticeOf?, ho]
  | onPipe p r =>
    have hc : s.Concerns task.call p := .inl (Call.pipe?_of_operation ho)
    obtain ⟨b, hb⟩ := h.pipes p hc
    exact focus_serve ht (h.places p hc (.pipe p) rfl) (by simp) hb r
  | onBacking b r => exact focus_approach h ht (.inl ho)
  | onOutlet o r =>
    simp only [begin]
    cases hx : s.outlets[o]? with
    | none => rfl
    | some x =>
      have hentry : (s.setEntry t x.destination).focus L = s.focus L := by
        simp only [focus, setEntry, L.tasksOf_modify_of_notMem ht]
      have hkt' : (s.setEntry t x.destination).tasks[t]? = some { task with entry := x.destination } := by
        rw [setEntry, List.getElem?_modify_eq, hkt]
        rfl
      have hanswer : ∀ outcome, (s.setEntry t x.destination).noticeOf? { task with entry := x.destination } outcome = none →
          ((s.setEntry t x.destination).complete t outcome).focus L = s.focus L := by
        intro outcome hquiet
        refine (focus_complete ht fun _ task' hk => ?_).trans hentry
        rw [hkt'] at hk
        cases hk
        exact hquiet
      have hask : ∀ b, x.backing = some b →
          ((s.setEntry t x.destination).approach t b r).focus L = s.focus L := by
        intro b hb
        have h' : Attends L false (s.setEntry t x.destination) task.call := h.congr rfl rfl rfl rfl
        exact (focus_approach h' ht (.inr ⟨o, x, ho, hx, hb⟩)).trans hentry
      obtain ⟨d, backing⟩ := x
      cases d with
      | null => exact hanswer _ (noticeOf?_of_null rfl _)
      | other name => exact hanswer _ (noticeOf?_unhandled ..)
      | _ =>
        cases backing with
        | none => exact hanswer _ (noticeOf?_unhandled ..)
        | some b => exact hask b rfl

theorem focus_abandon {c : Call} {st : Stage} (h : Attends L false s c) (hpur : s.Pursues c st) (ht : t ∉ L.tasks) :
    (s.abandon t st).focus L = s.focus L := by
  cases st with
  | fresh => exact focus_finish ht _
  | ended o => exact focus_finish ht _
  | atGate g r =>
    obtain ⟨p, b, -, -, hg, -⟩ := h.atGate hpur
    have hleave : (s.leave t (.gate g)).focus L = s.focus L := focus_alter hg _
    change ((if (s.leave t (.gate g)).gateHeld g then s.leave t (.gate g)
      else (s.leave t (.gate g)).wakeGate g).finish t _).focus L = s.focus L
    rw [focus_finish ht]
    split
    · exact hleave
    · exact (focus_wakeGate (hg.leave t _)).trans hleave
  | inPipe gate p r =>
    obtain ⟨b, -, hp, hg⟩ := h.inPipe hpur
    change (((s.leave t (.pipe p)).release gate).finish t _).focus L = s.focus L
    rw [focus_finish ht, focus_release fun g he => (hg g he).leave t (.pipe p)]
    exact focus_alter hp _

theorem focus_runTask {task : Task} (hkt : s.tasks[t]? = some task) (h : Attends L false s task.call)
    (hpur : s.Pursues task.call task.stage) (ht : t ∉ L.tasks) : (s.runTask t).focus L = s.focus L := by
  simp only [runTask, hkt]
  cases hc : task.cancelling with
  | true =>
    have habandon : (s.abandon t task.stage).focus L = s.focus L := focus_abandon h hpur ht
    cases hst : task.stage with
    | ended o => rfl
    | fresh => rw [hst] at habandon; exact habandon
    | atGate g r => rw [hst] at habandon; exact habandon
    | inPipe gate p r => rw [hst] at habandon; exact habandon
  | false =>
    cases hst : task.stage with
    | ended o => rfl
    | fresh => exact focus_begin hkt h ht
    | atGate g r =>
      rw [hst] at hpur
      obtain ⟨p, b, hgp, hb, hg, hp⟩ := h.atGate hpur
      exact focus_enter ht hg hgp hp hb r
    | inPipe gate p r =>
      rw [hst] at hpur
      obtain ⟨b, hb, hp, hg⟩ := h.inPipe hpur
      have hb' : (s.leave t (.pipe p)).pipe? p = some b := (congrFun (pipe?_alter ..) p).trans hb
      exact (focus_serve (s := s.leave t (.pipe p)) ht (hp.leave t _) (fun g he => (hg g he).leave t _) hb' r).trans
        (focus_alter hp _)

/-- The turn of a task that is not shown is not seen. -/
theorem focus_turn (h : Parted L s) (hs : Sound s none none) {rest : List Job} (hr : s.ready = .task t :: rest)
    (ht : t ∉ L.tasks) : s.turn.focus L = s.focus L := by
  obtain ⟨task, hkt, -⟩ := exists_task hs hr
  have hjob : L.job (.task t) = none := if_neg ht
  have hattends : Attends L false s task.call := by
    have h' := h.attends hs hkt
    rwa [decide_eq_false ht] at h'
  have hnow : Attends L false { s with ready := rest } task.call := hattends.congr rfl rfl rfl rfl
  have hrest : ({ s with ready := rest } : Session).focus L = s.focus L := by
    simp only [focus, hr, List.filterMap_cons, hjob]
  simp only [turn, hr]
  exact (focus_runTask (s := { s with ready := rest }) hkt hnow (hs.employed.pursues t task hkt (by simp)) ht).trans
    hrest

/-- Nor is a record, if the journal is not looked at. -/
theorem focus_turn_deliver (hall : L.scope.isAll = false) {rest : List Job} {n : Notice} {copies : Nat}
    (hr : s.ready = .deliver n copies :: rest) : s.turn.focus L = s.focus L := by
  simp [turn, hr, deliver, focus, hall, Lens.job]

/-! ### Calls on outlets for nothing -/

/-- The last operation of a call, which gives no notice. -/
theorem complete_of_done (hk : s.tasks[t]? = some task) {outcome outcome' : Outcome}
    (hquiet : s.noticeOf? task outcome = none)
    (hdone : task.call.resume (s.destinationOf task.call.outlet?) outcome = .done outcome') :
    s.complete t outcome = s.finish t outcome' := by
  rw [complete_eq hk, hdone, announce, hquiet]

theorem begin_of_null {o : Nat} {r : Sink.Request} {x : Outlet} (hk : s.tasks[t]? = some task)
    (hx : s.outlets[o]? = some x) (hd : x.destination = .null) {answer : Answer}
    (hdone : ∀ d, task.call.resume d (.ok (Outlet.nullAnswer r)) = .done (.ok answer)) :
    s.begin t (.onOutlet o r) = (s.setEntry t .null).finish t (.ok answer) := by
  have hk' : (s.setEntry t .null).tasks[t]? = some { task with entry := .null } := by
    rw [setEntry, List.getElem?_modify_eq, hk]
    rfl
  have hbegin : s.begin t (.onOutlet o r) = (s.setEntry t .null).complete t (.ok (Outlet.nullAnswer r)) := by
    simp only [begin, hx, hd]
    rfl
  rw [hbegin, complete_of_done hk' (noticeOf?_of_null rfl _) (hdone _)]

/-- A call on an outlet for nothing ends in its first turn, and nothing else happens. -/
theorem turn_of_null {rest : List Job} {o : Nat} {x : Outlet} {answer : Answer} (hr : s.ready = .task t :: rest)
    (hk : s.tasks[t]? = some task) (hst : task.stage = .fresh) (hcan : task.cancelling = false)
    (ho : task.call.outlet? = some o) (hx : s.outlets[o]? = some x) (hd : x.destination = .null)
    (ha : task.call.nullAnswer? = some answer) :
    ∃ entry, s.turn = { s with
      ready := rest
      tasks := s.tasks.modify t fun task => { task with stage := .ended (.ok answer), entry }
      endings := s.endings ++ [t] } := by
  have hturn : s.turn = { s with ready := rest }.begin t task.call.operation := by
    simp only [turn, hr, runTask, hk, hst, hcan]
  rw [hturn]
  -- an operation on the outlet sets the entry of the task first
  have hoperation : ∀ r, (∀ d, task.call.resume d (.ok (Outlet.nullAnswer r)) = .done (.ok answer)) →
      { s with ready := rest }.begin t (.onOutlet o r) = { s with
        ready := rest
        tasks := s.tasks.modify t fun task => { task with stage := .ended (.ok answer), entry := .null }
        endings := s.endings ++ [t] } := by
    intro r hdone
    have hbegin := begin_of_null (s := { s with ready := rest }) hk hx hd hdone
    rw [hbegin]
    simp only [finish, setStage, setEntry, List.modify_modify_eq]
    rfl
  cases hc : task.call with
  | outlet o' r =>
    rw [hc] at ho ha
    cases ho
    cases ha
    exact ⟨.null, hoperation r fun d => by rw [hc]; rfl⟩
  | writeAll o' data =>
    rw [hc] at ho ha
    cases ho
    cases ha
    cases data with
    | cons b data =>
      exact ⟨.null, hoperation (.write (b :: data)) fun d => by
        rw [hc]; simp [Call.resume, Call.leftAfter, Outlet.nullAnswer]⟩
    | nil =>
      -- nothing is left to be written, and the outlet is not asked
      have hquiet : ({ s with ready := rest } : Session).noticeOf? task (.ok .nothing) = none := by
        rw [noticeOf?, hc]
        rfl
      have hdone : ({ s with ready := rest } : Session).complete t (.ok .nothing)
          = ({ s with ready := rest } : Session).finish t (.ok .nothing) :=
        complete_of_done (s := { s with ready := rest }) hk hquiet (by rw [hc]; rfl)
      have hmodify : s.tasks.modify t (fun task => { task with stage := .ended (.ok .nothing) })
          = s.tasks.modify t fun task' => { task' with stage := .ended (.ok .nothing), entry := task.entry } := by
        rw [← set_eq_modify hk, ← set_eq_modify hk]
      refine ⟨task.entry, ?_⟩
      change ({ s with ready := rest } : Session).complete t (.ok .nothing) = _
      rw [hdone, ← hmodify]
      rfl
  | _ =>
    rw [hc] at ha
    cases ha

/-- Whoever calls on an outlet for nothing never waits. -/
theorem place?_of_null (h : Sound s none none) {o : Nat} {x : Outlet} {answer : Answer} (hk : s.tasks[t]? = some task)
    (ho : task.call.outlet? = some o) (hx : s.outlets[o]? = some x) (hd : x.destination = .null)
    (ha : task.call.nullAnswer? = some answer) : task.stage.place? = none := by
  by_contra hplace
  obtain ⟨a, hat⟩ := Option.ne_none_iff_exists'.1 hplace
  obtain ⟨p, -, hc⟩ := concerns_of_place h hk hat
  obtain ⟨hpipe, hbacking⟩ := Call.members_of_nullAnswer? ha
  rcases hc with hp | ⟨b, hb, -⟩ | ⟨o', x', b, ho', hx', hb, -⟩
  · rw [hpipe] at hp
    cases hp
  · rw [hbacking] at hb
    cases hb
  · rw [ho] at ho'
    cases ho'
    rw [hx] at hx'
    cases hx'
    exact (h.housed.backing x (List.mem_of_getElem? hx) b hb).2 hd

end Session

end Outflow
