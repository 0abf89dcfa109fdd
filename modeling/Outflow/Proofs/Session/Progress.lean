import Outflow.Proofs.Session.Account
import Outflow.Proofs.Session.Order

/-!
# How far calls have come

What the services of a task tell about a call that writes all of its data, or reads a pipe to the end, or
shuts a pipe down.

* `Session.Concerns`: the calls that have to do with a pipe; `Fate.concerns`: they have all along;
* `Session.Part`: the calls that take part in a delivery through one gate to one pipe;
* `Writing`, `Draining`, `Closing`: how far such a call has come;
* `Writing.fate`, `Draining.fate`, `Closing.fate`: its turn brings it further;
* `Session.Progress`: the three together; `Progress.mono`: what others do takes nothing back.
-/

namespace Outflow

/-! ### What calls name -/

namespace Call

/-- The pipe at whose read end a call asks for something. -/
def pipe? : Call → Option Nat
  | .read p _ | .readLine p | .close p | .nextLine p | .lines p _ | .forward p _ _ _ _ => some p
  | _ => none

/-- The backing that a call asks with no outlet before it. -/
def backing? : Call → Option Backing
  | .backing b _ => some b
  | _ => none

/-- A call that goes on names the same members. -/
theorem members_of_more {c c' : Call} {d : Destination} {outcome : Outcome}
    (h : c.resume d outcome = .more c') :
    c'.pipe? = c.pipe? ∧ c'.backing? = c.backing? ∧ c'.outlet? = c.outlet? := by
  unfold resume at h
  split at h
  all_goals try split at h
  all_goals cases h
  all_goals exact ⟨rfl, rfl, rfl⟩

theorem pipe?_of_operation {c : Call} {p : Nat} {r : Pipe.Request}
    (h : c.operation = .onPipe p r) : c.pipe? = some p := by
  unfold operation Operation.read at h
  grind [pipe?]

theorem backing?_of_operation {c : Call} {b : Backing} {q : Sink.Request}
    (h : c.operation = .onBacking b q) : c.backing? = some b := by
  unfold operation Operation.read at h
  grind [backing?]

theorem outlet?_of_operation {c : Call} {o : Nat} {q : Sink.Request}
    (h : c.operation = .onOutlet o q) : c.outlet? = some o := by
  unfold operation Operation.read at h
  grind [outlet?]

theorem operation_writeAll (o : Nat) {rest : Bytes} (h : rest ≠ []) :
    (Call.writeAll o rest).operation = .onOutlet o (.write rest) := by
  cases rest with
  | nil => exact absurd rfl h
  | cons byte rest => rfl

/-- A write of all bytes goes on with those that are left, if there are any. -/
theorem resume_writeAll (o : Nat) (d : Destination) {rest : Bytes} {k : Nat} (h : rest ≠ [])
    (hk : k ≠ 0) : (Call.writeAll o rest).resume d (.ok (.count k)) =
      if rest.drop k = [] then .done (.ok .nothing) else .more (.writeAll o (rest.drop k)) := by
  cases rest with
  | nil => exact absurd rfl h
  | cons byte rest =>
    cases k with
    | zero => exact absurd rfl hk
    | succ k =>
      simp only [resume, leftAfter, List.drop_succ_cons]
      cases rest.drop k <;> rfl

end Call

namespace Session

variable {s s' s₀ : Session} {t p g o : Nat} {task task' : Task} {c : Call} {b b' : Pipe}
  {data : Bytes} {vs : List Service}

/-! ### Calls that have to do with a pipe -/

/-- Whether a call has to do with a pipe: with its read end, or with a backing that leads to it. -/
def Concerns (s : Session) (c : Call) (p : Nat) : Prop :=
  c.pipe? = some p ∨ (∃ b, c.backing? = some b ∧ s.LeadsTo b p) ∨
    ∃ o x b, c.outlet? = some o ∧ s.outlets[o]? = some x ∧ x.backing = some b ∧ s.LeadsTo b p

theorem concerns_congr (ho : s'.outlets = s.outlets) (hg : s'.gatePipe? = s.gatePipe?) :
    s'.Concerns c p ↔ s.Concerns c p := by
  simp only [Concerns, LeadsTo, ho, hg]

/-- A task has to do with the pipe that it comes to. -/
theorem Pursues.concerns {held : Option Nat} {r : Pipe.Request}
    (h : s.Pursues c (.inPipe held p r)) : s.Concerns c p := by
  have haims : ∀ b q, s.Aims c b q → s.LeadsTo b p → s.Concerns c p := by
    rintro b q (hop | ⟨o, x, hop, hx, hb⟩) hleads
    · exact .inr (.inl ⟨b, Call.backing?_of_operation hop, hleads⟩)
    · exact .inr (.inr ⟨o, x, b, Call.outlet?_of_operation hop, hx, hb, hleads⟩)
  cases held with
  | some g =>
    obtain ⟨q, -, haim, hg⟩ := h
    exact haims _ q haim (.inr ⟨g, rfl, hg⟩)
  | none =>
    obtain ⟨-, ⟨q, -, haim⟩ | ⟨r₀, hop, -⟩⟩ := h
    · exact haims _ q haim (.inl rfl)
    · exact .inl (Call.pipe?_of_operation hop)

/-- Whoever waits for nothing but an answer comes to no pipe. -/
theorem Pursues.operation_ne_answered {held : Option Nat} {r : Pipe.Request}
    (h : s.Pursues c (.inPipe held p r)) (outcome : Outcome) : c.operation ≠ .answered outcome := by
  intro hop
  have haims : ∀ b q, ¬ s.Aims c b q := by
    rintro b q (hop' | ⟨o, x, hop', -⟩)
    · rw [hop] at hop'
      cases hop'
    · rw [hop] at hop'
      cases hop'
  cases held with
  | some g =>
    obtain ⟨q, -, haim, -⟩ := h
    exact haims _ q haim
  | none =>
    obtain ⟨-, ⟨q, -, haim⟩ | ⟨r₀, hop', -⟩⟩ := h
    · exact haims _ q haim
    · rw [hop] at hop'
      cases hop'

/-- After its turn a task has to do with what it had to do with before. -/
theorem Fate.concerns (h : Fate s t task task') (hc : s.Concerns task'.call p) :
    s.Concerns task.call p := by
  have hafter : ∀ (entry d : Destination) (outcome : Outcome),
      s.Concerns (Task.after { task with entry } d outcome).call p → s.Concerns task.call p := by
    intro entry d outcome hc
    rw [Task.after] at hc
    cases hr : task.call.resume d outcome with
    | done outcome' =>
      simp only [hr] at hc
      exact hc
    | more c' =>
      simp only [hr] at hc
      obtain ⟨hp, hb, ho⟩ := Call.members_of_more hr
      rw [Concerns, hp, hb, ho] at hc
      exact hc
  cases h with
  | cancelled => exact hc
  | queued => exact hc
  | waits => exact hc
  | answered => exact hafter _ _ _ hc
  | served => exact hafter _ _ _ hc

/-! ### Calls that take part -/

/-- The calls that take part: reading a pipe to the end, and writing all of some data, or shutting down,
through an outlet with the gate behind it. -/
inductive Part (s : Session) (p g : Nat) : Call → Prop
  | read : Part s p g (.read p (-1))
  | write {o : Nat} (data : Bytes) (ho : s.outlets[o]? = some (.ofGate g)) :
    Part s p g (.writeAll o data)
  | shutdown {o : Nat} (ho : s.outlets[o]? = some (.ofGate g)) : Part s p g (.outlet o .shutdown)

theorem aims_writeAll (ho : s.outlets[o]? = some (.ofGate g)) (h : data ≠ []) :
    s.Aims (.writeAll o data) (.gate g) (.write data) :=
  .inr ⟨o, .ofGate g, Call.operation_writeAll o h, ho, rfl⟩

theorem aims_shutdown (ho : s.outlets[o]? = some (.ofGate g)) :
    s.Aims (.outlet o .shutdown) (.gate g) .shutdown := .inr ⟨o, .ofGate g, rfl, ho, rfl⟩

/-- No outlet for a pipe answers by itself. -/
theorem answer?_onOutlet (ho : s.outlets[o]? = some (.ofGate g)) (q : Sink.Request) :
    s.answer? (.onOutlet o q) = none := by
  rw [answer?, ho]
  rfl

theorem Part.congr (h : s₀.Part p g c) (ho : s.outlets = s₀.outlets) : s.Part p g c := by
  cases h with
  | read => exact .read
  | write data hx => exact .write data (by rw [ho, hx])
  | shutdown hx => exact .shutdown (by rw [ho, hx])

theorem Part.fits (h : s.Part p g c) (hb : s.pipe? p = some b) : s.Fits c := by
  cases h with
  | read => exact ⟨b, hb⟩
  | write data ho => exact ⟨_, ho⟩
  | shutdown ho => exact ⟨_, ho⟩

theorem Part.isForward (h : s.Part p g c) : c.isForward = false := by
  cases h with
  | read => rfl
  | write data ho => rfl
  | shutdown ho => rfl

/-- What takes part comes to the pipe, does not close its read end, and shuts it down only when told so. -/
theorem Part.request {held : Option Nat} {p' : Nat} {r : Pipe.Request} (h : s.Part p g c)
    (hg : s.gatePipe? g = some p) (hpur : s.Pursues c (.inPipe held p' r)) :
    p' = p ∧ r ≠ .close ∧ (r = .shutdown → ∃ o, c = .outlet o .shutdown) := by
  have hleads : s.LeadsTo (.gate g) p := .inr ⟨g, rfl, hg⟩
  cases h with
  | read =>
    have hop : (Call.read p (-1)).operation = .onPipe p (.drain []) := rfl
    obtain ⟨-, rfl, hcont⟩ := hpur.of_onPipe hop
    rcases hcont with rfl | ⟨got, got', -, rfl⟩
    · simp
    · simp
  | write data ho =>
    by_cases hne : data = []
    · rw [hne] at hpur
      exact absurd rfl (hpur.operation_ne_answered (.ok .nothing))
    · obtain ⟨rfl, hl, -⟩ := hpur.of_aims (aims_writeAll ho hne)
      exact ⟨hl.unique hleads, by simp [Pipe.Request.ofSink], by simp [Pipe.Request.ofSink]⟩
  | @shutdown o ho =>
    obtain ⟨rfl, hl, -⟩ := hpur.of_aims (aims_shutdown ho)
    exact ⟨hl.unique hleads, by simp [Pipe.Request.ofSink], fun _ => ⟨o, rfl⟩⟩

/-! ### How far a call has come -/

/-- A call that writes all of some data has added the first of it, and is to write the rest; or it has
added all of it and has ended. -/
structure Writing (o : Nat) (data : Bytes) (task : Task) (vs : List Service) : Prop where
  removed : removed vs = []
  rest : ∃ rest, task.call = .writeAll o rest ∧
    ((task.isUnfinished = true ∧ accepted vs ++ rest = data) ∨
      (task.stage = .ended (.ok .nothing) ∧ accepted vs = data))

/-- A call that reads a pipe to the end has not begun, or has got what it has removed, or has ended with
it, and the output has ended. -/
structure Draining (p : Nat) (task : Task) (vs : List Service) (b : Pipe) : Prop where
  call : task.call = .read p (-1)
  accepted : accepted vs = []
  got : (task.stage = .fresh ∧ removed vs = []) ∨ task.stage = .inPipe none p (.drain (removed vs)) ∨
    (task.stage = .ended (.ok (.bytes (removed vs))) ∧ b.writeClosed = true ∧ b.buffer = [])

/-- A call that shuts a pipe down has not ended, or has shut it down. -/
structure Closing (o : Nat) (task : Task) (vs : List Service) (b : Pipe) : Prop where
  call : task.call = .outlet o .shutdown
  accepted : accepted vs = []
  removed : removed vs = []
  ended : task.isUnfinished = true ∨ (task.stage = .ended (.ok .nothing) ∧ b.writeClosed = true)

theorem Writing.fate (h : Writing o data task vs) (hf : Fate s t task task')
    (hu : task.isUnfinished = true) (hlive : task.cancelling = false)
    (ho : s.outlets[o]? = some (.ofGate g))
    (hopen : ∀ v, s.service? = some v → v.task = t → v.before.isClosing = false) :
    Writing o data task' (vs ++ servicesOf t [s]) := by
  obtain ⟨call, stage, entry₀, cancelling⟩ := task
  obtain ⟨hrem, rest, hcall, ⟨-, hacc⟩ | ⟨hend, -⟩⟩ := h
  swap
  · exact absurd hend (Task.isUnfinished_iff.1 hu _)
  cases hcall
  -- whatever it comes to the pipe for is a write of the rest, of which there is some
  have hwrite : ∀ v : Service, s.Pursues (.writeAll o rest) (.inPipe v.gate v.place v.request) →
      rest ≠ [] ∧ v.request = .write rest := by
    intro v hpur
    have hne : rest ≠ [] := by
      rintro rfl
      exact hpur.operation_ne_answered (.ok .nothing) rfl
    exact ⟨hne, (hpur.of_aims (aims_writeAll ho hne)).1⟩
  have hidle : ∀ v : Service, v.request = .write rest → v.removed = [] := by
    intro v hr
    rw [Service.removed, hr]
    rfl
  cases hf with
  | cancelled entry hc =>
    rw [hlive] at hc
    cases hc
  | answered entry d outcome hv hst hop hout hc hans =>
    rw [servicesOf_of_no_service hv, List.append_nil]
    by_cases hne : rest = []
    · subst hne
      cases hans
      rw [List.append_nil] at hacc
      exact ⟨hrem, [], rfl, .inr ⟨rfl, hacc⟩⟩
    · rw [Call.operation_writeAll o hne, answer?_onOutlet ho] at hans
      cases hans
  | queued entry hv hst haim =>
    rw [servicesOf_of_no_service hv, List.append_nil]
    exact ⟨hrem, rest, rfl, .inl ⟨rfl, hacc⟩⟩
  | @waits entry v again hv ht hpur hrep =>
    obtain ⟨-, hr⟩ := hwrite v hpur
    rw [servicesOf_singleton hv ht]
    have hnone : v.accepted = [] := by
      rw [Service.accepted, hr, Pipe.accepted_write, ← hr, hrep]
    refine ⟨?_, rest, rfl, .inl ⟨rfl, ?_⟩⟩
    · rw [removed_append, hrem, removed_singleton, hidle v hr, List.append_nil]
    · rw [accepted_append, accepted_singleton, hnone, List.append_nil, hacc]
  | @served entry d v outcome hv ht hpur hans =>
    obtain ⟨hne, hr⟩ := hwrite v hpur
    have hrep := Service.reply_of_answer hans
    rw [hr] at hrep
    obtain ⟨k, hk, rfl⟩ := Pipe.count_ne_zero_of_write (hopen v hv ht) hne hrep
    have hadd : v.accepted = rest.take k := by
      rw [Service.accepted, hr, Pipe.accepted_write, hrep]
    rw [servicesOf_singleton hv ht]
    refine ⟨by rw [removed_append, hrem, removed_singleton, hidle v hr, List.append_nil], ?_⟩
    rw [accepted_append, accepted_singleton, hadd, Task.after]
    simp only [Call.resume_writeAll o d hne hk]
    -- nothing is left, and the task ends, or it goes on with what is left
    by_cases hleft : rest.drop k = []
    · have hall : rest.take k = rest := by
        have happend := List.take_append_drop k rest
        rwa [hleft, List.append_nil] at happend
      rw [if_pos hleft, hall]
      exact ⟨rest, rfl, .inr ⟨rfl, hacc⟩⟩
    · rw [if_neg hleft]
      refine ⟨rest.drop k, rfl, .inl ⟨rfl, ?_⟩⟩
      rw [List.append_assoc, List.take_append_drop, hacc]

/-- A call that reads to the end comes to its pipe to go on with what it has removed. -/
theorem Draining.request (h : Draining p task vs b) {rest : List Job}
    (hr : s.ready = .task t :: rest) (hk : s.tasks[t]? = some task) (hlive : task.cancelling = false)
    (hu : task.isUnfinished = true) {v : Service} (hv : s.service? = some v) :
    v.place = p ∧ v.request = .drain (removed vs) := by
  rw [service?_eq hr hk hlive] at hv
  have herrand : s.errand? task = some ⟨none, p, .drain (removed vs)⟩ := by
    rw [errand?]
    rcases h.got with ⟨hst, hrem⟩ | hst | ⟨hst, -⟩
    · rw [hst, h.call, hrem]
      rfl
    · rw [hst]
    · exact absurd hst (Task.isUnfinished_iff.1 hu _)
  rw [herrand, serviceOf?, Option.bind_some] at hv
  obtain ⟨b, -, rfl⟩ := Option.map_eq_some_iff.1 hv
  exact ⟨rfl, rfl⟩

theorem Draining.fate (h : Draining p task vs b) (hf : Fate s t task task') {rest : List Job}
    (hr : s.ready = .task t :: rest) (hk : s.tasks[t]? = some task) (hlive : task.cancelling = false)
    (hu : task.isUnfinished = true)
    (hafter : ∀ v, s.service? = some v → v.place = p → v.before.readClosed = false ∧ b' = v.after) :
    Draining p task' (vs ++ servicesOf t [s]) b' := by
  have hrequest := fun v => h.request hr hk hlive hu (v := v)
  obtain ⟨hcall, hacc, -⟩ := h
  have hop : task.call.operation = .onPipe p (.drain []) := by rw [hcall]; rfl
  -- at its pipe it removes all that is there
  have hserve : ∀ v, s.service? = some v → v.accepted = [] ∧ v.removed = v.before.buffer ∧
      v.place = p ∧ v.before.readClosed = false ∧ b' = v.after ∧
        v.before.serve v.request = ⟨{ v.before with buffer := [] }, v.before.buffer.length != 0,
          if v.before.writeClosed then .done (.ok (.bytes (Outflow.removed vs ++ v.before.buffer)))
          else .wait (.drain (Outflow.removed vs ++ v.before.buffer))⟩ := by
    intro v hv
    obtain ⟨hp, hreq⟩ := hrequest v hv
    obtain ⟨hopen, hb⟩ := hafter v hv hp
    refine ⟨?_, ?_, hp, hopen, hb, ?_⟩
    · rw [Service.accepted, hreq]
      rfl
    · rw [Service.removed, hreq, Pipe.removed_drain_of_open hopen]
    · rw [hreq, Pipe.serve_drain_of_open hopen]
  cases hf with
  | cancelled entry hc =>
    rw [hlive] at hc
    cases hc
  | answered entry d outcome hv hst hne => exact absurd hop (hne p _)
  | queued entry hv hst haim => exact absurd hop (operation_of_aims haim p _)
  | @waits entry v again hv ht hpur hrep =>
    obtain ⟨hnone, hadd, rfl, -, -, hs⟩ := hserve v hv
    obtain ⟨hgate, -, -⟩ := hpur.of_onPipe hop
    rw [servicesOf_singleton hv ht]
    refine ⟨hcall, by rw [accepted_append, hacc, accepted_singleton, hnone, List.append_nil], ?_⟩
    rw [hs] at hrep
    split at hrep
    · cases hrep
    · cases hrep
      rw [removed_append, removed_singleton, hadd, hgate]
      exact .inr (.inl rfl)
  | @served entry d v outcome hv ht hpur hans =>
    obtain ⟨hnone, hadd, rfl, -, hb, hs⟩ := hserve v hv
    have hrep := Service.reply_of_answer hans
    have hsingle : ({ task with entry } : Task).call.isSingle = true := by rw [hcall]; rfl
    rw [servicesOf_singleton hv ht, Task.after_of_isSingle hsingle]
    refine ⟨hcall, by rw [accepted_append, hacc, accepted_singleton, hnone, List.append_nil], ?_⟩
    rw [hs] at hrep
    split at hrep
    · rename_i hw
      cases hrep
      rw [removed_append, removed_singleton, hadd, hb, Service.after, hs]
      exact .inr (.inr ⟨rfl, hw, rfl⟩)
    · cases hrep

theorem Closing.fate (h : Closing o task vs b) (hf : Fate s t task task')
    (hlive : task.cancelling = false) (ho : s.outlets[o]? = some (.ofGate g))
    (hafter : ∀ v, s.service? = some v → v.task = t → b' = v.after) :
    Closing o task' (vs ++ servicesOf t [s]) b' := by
  obtain ⟨hcall, hacc, hrem, -⟩ := h
  have haim : s.Aims task.call (.gate g) .shutdown := by rw [hcall]; exact aims_shutdown ho
  have hserve : ∀ v : Service, v.request = .ofSink .shutdown → v.accepted = [] ∧ v.removed = [] := by
    intro v hr
    rw [Service.accepted, Service.removed, hr]
    exact ⟨rfl, rfl⟩
  cases hf with
  | cancelled entry hc =>
    rw [hlive] at hc
    cases hc
  | answered entry d outcome hv hst hop hout hc hans =>
    rw [hcall, Call.operation, answer?_onOutlet ho] at hans
    cases hans
  | queued entry hv hst haim' =>
    rw [servicesOf_of_no_service hv, List.append_nil]
    exact ⟨hcall, hacc, hrem, .inl rfl⟩
  | @waits entry v again hv ht hpur hrep =>
    obtain ⟨hr, -⟩ := hpur.of_aims haim
    rw [hr] at hrep
    cases hrep
  | @served entry d v outcome hv ht hpur hans =>
    obtain ⟨hr, -⟩ := hpur.of_aims haim
    obtain ⟨hnone, hnone'⟩ := hserve v hr
    have hrep := Service.reply_of_answer hans
    have hsingle : ({ task with entry } : Task).call.isSingle = true := by rw [hcall]; rfl
    rw [hr] at hrep
    cases hrep
    rw [servicesOf_singleton hv ht, Task.after_of_isSingle hsingle]
    refine ⟨hcall, by rw [accepted_append, hacc, accepted_singleton, hnone, List.append_nil],
      by rw [removed_append, hrem, removed_singleton, hnone', List.append_nil], .inr ⟨rfl, ?_⟩⟩
    rw [hafter v hv ht, Service.after, hr]
    rfl

/-- How far a task has come with the call that it was made for. -/
def Progress (p : Nat) (c : Call) (task : Task) (vs : List Service) (b : Pipe) : Prop :=
  match c with
  | .writeAll o data => Writing o data task vs
  | .read _ _ => Draining p task vs b
  | .outlet o _ => Closing o task vs b
  | _ => False

/-- What others do to the pipe takes nothing back. -/
theorem Progress.mono {ws : List Service} (h : Progress p c task vs b) (hc : s.Part p g c)
    (hb : Serves b ws b') : Progress p c task vs b' := by
  cases hc with
  | write data ho => exact h
  | read =>
    obtain ⟨hcall, hacc, hfresh | hin | ⟨hend, hw, hbuf⟩⟩ := h
    · exact ⟨hcall, hacc, .inl hfresh⟩
    · exact ⟨hcall, hacc, .inr (.inl hin)⟩
    · exact ⟨hcall, hacc, .inr (.inr ⟨hend, hb.writeClosed hw, (hb.idle_of_atEof hw hbuf).2.2⟩)⟩
  | shutdown ho =>
    obtain ⟨hcall, hacc, hrem, hu | ⟨hend, hw⟩⟩ := h
    · exact ⟨hcall, hacc, hrem, .inl hu⟩
    · exact ⟨hcall, hacc, hrem, .inr ⟨hend, hb.writeClosed hw⟩⟩

/-- The call of a task that takes part stays one that does. -/
theorem Progress.part (h : Progress p c task vs b) (hc : s.Part p g c) : s.Part p g task.call := by
  cases hc with
  | write data ho =>
    obtain ⟨-, rest, hcall, -⟩ := h
    rw [hcall]
    exact .write rest ho
  | read =>
    rw [Draining.call h]
    exact .read
  | shutdown ho =>
    rw [Closing.call h]
    exact .shutdown ho

theorem Progress.shuts (h : Progress p c task vs b) (hc : s.Part p g c)
    (ho : ∃ o, task.call = .outlet o .shutdown) : ∃ o, c = .outlet o .shutdown := by
  obtain ⟨o, ho⟩ := ho
  cases hc with
  | write data =>
    obtain ⟨-, rest, hcall, -⟩ := h
    rw [hcall] at ho
    cases ho
  | read =>
    rw [Draining.call h] at ho
    cases ho
  | shutdown => exact ⟨_, rfl⟩

end Session

end Outflow
