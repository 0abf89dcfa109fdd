import Outflow.Proofs.Session.History

/-!
# What calls of one operation have done

A call of one operation ends with the outcome of its operation.  Its services are those of that
operation: none of them but the last is answered, and the last only if the task has ended with this
answer.

* `Call.isSingle`: the calls of one operation;
* `Session.servicesOf`: the services of a task on a run;
* `Session.Account`: what these say about the task;
* `Account.turn`, `Account.move`, `Run.account`: they say it at all times.
-/

namespace Outflow

/-- Whether a call ends with the outcome of its only operation. -/
def Call.isSingle : Call → Bool
  | .idle _ | .backing _ _ | .outlet _ _ | .read _ _ | .readLine _ | .close _ => true
  | _ => false

theorem Call.resume_of_isSingle {c : Call} (h : c.isSingle = true) (d : Destination)
    (outcome : Outcome) : c.resume d outcome = .done outcome := by
  cases c with
  | idle | backing | outlet | read | readLine | close => rfl
  | writeAll | nextLine | lines | forward => cases h

/-- A call that goes on is none of one operation. -/
theorem Call.isSingle_of_more {c c' : Call} {d : Destination} {outcome : Outcome}
    (h : c.resume d outcome = .more c') : c'.isSingle = false := by
  unfold Call.resume at h
  split at h
  all_goals try split at h
  all_goals cases h
  all_goals rfl

theorem Task.after_of_isSingle {task : Task} (h : task.call.isSingle = true) (d : Destination)
    (outcome : Outcome) : task.after d outcome = { task with stage := .ended outcome } := by
  rw [Task.after, Call.resume_of_isSingle h]

/-- A task whose call is of one operation had that call before. -/
theorem Task.call_of_after {task : Task} {d : Destination} {outcome : Outcome}
    (h : (task.after d outcome).call.isSingle = true) : (task.after d outcome).call = task.call := by
  unfold Task.after at h ⊢
  cases hr : task.call.resume d outcome with
  | done outcome' => rfl
  | more c' =>
    rw [hr] at h
    rw [Call.isSingle_of_more hr] at h
    cases h

namespace Session

variable {s s' s₀ : Session} {past : List Session} {t p : Nat} {task : Task}

/-- The services of a task on a run, in order. -/
def servicesOf (t : Nat) (past : List Session) : List Service :=
  (services past).filter fun v => v.task == t

theorem servicesOf_append (t : Nat) (past past' : List Session) :
    servicesOf t (past ++ past') = servicesOf t past ++ servicesOf t past' := by
  rw [servicesOf, services_append, List.filter_append, servicesOf, servicesOf]

theorem servicesOf_singleton {v : Service} (hv : s.service? = some v) (ht : v.task = t) :
    servicesOf t [s] = [v] := by simp [servicesOf, services, hv, ht]

theorem servicesOf_eq_nil (hv : ∀ v, s.service? = some v → v.task ≠ t) :
    servicesOf t [s] = [] := by
  cases h : s.service? with
  | none => simp [servicesOf, services, h]
  | some v => simp [servicesOf, services, h, hv v h]

theorem servicesOf_of_no_service (hv : s.service? = none) (t : Nat) : servicesOf t [s] = [] :=
  servicesOf_eq_nil (by simp [hv])

/-- What the services of a task with a call of one operation say. -/
structure Account (s : Session) (task : Task) (vs : List Service) : Prop where
  /-- All services are those of the operation. -/
  pursues : ∀ v ∈ vs, s.Pursues task.call (.inPipe v.gate v.place v.request)
  /-- Until the task ends no service is answered. -/
  waiting : task.isUnfinished = true → ∀ v ∈ vs, v.answer? = none
  /-- The task ended with the answer of its last service, or it was cancelled, or no pipe answered. -/
  ended : ∀ o, task.stage = .ended o →
    (∃ us v, vs = us ++ [v] ∧ (∀ w ∈ us, w.answer? = none) ∧ v.answer? = some o) ∨
      ((∀ v ∈ vs, v.answer? = none) ∧ (o = .error .cancelled ∨
        (∀ p r, task.call.operation ≠ .onPipe p r) ∧
          ∀ b q, s.Aims task.call b q → (∃ n, b = .stream n) ∨ ∃ f, o = .error f))

/-- The backing that a call in a session asks is the one that it asks ever after. -/
theorem Extends.aims_iff (h : Extends s s') {c : Call} (hc : s.Fits c) {b : Backing}
    {q : Sink.Request} : s'.Aims c b q ↔ s.Aims c b q := by
  refine ⟨fun ha => ?_, h.aims⟩
  rcases ha with ha | ⟨o, x, ha, hx, hb⟩
  · exact .inl ha
  · obtain ⟨x₀, hx₀⟩ := hc.onOutlet ha
    obtain ⟨x', hx', hb'⟩ := h.outlet o x₀ hx₀
    rw [hx] at hx'
    cases hx'
    exact .inr ⟨o, x₀, ha, hx₀, hb'.symm.trans hb⟩

/-- An account stays right. -/
theorem Account.mono {vs : List Service} {task' : Task} (h : Account s task vs) (he : Extends s s')
    (hfits : s.Fits task.call) (hc : task'.call = task.call) (hst : task'.stage = task.stage) :
    Account s' task' vs := by
  have hu : task'.isUnfinished = task.isUnfinished := by
    rw [Task.isUnfinished, Task.outcome?, hst, Task.isUnfinished, Task.outcome?]
  constructor
  case pursues =>
    rw [hc]
    exact fun v hv => he.pursues (h.pursues v hv)
  case waiting =>
    rw [hu]
    exact h.waiting
  case ended =>
    rw [hc, hst]
    intro o ho
    rcases h.ended o ho with hans | ⟨hnone, hcan | ⟨hop, hout⟩⟩
    · exact .inl hans
    · exact .inr ⟨hnone, .inl hcan⟩
    · exact .inr ⟨hnone, .inr ⟨hop, fun b q ha => hout b q ((he.aims_iff hfits).1 ha)⟩⟩

theorem Fate.call {task' : Task} (h : Fate s t task task') (hc : task'.call.isSingle = true) :
    task'.call = task.call := by
  cases h with
  | cancelled => rfl
  | queued => rfl
  | waits => rfl
  | answered => rw [Task.call_of_after hc]
  | served => rw [Task.call_of_after hc]

/-- The turn of a task adds its service to the account. -/
theorem Account.fate {vs : List Service} {task' : Task} (h : Account s task vs)
    (hunf : task.isUnfinished = true) (hf : Fate s t task task') (he : Extends s s')
    (hfits : s.Fits task.call) (hc : task.call.isSingle = true) :
    Account s' task' (vs ++ servicesOf t [s]) := by
  have hpur : ∀ v ∈ vs, s'.Pursues task.call (.inPipe v.gate v.place v.request) :=
    fun v hv => he.pursues (h.pursues v hv)
  have hnone := h.waiting hunf
  have hidle : s.service? = none → vs ++ servicesOf t [s] = vs := by
    intro hv
    rw [servicesOf_of_no_service hv, List.append_nil]
  have haim : ∀ b q, s'.Aims task.call b q → s.Aims task.call b q :=
    fun b q => (he.aims_iff hfits).1
  -- only the last two fates are those of a service
  cases hf with
  | cancelled entry hcan hv =>
    rw [hidle hv]
    refine ⟨hpur, fun _ => hnone, fun o ho => .inr ⟨hnone, .inl ?_⟩⟩
    cases ho
    rfl
  | answered entry d outcome hv hst hop hout =>
    have hafter := Task.after_of_isSingle (show ({ task with entry } : Task).call.isSingle = true from hc)
    rw [hidle hv, hafter]
    refine ⟨hpur, fun _ => hnone, fun o ho => .inr ⟨hnone, .inr ⟨hop, fun b q ha => ?_⟩⟩⟩
    cases ho
    exact hout b q (haim b q ha)
  | queued entry hv hst ha =>
    rw [hidle hv]
    exact ⟨hpur, fun _ => hnone, fun o ho => by cases ho⟩
  | @waits entry v again hv ht hpv hrep =>
    rw [servicesOf_singleton hv ht]
    have hans : v.answer? = none := by rw [Service.answer?, hrep]
    refine ⟨fun w hw => ?_, fun _ w hw => ?_, fun o ho => by cases ho⟩
    · rcases List.mem_append.1 hw with hw | hw
      · exact hpur w hw
      · rw [List.mem_singleton.1 hw]
        exact he.pursues hpv
    · rcases List.mem_append.1 hw with hw | hw
      · exact hnone w hw
      · rw [List.mem_singleton.1 hw, hans]
  | @served entry d v outcome hv ht hpv hans =>
    have hafter := Task.after_of_isSingle (show ({ task with entry } : Task).call.isSingle = true from hc)
    rw [servicesOf_singleton hv ht, hafter]
    refine ⟨fun w hw => ?_, fun hu => ?_, fun o ho => ?_⟩
    · rcases List.mem_append.1 hw with hw | hw
      · exact hpur w hw
      · rw [List.mem_singleton.1 hw]
        exact he.pursues hpv
    · simp [Task.isUnfinished, Task.outcome?] at hu
    · cases ho
      exact .inl ⟨vs, v, rfl, hnone, hans⟩

/-- A task that is not there after a turn was not there before, and had no service. -/
theorem servicesOf_of_none (h : Sound s none none) (hn : s.turn.tasks[t]? = none) :
    s.tasks[t]? = none ∧ servicesOf t [s] = [] := by
  have hnone : s.tasks[t]? = none := by
    cases hk : s.tasks[t]? with
    | none => rfl
    | some task =>
      rcases task_turn h hk with ⟨rest, task', -, hk', -⟩ | ⟨hk', -⟩ <;> rw [hn] at hk' <;> cases hk'
  refine ⟨hnone, servicesOf_eq_nil fun v hv => ?_⟩
  rintro rfl
  obtain ⟨rest, task, -, hk, -⟩ := service?_eq_some hv
  rw [hnone] at hk
  cases hk

/-- On a run a task that is not there at its end had no service. -/
theorem Run.servicesOf_of_none (h : Run s₀ past s) (hs : Sound s₀ none none)
    (hn : s.tasks[t]? = none) : servicesOf t past = [] := by
  induction h with
  | refl => rfl
  | turn h ih =>
    obtain ⟨hn', hidle⟩ := Session.servicesOf_of_none (hs.run h) hn
    rw [servicesOf_append, ih hn', hidle, List.nil_append]
  | move h hm ih =>
    rw [List.getElem?_eq_none_iff] at hn
    exact ih (List.getElem?_eq_none (Nat.le_trans (hm.length_le (hs.run h)) hn))

/-- A turn keeps the accounts right. -/
theorem Account.turn {vs : List Service} (h : Sound s none none)
    (ha : ∀ task, s.tasks[t]? = some task → task.call.isSingle = true → Account s task vs)
    {task' : Task} (hk' : s.turn.tasks[t]? = some task') (hc : task'.call.isSingle = true) :
    Account s.turn task' (vs ++ servicesOf t [s]) := by
  have he := extends_turn h
  obtain ⟨task, hk⟩ := task_before_turn h hk'
  have hfits := h.employed.fits t task hk
  rcases task_turn h hk with ⟨rest, task'', hr, hk'', hf⟩ | ⟨hk'', hne⟩
  · rw [hk'] at hk''
    cases hk''
    rw [hf.call hc] at hc
    exact (ha task hk hc).fate (isUnfinished_of_ready h hr hk) hf he hfits hc
  · rw [hk'] at hk''
    cases hk''
    rw [servicesOf_eq_nil hne, List.append_nil]
    exact (ha _ hk hc).mono he hfits rfl rfl

/-- A move keeps the accounts right, and a new task has none to give. -/
theorem Account.move {vs : List Service} (h : Sound s none none) (hm : Move s s')
    (hn : s.tasks[t]? = none → vs = [])
    (ha : ∀ task, s.tasks[t]? = some task → task.call.isSingle = true → Account s task vs)
    {task' : Task} (hk' : s'.tasks[t]? = some task') (hc : task'.call.isSingle = true) :
    Account s' task' vs := by
  rcases hm.task h hk' with ⟨task, hk, hcall, hst, -⟩ | ⟨hnone, hst⟩
  · rw [hcall] at hc
    exact (ha task hk hc).mono (hm.extends h) (h.employed.fits t task hk) hcall hst
  · rw [hn hnone]
    exact ⟨by simp, by simp, fun o ho => by rw [hst] at ho; cases ho⟩

/-- On every run the services of a task with a call of one operation are right; a task that is not there
has none. -/
theorem Run.account (h : Run s₀ past s) (hs : Sound s₀ none none) (hn : s₀.tasks = []) :
    (s.tasks[t]? = none → servicesOf t past = []) ∧
      ∀ task, s.tasks[t]? = some task → task.call.isSingle = true →
        Account s task (servicesOf t past) := by
  refine ⟨h.servicesOf_of_none hs, ?_⟩
  induction h with
  | refl =>
    intro task hk
    rw [hn] at hk
    cases hk
  | turn h ih =>
    intro task hk hc
    rw [servicesOf_append]
    exact .turn (hs.run h) ih hk hc
  | move h hm ih =>
    intro task hk hc
    exact .move (hs.run h) hm (h.servicesOf_of_none hs) ih hk hc

end Session

end Outflow
