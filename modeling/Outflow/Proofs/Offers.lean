import Outflow.Proofs.EndOfOutput
import Outflow.Proofs.Notices
import Outflow.Proofs.Output
import Outflow.Proofs.Session.Progress

/-!
# Offering what is left

A call that writes all of some data offers what is left, again and again, until all was taken or a write fails
or takes nothing.

* `Pipe.answer_of_write`, `Call.resume_writeAll_eq`: the answers to a write, and how the call goes on after one;
* `Ending.piece`, `piecesOf`: what writes have written;
* `Offered`: writes that were each offered what the one before had left;
* `Session.Written`: how far such a call has come with the writes that it has made;
* `after_of_outcome?`, `waits_of_outcome?_none`: how a task goes on after an operation, or waits;
* `Session.endingsOf`: the operations on outlets that a task has ended;
* `Written.turn`, `Written.move`, `Run.written`: how far the call has come at all times.
-/

namespace Outflow

/-! ### Writes and what follows -/

namespace Pipe

/-- A write is answered with a fault if an end is closed, and else with a number of the bytes, which is not
zero unless there are none. -/
theorem answer_of_write {p : Pipe} {data : Bytes} {outcome : Outcome}
    (h : (p.serve (.write data)).reply = .done outcome) :
    (∃ f, outcome = .error f ∧ (f = .readerClosed ∨ f = .writerShutDown)) ∨
      ∃ k, k ≤ data.length ∧ (data ≠ [] → k ≠ 0) ∧ outcome = .ok (.count k) := by
  obtain ⟨-, hs⟩ | ⟨-, hs⟩ := serve_cases p (.write data)
  · rw [hs] at h
    cases h
  · by_cases hc : p.isClosing = true
    · rw [hs, perform_write_of_isClosing hc] at h
      cases h
      refine .inl ⟨_, rfl, ?_⟩
      split
      · exact .inl rfl
      · exact .inr rfl
    · rw [Bool.not_eq_true] at hc
      right
      have hopen := hc
      rw [isClosing, Bool.or_eq_false_iff] at hopen
      have hcount := h
      rw [hs, perform_write_of_open hopen.2 hopen.1] at hcount
      cases hcount
      refine ⟨_, Nat.min_le_left .., fun hne hz => ?_, rfl⟩
      obtain ⟨k, hk, hcount⟩ := count_ne_zero_of_write hc hne h
      cases hcount
      exact hk hz

/-- An answered write adds the bytes that the answer counts. -/
theorem accepted_of_answer {p : Pipe} {data : Bytes} {outcome : Outcome}
    (h : (p.serve (.write data)).reply = .done outcome) :
    p.accepted (.write data) = outcome.counted data := by
  rw [accepted_write, h]
  cases outcome with
  | error f => rfl
  | ok a => cases a <;> rfl

end Pipe

namespace Call

variable {d : Destination} {rest left : Bytes} {outcome : Outcome} {f : Fault}

/-- A write leaves nothing to go on with if it failed, or took nothing. -/
theorem leftAfter_eq_error (h : leftAfter d rest outcome = .error f) :
    outcome = .error f ∨ (outcome = .ok (.count 0) ∧ f = .stalled d.name rest.length) := by
  unfold leftAfter at h
  split at h
  · cases h
    exact .inl rfl
  · cases h
    exact .inr ⟨rfl, rfl⟩
  · cases h
  · cases h

/-- What is left after a write that counted what it took. -/
theorem leftAfter_eq_ok {k : Nat} (h : leftAfter d rest (.ok (.count k)) = .ok left) :
    k ≠ 0 ∧ left = rest.drop k := by
  cases k with
  | zero => cases h
  | succ k =>
    cases h
    exact ⟨Nat.succ_ne_zero k, rfl⟩

/-- A call that writes all goes on with what is left. -/
theorem resume_writeAll_eq (d : Destination) (outcome : Outcome) (o : Nat) (hne : rest ≠ []) :
    (Call.writeAll o rest).resume d outcome = match leftAfter d rest outcome with
      | .error f => .done (.error f)
      | .ok [] => .done (.ok .nothing)
      | .ok left => .more (.writeAll o left) := by
  cases rest with
  | nil => exact absurd rfl hne
  | cons byte rest => rfl

end Call

/-- The bytes that a write has written, as its outcome counts them. -/
def Ending.piece (e : Ending) : Bytes :=
  match e.request with
  | .write rest => e.outcome.counted rest
  | _ => []

theorem Ending.piece_of_error {e : Ending} {f : Fault} (h : e.outcome = .error f) : e.piece = [] := by
  unfold piece
  split
  · rw [h, Outcome.counted_error]
  · rfl

theorem Ending.piece_of_write {e : Ending} {rest : Bytes} (h : e.request = .write rest) :
    e.piece = e.outcome.counted rest := by
  simp only [piece, h]

/-- The bytes that writes have written, in order. -/
def piecesOf (es : List Ending) : Bytes := es.flatMap Ending.piece

@[simp] theorem piecesOf_append (es es' : List Ending) : piecesOf (es ++ es') = piecesOf es ++ piecesOf es' :=
  List.flatMap_append ..

@[simp] theorem piecesOf_singleton (e : Ending) : piecesOf [e] = e.piece := by simp [piecesOf]

/-- Whether a write that succeeded tells how many of the bytes it took. -/
def Ending.Counts (e : Ending) : Prop :=
  ∀ rest a, e.request = .write rest → e.outcome = .ok a → ∃ k, k ≤ rest.length ∧ a = .count k

/-- Whether a write took something, or failed for another reason than taking nothing. -/
def Ending.TakesSome (e : Ending) : Prop :=
  e.outcome ≠ .ok (.count 0) ∧ ∀ d m, e.outcome ≠ .error (.stalled d m)

/-- Writes that were each offered what the one before had left; the last of them left `rest`. -/
inductive Offered (data : Bytes) : List Ending → Bytes → Prop
  | nil : Offered data [] data
  | snoc {us : List Ending} {e : Ending} {rest left : Bytes} (h : Offered data us rest) (hne : rest ≠ [])
    (hreq : e.request = .write rest) (hleft : Call.leftAfter e.now rest e.outcome = .ok left) :
    Offered data (us ++ [e]) left

namespace Offered

variable {data rest left : Bytes} {us vs es : List Ending} {e : Ending}

theorem nil_iff : Offered data [] rest ↔ rest = data := by
  constructor
  · intro h
    generalize he : ([] : List Ending) = es at h
    cases h with
    | nil => rfl
    | snoc => exact absurd he (by simp)
  · rintro rfl
    exact .nil

theorem snoc_iff : Offered data (us ++ [e]) left ↔ ∃ rest, Offered data us rest ∧ rest ≠ [] ∧
    e.request = .write rest ∧ Call.leftAfter e.now rest e.outcome = .ok left := by
  constructor
  · intro h
    generalize he : us ++ [e] = es at h
    cases h with
    | nil => exact absurd he (by simp)
    | snoc h hne hreq hleft =>
      obtain ⟨rfl, hlast⟩ := List.append_inj' he rfl
      cases hlast
      exact ⟨_, h, hne, hreq, hleft⟩
  · rintro ⟨rest, h, hne, hreq, hleft⟩
    exact .snoc h hne hreq hleft

theorem of_append (h : Offered data (us ++ vs) left) : ∃ rest, Offered data us rest := by
  induction vs using List.reverseRecOn generalizing left with
  | nil => exact ⟨left, by rwa [List.append_nil] at h⟩
  | append_singleton vs v ih =>
    rw [← List.append_assoc, snoc_iff] at h
    obtain ⟨rest, h, -⟩ := h
    exact ih h

/-- Each of the writes was offered what those before it had left, and left something to go on with. -/
theorem of_append_cons (h : Offered data (us ++ e :: vs) left) : ∃ rest, Offered data us rest ∧ rest ≠ [] ∧
    e.request = .write rest ∧ ∃ left, Call.leftAfter e.now rest e.outcome = .ok left := by
  rw [List.append_cons] at h
  obtain ⟨left, h⟩ := h.of_append
  obtain ⟨rest, h, hne, hreq, hleft⟩ := snoc_iff.1 h
  exact ⟨rest, h, hne, hreq, left, hleft⟩

/-- What was taken and what is left are the data, and each write has taken some. -/
theorem piecesOf_append_rest (h : Offered data es rest) (hc : ∀ e ∈ es, e.Counts) :
    piecesOf es ++ rest = data ∧ es.length + rest.length ≤ data.length := by
  induction h with
  | nil => exact ⟨rfl, by simp⟩
  | @snoc us e rest left h hne hreq hleft ih =>
    obtain ⟨hdata, hlen⟩ := ih fun u hu => hc u (List.mem_append_left _ hu)
    have hout : ∃ k, k ≤ rest.length ∧ e.outcome = .ok (.count k) := by
      cases ho : e.outcome with
      | error f =>
        rw [ho] at hleft
        cases hleft
      | ok a =>
        obtain ⟨k, hk, rfl⟩ := hc e (List.mem_append_right _ (List.mem_singleton.2 rfl)) rest a hreq ho
        exact ⟨k, hk, rfl⟩
    obtain ⟨k, hk, ho⟩ := hout
    rw [ho] at hleft
    obtain ⟨hzero, rfl⟩ := Call.leftAfter_eq_ok hleft
    have hpiece : e.piece = rest.take k := by
      rw [Ending.piece_of_write hreq, ho]
      rfl
    constructor
    · rw [piecesOf_append, piecesOf_singleton, hpiece, List.append_assoc, List.take_append_drop, hdata]
    · rw [List.length_append, List.length_singleton, List.length_drop]
      omega

end Offered

/-- A list whose last part is not empty ends with the last of it. -/
theorem append_cons_eq_concat {α : Type} {us vs ws : List α} {a b : α}
    (h : us ++ a :: vs = ws ++ [b]) : (vs = [] ∧ us = ws ∧ a = b) ∨ ∃ xs, ws = us ++ a :: xs := by
  rcases List.eq_nil_or_concat vs with rfl | ⟨xs, c, rfl⟩
  · obtain ⟨rfl, hab⟩ := List.append_inj' h rfl
    cases hab
    exact .inl ⟨rfl, rfl, rfl⟩
  · rw [List.concat_eq_append, ← List.cons_append, ← List.append_assoc] at h
    exact .inr ⟨xs, (List.append_inj' h rfl).1.symm⟩

namespace Session

/-- How far a call that writes all of some data through an outlet has come, with the writes it has made: it goes
on with what is left, or nothing was left, or a write ended it, or it was cancelled with nothing to write. -/
inductive Written (o : Nat) (data : Bytes) (task : Task) : List Ending → Prop
  | going {es : List Ending} {rest : Bytes} (h : Offered data es rest) (hcall : task.call = .writeAll o rest)
    (hu : task.isUnfinished = true) (hrest : rest = [] → es = []) : Written o data task es
  | done {es : List Ending} (h : Offered data es []) (hst : task.stage = .ended (.ok .nothing)) :
    Written o data task es
  | failed {us : List Ending} {e : Ending} {rest : Bytes} {f : Fault} (h : Offered data us rest)
    (hne : rest ≠ []) (hreq : e.request = .write rest)
    (hleft : Call.leftAfter e.now rest e.outcome = .error f) (hst : task.stage = .ended (.error f)) :
    Written o data task (us ++ [e])
  | unbegun (hd : data = []) (hst : task.stage = .ended (.error .cancelled))
    (hc : task.cancelling = true) : Written o data task []

/-- Every write was offered what those before it had left; one with nothing to go on with was the last, and
ended the call. -/
theorem Written.write {o : Nat} {data : Bytes} {task : Task} {us vs : List Ending} {e : Ending}
    (h : Written o data task (us ++ e :: vs)) : ∃ rest, Offered data us rest ∧ rest ≠ [] ∧
      e.request = .write rest ∧ ∀ f, Call.leftAfter e.now rest e.outcome = .error f →
        vs = [] ∧ task.stage = .ended (.error f) := by
  have hmid : ∀ {ws left}, Offered data (us ++ e :: ws) left → ∃ rest, Offered data us rest ∧ rest ≠ [] ∧
      e.request = .write rest ∧ ∀ f, Call.leftAfter e.now rest e.outcome = .error f →
        vs = [] ∧ task.stage = .ended (.error f) := by
    intro ws left h
    obtain ⟨rest, h, hne, hreq, left, hleft⟩ := h.of_append_cons
    refine ⟨rest, h, hne, hreq, fun f hf => ?_⟩
    rw [hleft] at hf
    cases hf
  generalize hes : us ++ e :: vs = es at h
  cases h with
  | going h hcall hu hrest =>
    subst hes
    exact hmid h
  | done h hst =>
    subst hes
    exact hmid h
  | failed h hne hreq hleft hst =>
    obtain ⟨rfl, rfl, rfl⟩ | ⟨ws, rfl⟩ := append_cons_eq_concat hes
    · refine ⟨_, h, hne, hreq, fun f hf => ?_⟩
      rw [hleft] at hf
      cases hf
      exact ⟨rfl, hst⟩
    · exact hmid h
  | unbegun hd hst hc => exact absurd hes (by simp)

namespace Written

variable {o : Nat} {data : Bytes} {task : Task} {es : List Ending}

/-- A write with nothing to go on with has written nothing. -/
theorem piece_of_leftAfter_error {e : Ending} {rest : Bytes} {f : Fault} (hreq : e.request = .write rest)
    (h : Call.leftAfter e.now rest e.outcome = .error f) : e.piece = [] := by
  rcases Call.leftAfter_eq_error h with hf | ⟨hzero, -⟩
  · exact Ending.piece_of_error hf
  · rw [Ending.piece_of_write hreq, hzero]
    rfl

/-- What was written and what is left are the data, and no more writes were made than there are bytes. -/
theorem exists_left (h : Written o data task es) (hc : ∀ e ∈ es, e.Counts) :
    ∃ left, piecesOf es ++ left = data ∧ es.length ≤ data.length ∧
      (task.isUnfinished = true →
        task.call = .writeAll o left ∧ (data ≠ [] → left ≠ [] ∧ es.length < data.length)) ∧
      (∀ a, task.stage = .ended (.ok a) → a = .nothing ∧ left = []) ∧
      (data ≠ [] → left = [] → task.stage = .ended (.ok .nothing)) := by
  cases h with
  | @going _ rest h hcall hu hrest =>
    obtain ⟨hdata, hlen⟩ := h.piecesOf_append_rest hc
    have hopen : data ≠ [] → rest ≠ [] := by
      rintro hne rfl
      rw [hrest rfl] at h
      exact hne (Offered.nil_iff.1 h).symm
    refine ⟨rest, hdata, by omega, fun _ => ⟨hcall, fun hne => ⟨hopen hne, ?_⟩⟩,
      fun a ha => absurd ha (Task.isUnfinished_iff.1 hu _), fun hne hr => absurd hr (hopen hne)⟩
    have hpos := List.length_pos_iff.2 (hopen hne)
    omega
  | done h hst =>
    obtain ⟨hdata, hlen⟩ := h.piecesOf_append_rest hc
    refine ⟨[], hdata, by omega, fun hu => absurd hst (Task.isUnfinished_iff.1 hu _), fun a ha => ?_,
      fun _ _ => hst⟩
    rw [hst] at ha
    cases ha
    exact ⟨rfl, rfl⟩
  | @failed us e rest f h hne hreq hleft hst =>
    obtain ⟨hdata, hlen⟩ := h.piecesOf_append_rest fun u hu => hc u (List.mem_append_left _ hu)
    have hpos := List.length_pos_iff.2 hne
    refine ⟨rest, ?_, ?_, fun hu => absurd hst (Task.isUnfinished_iff.1 hu _), ?_, fun _ hr => absurd hr hne⟩
    · rw [piecesOf_append, piecesOf_singleton, piece_of_leftAfter_error hreq hleft, List.append_nil, hdata]
    · rw [List.length_append, List.length_singleton]
      omega
    · intro a ha
      rw [hst] at ha
      cases ha
  | unbegun hd hst hcan =>
    refine ⟨[], hd.symm, Nat.zero_le _, fun hu => absurd hst (Task.isUnfinished_iff.1 hu _), fun a ha => ?_,
      fun hne => absurd hd hne⟩
    rw [hst] at ha
    cases ha

/-- The call is still to write what is left, unless it has ended. -/
theorem call (h : Written o data task es) (hu : task.isUnfinished = true) :
    ∃ left, task.call = .writeAll o left := by
  have hended := Task.isUnfinished_iff.1 hu
  cases h with
  | going h hcall hu hrest => exact ⟨_, hcall⟩
  | done h hst => exact absurd hst (hended _)
  | failed h hne hreq hleft hst => exact absurd hst (hended _)
  | unbegun hd hst hc => exact absurd hst (hended _)

/-- Why the call failed. -/
theorem error (h : Written o data task es) {f : Fault} (hf : task.stage = .ended (.error f)) :
    (∃ us e, es = us ++ [e] ∧ (e.outcome = .error f ∨ e.outcome = .ok (.count 0))) ∨
      (data = [] ∧ f = .cancelled ∧ task.cancelling = true) := by
  cases h with
  | going h hcall hu hrest => exact absurd hf (Task.isUnfinished_iff.1 hu _)
  | done h hst =>
    rw [hst] at hf
    cases hf
  | failed h hne hreq hleft hst =>
    rw [hst] at hf
    cases hf
    exact .inl ⟨_, _, rfl, (Call.leftAfter_eq_error hleft).imp id And.left⟩
  | unbegun hd hst hcan =>
    rw [hst] at hf
    cases hf
    exact .inr ⟨hd, rfl, hcan⟩

/-- After a write the call goes on with what is left, or it ends. -/
theorem after {rest : Bytes} {e : Ending} (h : Offered data es rest) (hne : rest ≠ [])
    (hreq : e.request = .write rest) (hcall : task.call = .writeAll o rest) :
    Written o data (task.after e.now e.outcome) (es ++ [e]) := by
  have hresume := Call.resume_writeAll_eq e.now e.outcome o hne
  rw [← hcall] at hresume
  cases hleft : Call.leftAfter e.now rest e.outcome with
  | error f =>
    rw [hleft] at hresume
    exact .failed h hne hreq hleft (Task.stage_after_eq_ended.2 hresume)
  | ok left =>
    rw [hleft] at hresume
    have hoffered := h.snoc hne hreq hleft
    cases left with
    | nil => exact .done hoffered (Task.stage_after_eq_ended.2 hresume)
    | cons byte left =>
      refine .going hoffered ?_ ?_ nofun
      · rw [Task.after, hresume]
      · rw [Task.after, hresume]
        rfl

end Written

variable {s s' s₀ : Session} {past : List Session} {t p o : Nat} {task : Task} {rest : List Job}
  {data : Bytes} {es : List Ending}

/-! ### The writes of a task -/

/-- How a task goes on when its operation ends in the next turn. -/
theorem after_of_outcome? (h : Sound s none none) (hr : s.ready = .task t :: rest)
    (hk : s.tasks[t]? = some task) {outcome : Outcome} (ho : s.outcome? task = some outcome) :
    ∃ entry, s.turn.tasks[t]? =
      some (Task.after { task with entry } (s.destinationOf task.call.outlet?) outcome) := by
  obtain ⟨s', hs'⟩ : ∃ s', s.turn = s' := ⟨_, rfl⟩
  have hcourse := turn_course h hr hk
  rw [hs'] at hcourse ⊢
  have hcomplete : ∀ {s₁ : Session} {entry : Destination}, s₁.tasks[t]? = some { task with entry } →
      s₁.outlets = s.outlets → ∃ entry, (s₁.complete t outcome).tasks[t]? =
        some (Task.after { task with entry } (s.destinationOf task.call.outlet?) outcome) := by
    intro s₁ entry hk₁ hout
    exact ⟨entry, by rw [task_complete hk₁ outcome, destinationOf_congr hout]⟩
  cases hcourse with
  | @cancelled s₁ hp hc hv =>
    rw [outcome?, if_pos hc] at ho
    cases ho
    obtain ⟨entry, hk₁⟩ := hp.task
    refine ⟨entry, ?_⟩
    rw [Task.after_error]
    simp only [finish, setStage, List.getElem?_modify_eq, hk₁]
    rfl
  | @answered s₁ hp hc hv hst outcome' hop hout hans =>
    rw [outcome?, if_neg (by simp [hc]), hv, hans, Option.some.injEq] at ho
    subst ho
    obtain ⟨entry, hk₁⟩ := hp.task
    exact hcomplete hk₁ hp.outlets
  | @queued s₁ g gate q hp hc hv hst hg hopen haim =>
    -- an operation that ends does not wait
    obtain ⟨entry, hk₁⟩ := hp.task
    have hpl : s.turn.place? t = some (.gate g) := by
      rw [hs']
      exact place?_of_stage (stage?_setStage hk₁ _)
    obtain ⟨hnone, -⟩ | ⟨outcome', entry', d, -, -, hk', -⟩ := turn_of_outcome? h hr hk
    · rw [ho] at hnone
      cases hnone
    · rw [place?_of_task hk', Task.place?_after] at hpl
      cases hpl
  | @served s₁ held p r b hp hc hv hb hpur =>
    rw [outcome?, if_neg (by simp [hc]), hv] at ho
    have hrep := Service.reply_of_answer ho
    obtain ⟨again, hrep', -⟩ | ⟨outcome', entry, hrep', he, hk₁⟩ := hp.serve_cases hb r
    · rw [hrep] at hrep'
      cases hrep'
    · rw [hrep] at hrep'
      cases hrep'
      rw [he]
      exact hcomplete hk₁ ((outlets_release ..).trans hp.outlets)

/-- An operation ends because the task is cancelled, or a pipe answers, or no pipe is asked. -/
theorem outcome?_cases {outcome : Outcome} (h : s.outcome? task = some outcome) :
    (task.cancelling = true ∧ outcome = .error .cancelled) ∨
      (∃ v, s.service? = some v ∧ v.answer? = some outcome) ∨
        (s.service? = none ∧ s.answer? task.call.operation = some outcome) := by
  unfold outcome? at h
  split at h
  · rename_i hc
    cases h
    exact .inl ⟨hc, rfl⟩
  · split at h
    · rename_i v hv
      exact .inr (.inl ⟨v, hv, h⟩)
    · rename_i hv
      exact .inr (.inr ⟨hv, h⟩)

/-- An operation that is answered by itself ends with that answer, unless the task is cancelled. -/
theorem outcome?_of_answered (h : Sound s none none) (hr : s.ready = .task t :: rest)
    (hk : s.tasks[t]? = some task) {answer outcome : Outcome} (hop : task.call.operation = .answered answer)
    (ho : s.outcome? task = some outcome) :
    (task.cancelling = true ∧ outcome = .error .cancelled) ∨ outcome = answer := by
  obtain hcan | ⟨v, hv, -⟩ | ⟨-, hans⟩ := outcome?_cases ho
  · exact .inl hcan
  · obtain ⟨task', hk', -, hpur⟩ := pursues_of_service h hv
    rw [task_of_service? hr hv, hk] at hk'
    cases hk'
    exact absurd hop (hpur.operation_ne_answered _)
  · rw [hop] at hans
    exact .inr (Option.some.inj hans).symm

/-- A task whose operation does not end in its turn waits on with its call. -/
theorem waits_of_outcome?_none (h : Sound s none none) (hr : s.ready = .task t :: rest)
    (hk : s.tasks[t]? = some task) (ho : s.outcome? task = none) {task' : Task}
    (hk' : s.turn.tasks[t]? = some task') : task'.call = task.call ∧ task'.isUnfinished = true := by
  obtain ⟨-, hpl, -⟩ | ⟨outcome, entry, d, ho', -⟩ := turn_of_outcome? h hr hk
  · rw [place?_of_task hk'] at hpl
    obtain ⟨task'', hk'', hf⟩ := (turn_course h hr hk).fate
    rw [hk'] at hk''
    cases hk''
    refine ⟨hf.call_of_place hpl, Task.isUnfinished_iff.2 fun outcome hst => ?_⟩
    rw [hst] at hpl
    exact hpl rfl
  · rw [ho] at ho'
    cases ho'

/-- The ends of the operations of a task on outlets, in order. -/
def endingsOf (t : Nat) (past : List Session) : List Ending :=
  (past.filterMap ending?).filter fun e => e.task == t

theorem endingsOf_append (t : Nat) (past past' : List Session) :
    endingsOf t (past ++ past') = endingsOf t past ++ endingsOf t past' := by
  rw [endingsOf, List.filterMap_append, List.filter_append, endingsOf, endingsOf]

theorem endingsOf_singleton {e : Ending} (he : s.ending? = some e) (ht : e.task = t) :
    endingsOf t [s] = [e] := by simp [endingsOf, he, ht]

theorem endingsOf_eq_nil (h : ∀ e, s.ending? = some e → e.task ≠ t) : endingsOf t [s] = [] := by
  cases he : s.ending? with
  | none => simp [endingsOf, he]
  | some e => simp [endingsOf, he, h e he]

theorem mem_endingsOf {e : Ending} : e ∈ endingsOf t past ↔ ∃ u ∈ past, u.ending? = some e ∧ e.task = t := by
  rw [endingsOf, List.mem_filter, List.mem_filterMap]
  simp only [beq_iff_eq]
  constructor
  · rintro ⟨⟨u, hu, he⟩, ht⟩
    exact ⟨u, hu, he, ht⟩
  · rintro ⟨u, hu, he, ht⟩
    exact ⟨⟨u, hu, he⟩, ht⟩

theorem endingsOf_of_not_ready (h : ∀ rest, s.ready ≠ .task t :: rest) : endingsOf t [s] = [] := by
  refine endingsOf_eq_nil fun e he ht => ?_
  obtain ⟨rest, task, hr, -⟩ := ending?_eq_some he
  exact h rest (by rw [hr, ht])

theorem endingsOf_of_outcome?_none (hk : s.tasks[t]? = some task) (ho : s.outcome? task = none) :
    endingsOf t [s] = [] := by
  refine endingsOf_eq_nil fun e he ht => ?_
  obtain ⟨rest', task', -, hk', -, ho', -⟩ := ending?_eq_some he
  rw [ht, hk] at hk'
  cases hk'
  rw [ho] at ho'
  cases ho'

theorem endingsOf_of_answered (hk : s.tasks[t]? = some task) {outcome : Outcome}
    (hop : task.call.operation = .answered outcome) : endingsOf t [s] = [] := by
  refine endingsOf_eq_nil fun e he ht => ?_
  obtain ⟨rest', task', -, hk', hop', -⟩ := ending?_eq_some he
  rw [ht, hk] at hk'
  cases hk'
  rw [hop] at hop'
  cases hop'

/-- The write that ends in the next turn. -/
theorem endingsOf_of_write (hr : s.ready = .task t :: rest) (hk : s.tasks[t]? = some task) {left : Bytes}
    (hop : task.call.operation = .onOutlet o (.write left)) {outcome : Outcome}
    (ho : s.outcome? task = some outcome) : ∃ e, endingsOf t [s] = [e] ∧ s.ending? = some e ∧
      e.request = .write left ∧ e.outcome = outcome ∧ e.now = s.destinationOf (some o) := by
  have he := ending?_eq hr hk hop
  rw [ho, Option.map_some] at he
  exact ⟨_, endingsOf_singleton he rfl, he, rfl, rfl, rfl⟩

/-! ### How far the call has come -/

theorem Written.turn (h : Written o data task es) (hs : Sound s none none) (hk : s.tasks[t]? = some task)
    {task' : Task} (hk' : s.turn.tasks[t]? = some task') :
    Written o data task' (es ++ endingsOf t [s]) := by
  by_cases hr : ∃ rest, s.ready = .task t :: rest
  case neg =>
    have hne : ∀ rest, s.ready ≠ .task t :: rest := fun rest he => hr ⟨rest, he⟩
    rw [tasks_turn_of_ne hs hne, hk] at hk'
    cases hk'
    rw [endingsOf_of_not_ready hne, List.append_nil]
    exact h
  obtain ⟨rest, hr⟩ := hr
  have hu := isUnfinished_of_ready hs hr hk
  have hended := Task.isUnfinished_iff.1 hu
  cases h with
  | done h hst => exact absurd hst (hended _)
  | failed h hne hreq hleft hst => exact absurd hst (hended _)
  | unbegun hd hst hc => exact absurd hst (hended _)
  | @going _ left h hcall _ hrest =>
    cases ho : s.outcome? task with
    | none =>
      -- the write waits on
      obtain ⟨hcall', hu'⟩ := waits_of_outcome?_none hs hr hk ho hk'
      rw [endingsOf_of_outcome?_none hk ho, List.append_nil]
      exact .going h (hcall'.trans hcall) hu' hrest
    | some outcome =>
      obtain ⟨entry, hafter⟩ := after_of_outcome? hs hr hk ho
      rw [hk', Option.some.injEq] at hafter
      subst hafter
      by_cases hne : left = []
      · -- nothing is left to be written, and the call ends
        subst hne
        have hes := hrest rfl
        subst hes
        cases Offered.nil_iff.1 h
        have hop : task.call.operation = .answered (.ok .nothing) := by rw [hcall]; rfl
        rw [endingsOf_of_answered hk hop, List.append_nil]
        obtain ⟨hc, rfl⟩ | rfl := outcome?_of_answered hs hr hk hop ho
        · exact .unbegun rfl (by rw [Task.after_error]) (by rw [Task.cancelling_after]; exact hc)
        · refine .done .nil (Task.stage_after_eq_ended.2 ?_)
          rw [hcall]
          rfl
      · -- the write ends, and the call goes on with what is left
        obtain ⟨e, hone, -, hreq, rfl, hnow⟩ :=
          endingsOf_of_write hr hk (by rw [hcall]; exact Call.operation_writeAll o hne) ho
        rw [hone, show s.destinationOf task.call.outlet? = e.now by rw [hcall, hnow]; rfl]
        exact .after h hne hreq hcall

theorem Written.move (h : Written o data task es) {task' : Task} (hcall : task'.call = task.call)
    (hst : task'.stage = task.stage) (hc : task.cancelling = true → task'.cancelling = true) :
    Written o data task' es := by
  cases h with
  | going h hcall' hu hrest =>
    refine .going h (hcall.trans hcall') ?_ hrest
    rw [Task.isUnfinished, Task.outcome?, hst]
    exact hu
  | done h hst' => exact .done h (hst.trans hst')
  | failed h hne hreq hleft hst' => exact .failed h hne hreq hleft (hst.trans hst')
  | unbegun hd hst' hc' => exact .unbegun hd (hst.trans hst') (hc hc')

/-- On every run of a call that writes all of some data. -/
theorem Run.written (h : Run (s₀.spawn (.writeAll o data)).1 past s)
    (hs₀ : Sound (s₀.spawn (.writeAll o data)).1 none none) :
    ∃ task, s.tasks[s₀.tasks.length]? = some task ∧
      Written o data task (endingsOf s₀.tasks.length past) := by
  induction h with
  | refl =>
    refine ⟨.ofCall (.writeAll o data), List.getElem?_concat_length .., ?_⟩
    exact .going .nil rfl rfl fun _ => rfl
  | @turn past s h ih =>
    have hs := hs₀.run h
    obtain ⟨task, hk, hw⟩ := ih
    obtain ⟨hlt, -⟩ := List.getElem?_eq_some_iff.1 hk
    rw [← length_turn hs] at hlt
    rw [endingsOf_append]
    exact ⟨_, List.getElem?_eq_getElem hlt, hw.turn hs hk (List.getElem?_eq_getElem hlt)⟩
  | @move past s s' h hm ih =>
    have hs := hs₀.run h
    obtain ⟨task, hk, hw⟩ := ih
    obtain ⟨hlt, -⟩ := List.getElem?_eq_some_iff.1 hk
    have hlt' := Nat.lt_of_lt_of_le hlt (hm.length_le hs)
    refine ⟨_, List.getElem?_eq_getElem hlt', ?_⟩
    rcases hm.task hs (List.getElem?_eq_getElem hlt') with ⟨task₀, hk₀, hcall, hst, -⟩ | ⟨hnone, -⟩
    · rw [hk] at hk₀
      cases hk₀
      refine hw.move hcall hst fun hc => ?_
      have hcan := hm.cancelling hs (u := s₀.tasks.length) (by rw [isCancelling, hk]; exact hc)
      rw [isCancelling, List.getElem?_eq_getElem hlt'] at hcan
      exact hcan
    · rw [hk] at hnone
      cases hnone

/-- Whatever the call ends on an outlet is a write through its own. -/
theorem Run.request_of_ending? (h : Run (s₀.spawn (.writeAll o data)).1 past s)
    (hs₀ : Sound (s₀.spawn (.writeAll o data)).1 none none) {e : Ending} (he : s.ending? = some e)
    (ht : e.task = s₀.tasks.length) : ∃ left, e.outlet = o ∧ e.request = .write left := by
  obtain ⟨rest, task, hr, hk, hop, -⟩ := ending?_eq_some he
  obtain ⟨task', hk', hw⟩ := h.written hs₀
  rw [← ht, hk] at hk'
  cases hk'
  obtain ⟨left, hcall⟩ := hw.call (isUnfinished_of_ready (hs₀.run h) hr hk)
  rw [hcall] at hop
  cases left with
  | nil => cases hop
  | cons byte left =>
    obtain ⟨houtlet, hreq⟩ := Operation.onOutlet.inj hop
    exact ⟨_, houtlet.symm, hreq.symm⟩

end Session

end Outflow
