import Outflow.Proofs.Session.Effects

/-!
# The history of a pipe

* `Serves`: a pipe meets requests one after the other, each as the one before has left it;
* `accepted`, `removed`: the bytes that a history adds to the buffer, and those it takes from it;
* `Service.answer?_of_chunk`: reading some bytes, or a line, returns what it removes;
* `Serves.conserved`: what was buffered and accepted is what was removed and is buffered;
* `Session.services`, `Session.history`: the services of a run, and those of one pipe;
* `Run.history`: the history of a pipe on a run leads from the pipe as it was to the pipe as it is.
-/

namespace Outflow

/-- A pipe meets requests one after the other. -/
inductive Serves (b₀ : Pipe) : List Service → Pipe → Prop
  | nil : Serves b₀ [] b₀
  | snoc {vs : List Service} {v : Service} (h : Serves b₀ vs v.before) :
    Serves b₀ (vs ++ [v]) v.after

/-- The bytes that a history adds to the buffer, in order. -/
def accepted (vs : List Service) : Bytes := vs.flatMap Service.accepted

/-- The bytes that a history takes from the buffer, in order. -/
def removed (vs : List Service) : Bytes := vs.flatMap Service.removed

@[simp] theorem accepted_append (vs ws : List Service) :
    accepted (vs ++ ws) = accepted vs ++ accepted ws := List.flatMap_append ..

@[simp] theorem removed_append (vs ws : List Service) :
    removed (vs ++ ws) = removed vs ++ removed ws := List.flatMap_append ..

@[simp] theorem accepted_singleton (v : Service) : accepted [v] = v.accepted := by
  simp [accepted]

@[simp] theorem removed_singleton (v : Service) : removed [v] = v.removed := by simp [removed]

/-- Reading some bytes, or a line, removes nothing while it is put off, and is answered with what it
removes. -/
theorem Service.answer?_of_chunk {v : Service} (h : (∃ n, v.request = .read n) ∨ v.request = .readLine) :
    (v.answer? = none ∧ v.removed = []) ∨ v.answer? = some (.ok (.bytes v.removed)) := by
  rcases Pipe.reply_of_chunk (p := v.before) h with ⟨hrep, hrem⟩ | hrep
  · exact .inl ⟨by rw [answer?, hrep], hrem⟩
  · right
    rw [answer?, hrep]
    rfl

namespace Serves

variable {b₀ b b' : Pipe} {vs ws : List Service}

theorem trans (h : Serves b₀ vs b) (h' : Serves b ws b') : Serves b₀ (vs ++ ws) b' := by
  induction h' with
  | nil => rw [List.append_nil]; exact h
  | snoc _ ih => rw [← List.append_assoc]; exact .snoc ih

theorem singleton (v : Service) : Serves v.before [v] v.after := @snoc _ [] v .nil

theorem valid (h : Serves b₀ vs b) (hv : b₀.Valid) : b.Valid := by
  induction h with
  | nil => exact hv
  | snoc _ ih => exact ih.serve _

theorem capacity (h : Serves b₀ vs b) : b.capacity = b₀.capacity := by
  induction h with
  | nil => rfl
  | snoc _ ih => rw [Service.after, Pipe.capacity_serve, ih]

/-- A closed read end stays closed. -/
theorem readClosed (h : Serves b₀ vs b) (hc : b₀.readClosed = true) : b.readClosed = true := by
  induction h with
  | nil => exact hc
  | snoc _ ih => rw [Service.after, Pipe.readClosed_serve, ih, Bool.true_or]

/-- A write end that was shut down stays so. -/
theorem writeClosed (h : Serves b₀ vs b) (hc : b₀.writeClosed = true) : b.writeClosed = true := by
  induction h with
  | nil => exact hc
  | snoc _ ih => rw [Service.after, Pipe.writeClosed_serve, ih, Bool.true_or]

theorem isClosing (h : Serves b₀ vs b) (hc : b₀.isClosing = true) : b.isClosing = true := by
  rw [Pipe.isClosing, Bool.or_eq_true] at hc ⊢
  rcases hc with hc | hc
  · exact .inl (h.writeClosed hc)
  · exact .inr (h.readClosed hc)

theorem nil_iff : Serves b₀ [] b ↔ b = b₀ := by
  constructor
  · intro h
    -- `cases` needs the history to be a variable
    generalize hu : ([] : List Service) = us at h
    cases h with
    | nil => rfl
    | snoc h => exact absurd hu (by simp)
  · rintro rfl
    exact .nil

theorem snoc_iff {v : Service} : Serves b₀ (vs ++ [v]) b ↔ Serves b₀ vs v.before ∧ b = v.after := by
  constructor
  · intro h
    generalize hu : vs ++ [v] = us at h
    cases h with
    | nil => exact absurd hu (by simp)
    | snoc h =>
      obtain ⟨rfl, hv⟩ := List.append_inj' hu rfl
      cases hv
      exact ⟨h, rfl⟩
  · rintro ⟨h, rfl⟩
    exact .snoc h

/-- A history can be cut anywhere. -/
theorem split (h : Serves b₀ (vs ++ ws) b) : ∃ b₁, Serves b₀ vs b₁ ∧ Serves b₁ ws b := by
  induction ws using List.reverseRecOn generalizing b with
  | nil =>
    rw [List.append_nil] at h
    exact ⟨b, h, .nil⟩
  | append_singleton ws w ih =>
    rw [← List.append_assoc, snoc_iff] at h
    obtain ⟨h, rfl⟩ := h
    obtain ⟨b₁, h₁, h₂⟩ := ih h
    exact ⟨b₁, h₁, .snoc h₂⟩

/-- Every service of a history finds a pipe that those before it have left, and leaves one for those
after it. -/
theorem of_append_cons {v : Service} (h : Serves b₀ (vs ++ v :: ws) b) :
    Serves b₀ vs v.before ∧ Serves v.after ws b := by
  rw [List.append_cons] at h
  obtain ⟨b₁, h₁, h₂⟩ := h.split
  obtain ⟨h₃, rfl⟩ := snoc_iff.1 h₁
  exact ⟨h₃, h₂⟩

/-- As long as the read end is open no byte is lost, repeated or out of order. -/
theorem conserved (h : Serves b₀ vs b) (hr : b.readClosed = false) :
    b₀.buffer ++ accepted vs = removed vs ++ b.buffer := by
  induction h with
  | nil => simp [accepted, removed]
  | @snoc vs v h ih =>
    rw [Service.after, Pipe.readClosed_serve, Bool.or_eq_false_iff] at hr
    obtain ⟨hr, hne⟩ := hr
    have hstep := Pipe.buffer_append_accepted hr (by simpa using hne)
    calc b₀.buffer ++ accepted (vs ++ [v])
        = (b₀.buffer ++ accepted vs) ++ v.accepted := by simp
      _ = removed vs ++ (v.before.buffer ++ v.accepted) := by rw [ih hr, List.append_assoc]
      _ = removed (vs ++ [v]) ++ v.after.buffer := by
        rw [Service.accepted, hstep, removed_append, removed_singleton, List.append_assoc]
        rfl

/-- Once the read end is closed nothing is accepted or removed, and nothing is buffered. -/
theorem idle_of_readClosed (h : Serves b₀ vs b) (hv : b₀.Valid) (hc : b₀.readClosed = true) :
    accepted vs = [] ∧ removed vs = [] ∧ b.buffer = [] := by
  induction h with
  | nil => exact ⟨rfl, rfl, hv.buffer_eq_nil hc⟩
  | @snoc vs v h ih =>
    obtain ⟨ha, hr, hb⟩ := ih
    have hc' := h.readClosed hc
    refine ⟨?_, ?_, Pipe.buffer_serve_of_readClosed hc' hb _⟩
    · rw [accepted_append, ha, accepted_singleton]
      exact Pipe.accepted_of_readClosed hc' _
    · rw [removed_append, hr, removed_singleton]
      exact Pipe.removed_of_nil hb _

/-- Once the write end is shut down and nothing is buffered, nothing is accepted or removed. -/
theorem idle_of_atEof (h : Serves b₀ vs b) (hc : b₀.writeClosed = true) (hbuf : b₀.buffer = []) :
    accepted vs = [] ∧ removed vs = [] ∧ b.buffer = [] := by
  induction h with
  | nil => exact ⟨rfl, rfl, hbuf⟩
  | @snoc vs v h ih =>
    obtain ⟨ha, hr, hb⟩ := ih
    have hacc : v.accepted = [] :=
      Pipe.accepted_of_isClosing (by simp [Pipe.isClosing, h.writeClosed hc]) _
    refine ⟨by rw [accepted_append, ha, accepted_singleton, hacc]; rfl, ?_, ?_⟩
    · rw [removed_append, hr, removed_singleton]
      exact Pipe.removed_of_nil hb _
    · by_cases hclosed : v.before.readClosed = true
      · exact Pipe.buffer_serve_of_readClosed hclosed hb _
      · by_cases hclose : v.request = .close
        · rw [Service.after, hclose]
          rfl
        · have hstep := Pipe.buffer_append_accepted (by simpa using hclosed) hclose
          rw [hb, show v.before.accepted v.request = [] from hacc] at hstep
          exact (List.append_eq_nil_iff.1 hstep.symm).2

end Serves

namespace Session

variable {s s' s₀ : Session} {past : List Session} {p : Nat}

/-- The services of a run, in order. -/
def services (past : List Session) : List Service := past.filterMap service?

/-- The services of a pipe on a run, in order. -/
def history (p : Nat) (past : List Session) : List Service :=
  (services past).filter fun v => v.place == p

theorem services_append (past past' : List Session) :
    services (past ++ past') = services past ++ services past' := List.filterMap_append

theorem history_append (p : Nat) (past past' : List Session) :
    history p (past ++ past') = history p past ++ history p past' := by
  rw [history, services_append, List.filter_append, history, history]

theorem history_eq_nil (h : ∀ v, s.service? = some v → v.place ≠ p) : history p [s] = [] := by
  cases hv : s.service? with
  | none => simp [history, services, hv]
  | some v => simp [history, services, hv, h v hv]

theorem history_of_eq {v : Service} (hv : s.service? = some v) :
    history v.place [s] = [v] := by simp [history, services, hv]

/-- One turn extends the history of a pipe by its service. -/
theorem serves_turn (h : Sound s none none) {b : Pipe} (hb : s.pipe? p = some b) :
    ∃ b', s.turn.pipe? p = some b' ∧ Serves b (history p [s]) b' := by
  rcases pipe?_turn_cases h p with ⟨hne, he⟩ | ⟨v, hv, rfl, he⟩
  · rw [he, history_eq_nil hne]
    exact ⟨b, hb, .nil⟩
  · have hbefore := before_of_service? hv
    rw [hb] at hbefore
    cases hbefore
    rw [he, history_of_eq hv]
    exact ⟨v.after, rfl, .singleton v⟩

/-- The history of a pipe on a run leads from the pipe as it was to the pipe as it is. -/
theorem Run.serves (h : Run s₀ past s) (hs : Sound s₀ none none) {b₀ : Pipe}
    (hb : s₀.pipe? p = some b₀) : ∃ b, s.pipe? p = some b ∧ Serves b₀ (history p past) b := by
  induction h with
  | refl => exact ⟨b₀, hb, .nil⟩
  | @turn past s h ih =>
    obtain ⟨b, hb, hv⟩ := ih
    obtain ⟨b', hb', hv'⟩ := serves_turn (hs.run h) hb
    rw [history_append]
    exact ⟨b', hb', hv.trans hv'⟩
  | @move past s s' h hm ih =>
    obtain ⟨b, hb, hv⟩ := ih
    rcases hm.pipe (hs.run h) with he | ⟨b', q, hq, he, -⟩
    · exact ⟨b, by rw [he, hb], hv⟩
    · refine ⟨b, ?_, hv⟩
      rw [he, Function.update_of_ne, hb]
      rintro rfl
      rw [hb] at hq
      cases hq

/-- A pipe that was not there at first is open and empty when it is made, and its history begins
then. -/
theorem Run.history_of_none (h : Run s₀ past s) (hs : Sound s₀ none none)
    (hn : s₀.pipe? p = none) : (s.pipe? p = none ∧ history p past = []) ∨
      ∃ b₀ b, b₀.Valid ∧ b₀.buffer = [] ∧ b₀.isClosing = false ∧ s.pipe? p = some b ∧
        Serves b₀ (history p past) b := by
  induction h with
  | refl => exact .inl ⟨hn, rfl⟩
  | @turn past s h ih =>
    have hsound := hs.run h
    rw [history_append]
    rcases ih with ⟨hp, hh⟩ | ⟨b₀, b, hb₀, hbuf, hopen, hb, hv⟩
    · left
      rcases pipe?_turn_cases hsound p with ⟨hne, he⟩ | ⟨v, hv, rfl, -⟩
      · rw [hh, List.nil_append, he]
        exact ⟨hp, history_eq_nil hne⟩
      · -- a turn makes no pipe
        rw [before_of_service? hv] at hp
        cases hp
    · obtain ⟨b', hb', hv'⟩ := serves_turn hsound hb
      exact .inr ⟨b₀, b', hb₀, hbuf, hopen, hb', hv.trans hv'⟩
  | @move past s s' h hm ih =>
    have hsound := (hs.run h).move hm
    rcases ih with ⟨hp, hh⟩ | ⟨b₀, b, hb₀, hbuf, hopen, hb, hv⟩
    · rcases hm.pipe (hs.run h) with he | ⟨b, q, hq, he, hbuf, hrc, hwc⟩
      · exact .inl ⟨by rw [he, hp], hh⟩
      · -- the pipe is made by this move, or another one is
        by_cases hpq : p = q
        · subst hpq
          have hb : s'.pipe? p = some b := by rw [he, Function.update_self]
          refine .inr ⟨b, b, hsound.housed.valid p b hb, hbuf, ?_, hb, ?_⟩
          · rw [Pipe.isClosing, hrc, hwc]
            rfl
          · rw [hh]
            exact .nil
        · exact .inl ⟨by rw [he, Function.update_of_ne hpq, hp], hh⟩
    · obtain ⟨b', hb', hv'⟩ := (Run.refl.move hm).serves (hs.run h) hb
      rw [Serves.nil_iff.1 hv'] at hb'
      exact .inr ⟨b₀, b, hb₀, hbuf, hopen, hb', hv⟩

/-- On a run from the start a pipe was made open and empty, and its history leads to what it is. -/
theorem Run.history {out err : Stream.Traits} (h : Run (start out err) past s) {b : Pipe}
    (hb : s.pipe? p = some b) :
    ∃ b₀, b₀.Valid ∧ b₀.buffer = [] ∧ b₀.isClosing = false ∧
      Serves b₀ (Session.history p past) b := by
  rcases h.history_of_none (p := p) (sound_start out err) rfl with
    ⟨hn, -⟩ | ⟨b₀, b', hb₀, hbuf, hopen, hb', hv⟩
  · rw [hb] at hn
    cases hn
  · rw [hb] at hb'
    cases hb'
    exact ⟨b₀, hb₀, hbuf, hopen, hv⟩

end Session

end Outflow
