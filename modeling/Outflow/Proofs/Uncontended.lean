import Outflow.Proofs.Session.Bare

/-!
# Gates that nobody contends for

As long as no two tasks at a time are at work on the write end of a pipe, it makes no difference whether they
come to it through a gate or make their requests to the write end itself.

* `Session.Writes`, `Session.Uncontended`: the tasks at work on a write end, and that there is one at most;
* `Session.Reaches`: the calls that come to the write end with a request;
* `Session.Beside`: two sessions that are driven side by side, with the requests made in either way;
* `Twin`, `Beside.twin`: what remains of both without the gates is the same, and nobody ever queues for one;
* `Same`, `Twin.same`: what is seen of the two is the same;
* `Beside.symm`, `Beside.follow`, `Beside.settled`: each follows the other, until both have settled;
* `gates_make_no_difference`: all of it.
-/

namespace Outflow.Session

/-- Whether a task that has not ended asks the write end of a pipe for something, by itself or by a gate. -/
def Writes (s : Session) (p : Nat) (task : Task) : Prop :=
  task.isUnfinished = true ∧ ∃ b q, s.Aims task.call b q ∧ s.LeadsTo b p

/-- Whether no two tasks are at work on the write end of a pipe. -/
def Uncontended (s : Session) (p : Nat) : Prop :=
  ∀ (t u : Nat) task task', s.tasks[t]? = some task → s.tasks[u]? = some task' →
    s.Writes p task → s.Writes p task' → t = u

/-- Whether a call is a request to the write end of a pipe: made to the write end itself, to a gate before it,
or to an outlet for the pipe. -/
inductive Reaches (s : Session) (p : Nat) (r : Sink.Request) : Call → Prop
  | direct : Reaches s p r (.backing (.pipe p) r)
  | gate {g} (hg : s.gatePipe? g = some p) : Reaches s p r (.backing (.gate g) r)
  | outlet {o g : Nat} (ho : s.outlets[o]? = some (.ofGate g)) (hg : s.gatePipe? g = some p) :
    Reaches s p r (.outlet o r)

/-- Two sessions to which the same is done from outside, except that a request to the write end of a pipe may
be made to one of them by a gate or an outlet, and to the other otherwise.  Their tasks take their turns side
by side, and each session records its notices when it gets to them; what is recorded is of no concern, as long
as the standard streams answer the same.  All the while, no two tasks are at work on the write end. -/
inductive Beside (p : Nat) : Session → Session → Prop
  | start (out err : Stream.Traits) : Beside p (start out err) (start out err)
  | addPipe {s s' capacity b} (h : Beside p s s') (hb : Pipe.create? capacity = some b) :
    Beside p (s.addPipe b).1 (s'.addPipe b).1
  | addGate {s s' q} (h : Beside p s s') (hq : s.Has (.pipe q)) :
    Beside p (s.addGate q).1 (s'.addGate q).1
  | addOutlet {s s' x} (h : Beside p s s')
    (hx : ∀ b, x.backing = some b → s.Has b ∧ x.destination ≠ .null) :
    Beside p (s.addOutlet x).1 (s'.addOutlet x).1
  | retarget {s s' place x} (h : Beside p s s') (name : String) (hx : s.outlets[place]? = some x)
    (hgate : ∀ g, x = .ofGate g → s.gatePipe? g ≠ some p) :
    Beside p { s with outlets := s.outlets.set place { x with destination := .other name } }
      { s' with outlets := s'.outlets.set place { x with destination := .other name } }
  | spawn {s s' c} (h : Beside p s s') (hc : s.Fits c) (hu : (s.spawn c).1.Uncontended p) :
    Beside p (s.spawn c).1 (s'.spawn c).1
  | request {s s' r c c'} (h : Beside p s s') (hc : s.Fits c) (hr : s.Reaches p r c)
    (hr' : s.Reaches p r c') (hu : (s.spawn c).1.Uncontended p) :
    Beside p (s.spawn c).1 (s'.spawn c').1
  | cancel {s s'} (h : Beside p s s') (t : Nat) : Beside p (s.cancel t).1 (s'.cancel t).1
  | post {s s'} (h : Beside p s s') (n : Notice) : Beside p (s.post n) (s'.post n)
  | record {s s'} {io io' : Stdio} (h : Beside p s s') (journal journal' : Log.Journal)
    (hio : io.bare = io'.bare) :
    Beside p { s with journal, stdio := io } { s' with journal := journal', stdio := io' }
  | both {s s' t rest rest'} (h : Beside p s s') (hr : s.ready = .task t :: rest)
    (hr' : s'.ready = .task t :: rest') (hu : s.turn.Uncontended p) : Beside p s.turn s'.turn
  | left {s s' n copies rest} (h : Beside p s s') (hr : s.ready = .deliver n copies :: rest) :
    Beside p s.turn s'
  | right {s s' n copies rest} (h : Beside p s s') (hr : s'.ready = .deliver n copies :: rest) :
    Beside p s s'.turn

variable {s s' : Session} {p t g : Nat} {task : Task}

/-! ### One task at the write end -/

/-- A task that has a gate before the pipe is at work on the write end. -/
theorem writes_of_inPipe (h : Sound s none none) (hk : s.tasks[t]? = some task) {q : Nat}
    {r : Pipe.Request} (hst : task.stage = .inPipe (some g) q r) (hg : s.gatePipe? g = some p) :
    s.Writes p task := by
  have hpur := h.employed.pursues t task hk (by simp)
  rw [hst] at hpur
  obtain ⟨q, -, haim, -⟩ := hpur
  exact ⟨Task.isUnfinished_iff.2 (by simp [hst]), .gate g, q, haim, .inr ⟨g, rfl, hg⟩⟩

/-- Whoever is about to ask a gate before the pipe finds nobody who has it. -/
theorem Uncontended.holder (hu : s.Uncontended p) (h : Sound s none none)
    (hk : s.tasks[t]? = some task) (hst : task.stage = .fresh) {q : Sink.Request}
    (haim : s.Aims task.call (.gate g) q) (hg : s.gatePipe? g = some p) : s.holder? g = none := by
  cases hh : s.holder? g with
  | none => rfl
  | some u =>
    obtain ⟨task', q', r, hk', hst'⟩ := h.guarded.inPipe hh
    have hwrites : s.Writes p task :=
      ⟨Task.isUnfinished_iff.2 (by simp [hst]), .gate g, q, haim, .inr ⟨g, rfl, hg⟩⟩
    obtain rfl := hu u t task' task hk' hk (writes_of_inPipe h hk' hst' hg) hwrites
    rw [hk] at hk'
    cases hk'
    rw [hst] at hst'
    cases hst'

theorem isOpen_of_queue_nil {gate : Gate} (hh : gate.holder = none) (hq : gate.queue = []) :
    gate.isOpen = true := by simp [Gate.isOpen, Gate.isHeld, hh, hq]

/-- So the gate is open. -/
theorem Uncontended.admits (hu : s.Uncontended p) (h : Sound s none none) (hclear : s.Clear p)
    (hk : s.tasks[t]? = some task) (hst : task.stage = .fresh) : s.Admits p task.call := by
  intro g q gate haim hg hp
  have hgp : s.gatePipe? g = some p := by rw [gatePipe?_of_gate hg, hp]
  have hh := hu.holder h hk hst haim hgp
  have hq := hclear g hgp
  rw [waiters_gate hg] at hq
  rw [holder?, hg, Option.bind_some] at hh
  exact isOpen_of_queue_nil hh hq

/-- In its turn, too, a task finds the gate open that it asks. -/
theorem Poised.isOpen {s₁ : Session} (hp : Poised s t task none s₁) (h : Sound s none none)
    (hu : s.Uncontended p) (hclear : s.Clear p) (hk : s.tasks[t]? = some task)
    (hst : task.stage = .fresh) {q : Sink.Request} (haim : s.Aims task.call (.gate g) q)
    (hgp : s.gatePipe? g = some p) {gate : Gate} (hg : s₁.gates[g]? = some gate) :
    gate.isOpen = true := by
  have hholder : s₁.holder? g = none := by
    cases hh : s₁.holder? g with
    | none => rfl
    | some u =>
      have hgate := (hp.sound.guarded g u).1 hh
      by_cases hut : u = t
      · subst hut
        rw [gateOf_self] at hgate
        cases hgate
      · have hfree := hu.holder h hk hst haim hgp
        rw [gateOf_of_ne _ _ hut, stage?, hp.others u hut] at hgate
        rw [(h.guarded g u).2 (by rw [gateOf_none]; exact hgate)] at hfree
        cases hfree
  have hline := hp.onset.line (.gate g)
  rw [line, line, hclear g hgp, waiters_gate hg] at hline
  rw [holder?, hg, Option.bind_some] at hholder
  exact isOpen_of_queue_nil hholder (List.map_eq_nil_iff.1 hline)

/-- A turn makes nobody queue for a gate before the pipe. -/
theorem Clear.turn (hclear : s.Clear p) (h : Sound s none none) (hu : s.Uncontended p) :
    s.turn.Clear p := by
  obtain ⟨-, he⟩ | ⟨n, k, rest, -, he⟩ | ⟨t, rest, task, hr, hk, -, hc⟩ := turn_cases h
  · rw [he]
    exact hclear
  · rw [he]
    exact hclear.congr rfl
  · intro g hgp
    have hgp₀ : s.gatePipe? g = some p := by rw [← gatePipe?_turn h]; exact hgp
    have hplace : s.turn.place? t ≠ some (.gate g) := by
      generalize s.turn = s' at hc
      cases hc with
      | @cancelled s₁ hp =>
        obtain ⟨entry, hk⟩ := hp.task
        have hplace : (s₁.finish t (.error .cancelled)).place? t = none :=
          place?_of_stage (stage?_setStage hk _)
        rw [hplace]
        simp
      | answered hp hcan hv hst outcome =>
        obtain ⟨entry, hk⟩ := hp.task
        rw [place?_of_task (task_complete hk outcome), Task.place?_after]
        simp
      | @queued s₁ g' gate q hp hcan hv hst hg hopen haim =>
        obtain ⟨entry, hk₁⟩ := hp.task
        intro hpl
        have hplace : (s₁.queue t g' (.ofSink q)).place? t = some (.gate g') :=
          place?_of_stage (stage?_setStage hk₁ _)
        cases hpl.symm.trans hplace
        rw [hp.isOpen h hu hclear hk hst haim hgp₀ hg] at hopen
        cases hopen
      | @served s₁ held q r b hp hcan hv hb hpur =>
        obtain ⟨again, -, he, hst⟩ | ⟨outcome, entry, -, he, hk⟩ := hp.serve_cases hb r
        · rw [he, place?_of_stage hst]
          simp [Stage.place?]
        · rw [he, place?_of_task (task_complete hk outcome), Task.place?_after]
          simp
    have hafter := hc.line (.gate g)
    rw [show s.line (.gate g) = [] by rw [line, hclear g hgp₀]; rfl, if_neg hplace] at hafter
    exact List.map_eq_nil_iff.1 hafter

/-- Nothing that is done from outside makes anybody queue for a gate. -/
theorem Clear.move (hclear : s.Clear p) (h : Sound s none none) (hm : Move s s') : s'.Clear p := by
  intro g hg
  have hline : s.line (.gate g) = [] := by
    cases hgate : s.gates[g]? with
    | none => rw [line, waiters_eq_nil_of_gate hgate]; rfl
    | some gate =>
      have hg' := (hm.extends h).gatePipe g _ (gatePipe?_of_gate hgate)
      cases hg.symm.trans hg'
      rw [line, hclear g (gatePipe?_of_gate hgate)]
      rfl
  rw [← hm.line h] at hline
  exact List.map_eq_nil_iff.1 hline

/-! ### Who is at work on the write end -/

/-- Whoever is at work on the write end is so in what remains of the session. -/
theorem writes_bare : (s.bare p).Writes p (task.bare s.layout p) ↔ s.Writes p task := by
  have hlead : ∀ b, (s.bare p).LeadsTo b p ↔ s.LeadsTo b p := fun b => by
    rw [LeadsTo, bare, gatePipe?_bareBy, LeadsTo]
  rw [Writes, Writes, isUnfinished_bare]
  refine and_congr_right fun _ => ?_
  rcases task.call.bare_cases s.layout p with hc | ⟨r, g, hc⟩
  · simp only [show (task.bare s.layout p).call = task.call from hc, hlead]
    rfl
  · rw [show (task.bare s.layout p).call = .backing (.pipe p) r from hc.bare]
    refine ⟨fun _ => ?_, fun _ => ⟨.pipe p, r, .inl rfl, .inl rfl⟩⟩
    generalize task.call = c at hc
    cases hc with
    | backing hg => exact ⟨.gate g, r, .inl rfl, .inr ⟨g, rfl, hg⟩⟩
    | outlet ho hg => exact ⟨.gate g, r, .inr ⟨_, _, rfl, ho, rfl⟩, .inr ⟨g, rfl, hg⟩⟩

theorem uncontended_bare : (s.bare p).Uncontended p ↔ s.Uncontended p := by
  have htask : ∀ t : Nat, (s.bare p).tasks[t]? = (s.tasks[t]?).map (Task.bare s.layout p) :=
    task_bareBy s.layout p s
  constructor
  · intro h t u task task' hk hk' hw hw'
    exact h t u _ _ (by rw [htask, hk]; rfl) (by rw [htask, hk']; rfl) (writes_bare.2 hw)
      (writes_bare.2 hw')
  · intro h t u task task' hk hk' hw hw'
    rw [htask] at hk hk'
    obtain ⟨task₀, hk₀, rfl⟩ := Option.map_eq_some_iff.1 hk
    obtain ⟨task₀', hk₀', rfl⟩ := Option.map_eq_some_iff.1 hk'
    exact h t u _ _ hk₀ hk₀' (writes_bare.1 hw) (writes_bare.1 hw')

/-- Whoever is at work on the write end when there is more was so before. -/
theorem Extends.writes (he : Extends s s') (h : Sound s none none) (hc : s.Fits task.call)
    (hw : s'.Writes p task) : s.Writes p task := by
  obtain ⟨hun, b, q, haim, hlead⟩ := hw
  have haim₀ : s.Aims task.call b q := by
    rcases haim with hop | ⟨o, x', hop, hx', hb⟩
    · exact .inl hop
    · obtain ⟨x, hx⟩ := hc.onOutlet hop
      obtain ⟨x'', hx'', hb'⟩ := he.outlet o x hx
      cases hx'.symm.trans hx''
      exact .inr ⟨o, x, hop, hx, hb'.symm.trans hb⟩
  have hhas : s.Has b := by
    rcases haim₀ with hop | ⟨o, x, -, hx, hb⟩
    · exact hc.onBacking hop
    · exact (h.housed.backing x (List.mem_of_getElem? hx) b hb).1
  refine ⟨hun, b, q, haim₀, hlead.imp_right fun ⟨g, hb, hg⟩ => ⟨g, hb, ?_⟩⟩
  subst hb
  obtain ⟨q, hq⟩ := hhas
  rw [← hg, he.gatePipe g q hq, hq]

/-- What is done from outside sets nobody to work, unless a call is made. -/
theorem Uncontended.move (hu : s.Uncontended p) (h : Sound s none none) (hm : Move s s')
    (hlen : s'.tasks.length = s.tasks.length) : s'.Uncontended p := by
  have hold : ∀ (t : Nat) task', s'.tasks[t]? = some task' → s'.Writes p task' →
      ∃ task, s.tasks[t]? = some task ∧ s.Writes p task := by
    intro t task' hk' hw
    rcases hm.task h hk' with ⟨task, hk, hcall, hstage, -⟩ | ⟨hnone, -⟩
    · have hfits := h.employed.fits t task hk
      have hw₀ : s.Writes p task' := (hm.extends h).writes h (hcall ▸ hfits) hw
      rw [Writes, hcall, Task.isUnfinished_iff, hstage, ← Task.isUnfinished_iff] at hw₀
      exact ⟨task, hk, hw₀⟩
    · obtain ⟨hlt, -⟩ := List.getElem?_eq_some_iff.1 hk'
      rw [List.getElem?_eq_none_iff] at hnone
      omega
  intro t u task task' hk hk' hw hw'
  obtain ⟨task₀, hk₀, hw₀⟩ := hold t task hk hw
  obtain ⟨task₀', hk₀', hw₀'⟩ := hold u task' hk' hw'
  exact hu t u _ _ hk₀ hk₀' hw₀ hw₀'

/-! ### Side by side -/

/-- What remains of two sessions without the gates of a pipe is the same, and it is uncontended. -/
structure Twin (p : Nat) (s s' : Session) : Prop where
  reachable : s.Reachable
  reachable' : s'.Reachable
  bare : s.bare p = s'.bare p
  clear : s.Clear p
  clear' : s'.Clear p
  alone : s.Uncontended p

namespace Twin

theorem alone' (h : Twin p s s') : s'.Uncontended p := by
  have hbare := uncontended_bare.2 h.alone
  rw [h.bare] at hbare
  exact uncontended_bare.1 hbare

theorem layout_eq (h : Twin p s s') : s.layout = s'.layout := by
  have hlayout := congrArg layout h.bare
  rw [Session.bare, Session.bare, layout_bareBy, layout_bareBy] at hlayout
  exact hlayout

theorem outlets_eq (h : Twin p s s') : s.outlets = s'.outlets := congrArg Layout.outlets h.layout_eq

theorem gatePipe_eq (h : Twin p s s') : s.gatePipe? = s'.gatePipe? :=
  congrArg Layout.gatePipe? h.layout_eq

theorem channels_eq (h : Twin p s s') : s.channels = s'.channels :=
  show (s.bare p).channels = (s'.bare p).channels by rw [h.bare]

/-- What is there in one session is there in the other. -/
theorem has (h : Twin p s s') {b : Backing} (hb : s.Has b) : s'.Has b := by
  cases b with
  | stream n => trivial
  | gate g =>
    obtain ⟨q, hq⟩ := hb
    exact ⟨q, h.gatePipe_eq ▸ hq⟩
  | pipe q =>
    obtain ⟨x, hx⟩ := hb
    exact ⟨x, by rw [pipe?, ← h.channels_eq]; exact hx⟩

theorem fits (h : Twin p s s') {c : Call} (hc : s.Fits c) : s'.Fits c := by
  have ho : ∀ (o : Nat), (∃ x, s.outlets[o]? = some x) → ∃ x, s'.outlets[o]? = some x :=
    fun o hx => h.outlets_eq ▸ hx
  cases c with
  | idle => trivial
  | backing b r => exact h.has (b := b) hc
  | outlet o r => exact ho o hc
  | writeAll o rest => exact ho o hc
  | read q limit => exact h.has (b := .pipe q) hc
  | readLine q => exact h.has (b := .pipe q) hc
  | close q => exact h.has (b := .pipe q) hc
  | nextLine q => exact h.has (b := .pipe q) hc
  | lines q got => exact h.has (b := .pipe q) hc
  | forward q limit o total leg => exact ⟨h.has (b := .pipe q) hc.1, ho o hc.2⟩

/-- The same is done to both from outside. -/
theorem move (h : Twin p s s') {s₁ s₁' : Session} (hm : Move s s₁) (hm' : Move s' s₁')
    (hb : s₁.bare p = s₁'.bare p) (hu : s₁.Uncontended p) : Twin p s₁ s₁' :=
  ⟨h.reachable.move hm, h.reachable'.move hm', hb, h.clear.move h.reachable.sound hm,
    h.clear'.move h.reachable'.sound hm', hu⟩

/-- The same is done to both from outside, and no call is made. -/
theorem move_of_length (h : Twin p s s') {s₁ s₁' : Session} (hm : Move s s₁) (hm' : Move s' s₁')
    (hb : s₁.bare p = s₁'.bare p) (hlen : s₁.tasks.length = s.tasks.length) : Twin p s₁ s₁' :=
  h.move hm hm' hb (h.alone.move h.reachable.sound hm hlen)

/-- The same task has its turn in both. -/
theorem turn (h : Twin p s s') {rest rest' : List Job} (hr : s.ready = .task t :: rest)
    (hr' : s'.ready = .task t :: rest') (hu : s.turn.Uncontended p) : Twin p s.turn s'.turn := by
  have hs := h.reachable.sound
  have hs' := h.reachable'.sound
  obtain ⟨task, hk, -⟩ := exists_task hs hr
  obtain ⟨task', hk', -⟩ := exists_task hs' hr'
  have hb := bare_turn hs h.clear hr hk (h.alone.admits hs h.clear hk)
  have hb' := bare_turn hs' h.clear' hr' hk' (h.alone'.admits hs' h.clear' hk')
  rw [← h.bare, ← h.layout_eq] at hb'
  exact ⟨h.reachable.turn, h.reachable'.turn, hb.trans hb'.symm, h.clear.turn hs h.alone,
    h.clear'.turn hs' h.alone', hu⟩

/-- One of the two records a notice. -/
theorem left (h : Twin p s s') {n : Notice} {copies : Nat} {rest : List Job}
    (hr : s.ready = .deliver n copies :: rest) : Twin p s.turn s' := by
  have hb := bare_turn_deliver (p := p) hr
  have hu : s.turn.Uncontended p := by
    rw [← uncontended_bare, hb, uncontended_bare]
    exact h.alone
  exact ⟨h.reachable.turn, h.reachable', hb.trans h.bare, h.clear.turn h.reachable.sound h.alone,
    h.clear', hu⟩

theorem right (h : Twin p s s') {n : Notice} {copies : Nat} {rest : List Job}
    (hr : s'.ready = .deliver n copies :: rest) : Twin p s s'.turn :=
  ⟨h.reachable, h.reachable'.turn, h.bare.trans (bare_turn_deliver hr).symm, h.clear,
    h.clear'.turn h.reachable'.sound h.alone', h.alone⟩

end Twin

/-- A request is made to the write end itself in what remains. -/
theorem Reaches.bare {r : Sink.Request} {c : Call} (h : s.Reaches p r c) :
    c.bare s.layout p = .backing (.pipe p) r := by
  cases h with
  | direct => rfl
  | gate hg => exact Call.Gated.bare (.backing hg)
  | outlet ho hg => exact Call.Gated.bare (.outlet ho hg)

/-- What one way to the write end needs, every other one has. -/
theorem Reaches.fits {r : Sink.Request} {c c' : Call} (h : s.Reaches p r c) (hs : Sound s none none)
    (hc : s.Fits c) (h' : s.Reaches p r c') : s.Fits c' := by
  have hp : s.Has (.pipe p) := by
    cases h with
    | direct => exact hc
    | gate hg => exact hs.housed.gatePipe _ p hg
    | outlet ho hg => exact hs.housed.gatePipe _ p hg
  cases h' with
  | direct => exact hp
  | gate hg => exact ⟨p, hg⟩
  | outlet ho hg => exact ⟨_, ho⟩

/-- The two stay twins, whatever is done to them. -/
theorem Beside.twin (h : Beside p s s') : Twin p s s' := by
  induction h with
  | start out err =>
    have hr := reachable_start out err
    have hclear : (Session.start out err).Clear p := fun g hg => by cases hg
    exact ⟨hr, hr, rfl, hclear, hclear, fun t u task task' hk => by cases hk⟩
  | addPipe h hb ih =>
    refine ih.move_of_length (.addPipe hb) (.addPipe hb) ?_ rfl
    rw [bare_addPipe, ih.bare, bare_addPipe]
  | addGate h hq ih =>
    refine ih.move_of_length (.addGate hq) (.addGate (ih.has hq)) ?_ rfl
    rw [bare_addGate ih.reachable.sound, ih.bare, bare_addGate ih.reachable'.sound]
  | addOutlet h hx ih =>
    refine ih.move_of_length (.addOutlet hx)
      (.addOutlet fun b hb => ⟨ih.has (hx b hb).1, (hx b hb).2⟩) ?_ rfl
    rw [bare_addOutlet ih.reachable.sound, ih.bare, bare_addOutlet ih.reachable'.sound]
  | retarget h name hx hgate ih =>
    have hx' := hx
    rw [ih.outlets_eq] at hx'
    refine ih.move_of_length (.retarget name hx) (.retarget name hx') ?_ rfl
    rw [bare_retarget ih.reachable.sound name hx hgate, ih.bare, ih.outlets_eq,
      bare_retarget ih.reachable'.sound name hx' fun g hg => ih.gatePipe_eq ▸ hgate g hg]
  | spawn h hc hu ih =>
    refine ih.move (.spawn hc) (.spawn (ih.fits hc)) ?_ hu
    rw [bare_spawn, bare_spawn, ih.bare, ih.layout_eq]
  | @request s s' r c c' h hc hr hr' hu ih =>
    have hc' := hr.fits ih.reachable.sound hc hr'
    refine ih.move (.spawn hc) (.spawn (ih.fits hc')) ?_ hu
    rw [bare_spawn, bare_spawn, ih.bare, ← ih.layout_eq, hr.bare, hr'.bare]
  | cancel h t ih =>
    have hb := (bare_cancel ih.clear t).1
    rw [ih.bare] at hb
    exact ih.move_of_length (.cancel ..) (.cancel ..) (hb.trans (bare_cancel ih.clear' t).1.symm)
      (length_cancel ih.reachable.sound t)
  | post h n ih =>
    refine ih.move_of_length (.post ..) (.post ..) ?_ (by rw [(fields_post ..).2.2.2])
    rw [bare_post, ih.bare, bare_post]
  | @record s s' io io' h journal journal' hio ih =>
    have hb : ({ s.bare p with stdio := io.bare } : Session) =
        { s'.bare p with stdio := io'.bare } := by rw [ih.bare, hio]
    exact ih.move_of_length (.record ..) (.record ..) hb rfl
  | both h hr hr' hu ih => exact ih.turn hr hr' hu
  | left h hr ih => exact ih.left hr
  | right h hr ih => exact ih.right hr

/-- What is the same in two sessions but for the gates of a pipe and for what is noted down. -/
structure Same (p : Nat) (s s' : Session) : Prop where
  /-- The pipes, and those who wait for them. -/
  channels : s'.channels = s.channels
  outlets : s'.outlets = s.outlets
  gates : ∀ g, s.gatePipe? g ≠ some p → s'.gates[g]? = s.gates[g]?
  /-- Nobody queues for a gate before the pipe. -/
  queues : ∀ g, s.gatePipe? g = some p → s.waiters (.gate g) = [] ∧ s'.waiters (.gate g) = []
  /-- Which tasks have ended, and how. -/
  outcomes : s'.tasks.map Task.outcome? = s.tasks.map Task.outcome?
  /-- Which tasks wait, and where. -/
  places : s'.place? = s.place?
  /-- The tasks that are to run, in order. -/
  turns : s'.ready.filter Job.isTask = s.ready.filter Job.isTask
  endings : s'.endings = s.endings
  /-- What asking a task to end returns. -/
  cancels : ∀ t, (s'.cancel t).2 = (s.cancel t).2
  /-- What the standard streams answer. -/
  stdio : s'.stdio.bare = s.stdio.bare

theorem Twin.same (h : Twin p s s') : Same p s s' := by
  have hf : ∀ {α : Type} (f : Session → α), f (s'.bare p) = f (s.bare p) := fun f => by rw [h.bare]
  have houtcomes : ∀ s : Session, (s.bare p).tasks.map Task.outcome? = s.tasks.map Task.outcome? := by
    intro s
    simp only [Session.bare, bareBy, List.map_map]
    refine List.map_congr_left fun task _ => ?_
    obtain ⟨c, st, d, v⟩ := task
    cases st <;> rfl
  have hplaces : ∀ s : Session, (s.bare p).place? = s.place? := by
    intro s
    funext t
    rw [place?, stage?, Session.bare, task_bareBy, place?, stage?]
    cases s.tasks[t]? with
    | none => rfl
    | some task => exact place?_bare p task.stage
  have hgates : ∀ (s : Session) g, s.gatePipe? g ≠ some p → (s.bare p).gates[g]? = s.gates[g]? := by
    intro s g hg
    cases hgate : s.gates[g]? with
    | none => simp only [Session.bare, bareBy, List.getElem?_map, hgate]; rfl
    | some gate =>
      rw [gatePipe?_of_gate hgate, ne_eq, Option.some.injEq] at hg
      rw [Session.bare, gate_bareBy s.layout p hgate, bare_of_pipe_ne hg]
  refine ⟨hf channels, hf outlets, fun g hg => ?_, fun g hg => ⟨h.clear g hg, h.clear' g ?_⟩, ?_, ?_,
    hf ready, hf endings, fun t => ?_, hf stdio⟩
  · rw [← hgates s g hg, ← hgates s' g (h.gatePipe_eq ▸ hg), h.bare]
  · rw [← h.gatePipe_eq, hg]
  · rw [← houtcomes s', ← houtcomes s, h.bare]
  · rw [← hplaces s', ← hplaces s, h.bare]
  · rw [← (bare_cancel h.clear t).2, ← (bare_cancel h.clear' t).2, h.bare]

/-! ### Following each other -/

/-- It does not matter which of the two is which. -/
theorem Beside.symm (h : Beside p s s') : Beside p s' s := by
  induction h with
  | start out err => exact .start out err
  | addPipe h hb ih => exact .addPipe ih hb
  | addGate h hq ih => exact .addGate ih (h.twin.has hq)
  | addOutlet h hx ih => exact .addOutlet ih fun b hb => ⟨h.twin.has (hx b hb).1, (hx b hb).2⟩
  | retarget h name hx hgate ih =>
    refine .retarget ih name (h.twin.outlets_eq ▸ hx) fun g hg => ?_
    exact h.twin.gatePipe_eq ▸ hgate g hg
  | spawn h hc hu ih => exact .spawn ih (h.twin.fits hc) (h.spawn hc hu).twin.alone'
  | @request s s' r c c' h hc hr hr' hu ih =>
    have hreach : ∀ {c}, s.Reaches p r c → s'.Reaches p r c := by
      intro c hc
      cases hc with
      | direct => exact .direct
      | gate hg => exact .gate (h.twin.gatePipe_eq ▸ hg)
      | outlet ho hg => exact .outlet (h.twin.outlets_eq ▸ ho) (h.twin.gatePipe_eq ▸ hg)
    exact .request ih (h.twin.fits (hr.fits h.twin.reachable.sound hc hr')) (hreach hr') (hreach hr)
      (h.request hc hr hr' hu).twin.alone'
  | cancel h t ih => exact .cancel ih t
  | post h n ih => exact .post ih n
  | record h journal journal' hio ih => exact .record ih journal' journal hio.symm
  | both h hr hr' hu ih => exact .both ih hr' hr (h.both hr hr' hu).twin.alone'
  | left h hr ih => exact .right ih hr
  | right h hr ih => exact .left ih hr

/-- The notices that come before the next turn of a task are recorded. -/
theorem Beside.record_all (h : Beside p s s') : ∃ n, Beside p s (turn^[n] s') ∧
    ((turn^[n] s').ready = [] ∨ ∃ t rest, (turn^[n] s').ready = .task t :: rest) := by
  generalize hl : s'.ready = l
  induction l generalizing s' with
  | nil => exact ⟨0, h, .inl hl⟩
  | cons job rest ih =>
    cases job with
    | task t => exact ⟨0, h, .inr ⟨t, rest, hl⟩⟩
    | deliver n copies =>
      have hturn : s'.turn.ready = rest := by simp only [Session.turn, hl, deliver]
      obtain ⟨n, hb, hready⟩ := ih (h.right hl) hturn
      exact ⟨n + 1, hb, hready⟩

/-- Where a task is next in one of the two, it comes next in the other. -/
theorem Beside.next (h : Beside p s s') {rest : List Job} (hr : s.ready = .task t :: rest) :
    ∃ n rest', Beside p s (turn^[n] s') ∧ (turn^[n] s').ready = .task t :: rest' := by
  obtain ⟨n, hb, hready⟩ := h.record_all
  have hturns := hb.twin.same.turns
  rw [hr] at hturns
  rcases hready with hnil | ⟨u, rest', hu⟩
  · rw [hnil] at hturns
    cases hturns
  · rw [hu] at hturns
    cases (List.cons.inj hturns).1
    exact ⟨n, rest', hb, hu⟩

/-- As long as it is uncontended, one of the two follows the turns of the other. -/
theorem Beside.follow (h : Beside p s s') {n : Nat} (hu : ∀ m ≤ n, (turn^[m] s).Uncontended p) :
    ∃ n', Beside p (turn^[n] s) (turn^[n'] s') := by
  induction n generalizing s s' with
  | zero => exact ⟨0, h⟩
  | succ n ih =>
    have hrest : ∀ m ≤ n, (turn^[m] s.turn).Uncontended p := fun m hm => hu (m + 1) (by omega)
    cases hr : s.ready with
    | nil =>
      have hs : s.turn = s := by simp only [Session.turn, hr]
      rw [Function.iterate_succ_apply, hs]
      rw [hs] at hrest
      exact ih h hrest
    | cons job rest =>
      cases job with
      | deliver n copies => exact ih (h.left hr) hrest
      | task t =>
        obtain ⟨m, rest', hb, hr'⟩ := h.next hr
        obtain ⟨n', hn'⟩ := ih (hb.both hr hr' (hu 1 (by omega))) hrest
        have hiter : turn^[n' + 1 + m] s' = turn^[n'] (turn^[m] s').turn :=
          Function.iterate_add_apply ..
        refine ⟨n' + 1 + m, ?_⟩
        rw [hiter]
        exact hn'

/-- A session that has settled stays as it is. -/
theorem iterate_turn_eq {m n : Nat} (hm : (turn^[m] s).ready = []) (hn : (turn^[n] s).ready = []) :
    turn^[m] s = turn^[n] s := by
  have hle : ∀ {m n : Nat}, m ≤ n → (turn^[m] s).ready = [] → turn^[n] s = turn^[m] s := by
    intro m n hle hm
    obtain ⟨k, rfl⟩ := Nat.exists_eq_add_of_le' hle
    rw [Function.iterate_add_apply]
    exact Function.iterate_fixed (by simp only [Session.turn, hm]) k
  rcases Nat.le_total m n with hmn | hmn
  · exact (hle hmn hm).symm
  · exact hle hmn hn

/-- When both have settled, they are side by side again. -/
theorem Beside.settled (h : Beside p s s') (hu : ∀ n, (turn^[n] s).Uncontended p) {n n' : Nat}
    (hn : (turn^[n] s).ready = []) (hn' : (turn^[n'] s').ready = []) :
    Beside p (turn^[n] s) (turn^[n'] s') := by
  obtain ⟨m, hb⟩ := h.follow fun k (_ : k ≤ n) => hu k
  obtain ⟨k, hb, hready⟩ := hb.record_all
  rw [← Function.iterate_add_apply] at hb hready
  have hsettled : (turn^[k + m] s').ready = [] := by
    rcases hready with hnil | ⟨t, rest, ht⟩
    · exact hnil
    · have hturns := hb.twin.same.turns
      rw [hn, ht] at hturns
      cases hturns
  rw [iterate_turn_eq hn' hsettled]
  exact hb

/-- Let the same be done to two sessions, except that requests to the write end of a pipe go through a gate or
an outlet in the one and to the write end itself, or through another gate, in the other, and let no two tasks
be at work on the write end at a time.  Then the pipes and those who wait for them, the outcomes of all tasks,
the order in which they end and the order in which they are to run are the same at all times, and nobody ever
queues for a gate before the pipe.  The same holds the other way round, and whatever turns are taken in the
one session, there are turns of the other that lead to the same; so when both have settled, they are the
same. -/
theorem gates_make_no_difference (h : Beside p s s') :
    Same p s s' ∧ Beside p s' s ∧ ((∀ n, (turn^[n] s).Uncontended p) →
      (∀ n, ∃ n', Beside p (turn^[n] s) (turn^[n'] s')) ∧
      ∀ n n', (turn^[n] s).ready = [] → (turn^[n'] s').ready = [] →
        Beside p (turn^[n] s) (turn^[n'] s')) :=
  ⟨h.twin.same, h.symm, fun hu =>
    ⟨fun _ => h.follow fun m _ => hu m, fun _ _ hn hn' => h.settled hu hn hn'⟩⟩

/-- A pipe for one byte with an outlet. -/
def piped : Session :=
  let s := ((start .plain .plain).addPipe (.empty 1)).1
  let s := (s.addGate 0).1
  (s.addOutlet (.ofGate 0)).1

/-- A task that is to write two bytes through the outlet. -/
def writesThroughOutlet : Session := (piped.spawn (.outlet 0 (.write [1, 2]))).1

/-- A task that is to write them to the write end. -/
def writesDirectly : Session := (piped.spawn (.backing (.pipe 0) (.write [1, 2]))).1

theorem uncontended_of_length (h : s.tasks.length ≤ 1) (p : Nat) : s.Uncontended p := by
  intro t u task task' hk hk' _ _
  obtain ⟨ht, -⟩ := List.getElem?_eq_some_iff.1 hk
  obtain ⟨hu, -⟩ := List.getElem?_eq_some_iff.1 hk'
  omega

theorem length_iterate_turn (h : Sound s none none) (n : Nat) :
    (turn^[n] s).tasks.length = s.tasks.length := by
  induction n generalizing s with
  | zero => rfl
  | succ n ih => exact (ih h.turn).trans (length_turn h)

theorem beside_piped : Beside 0 piped piped := by
  have hp : Pipe.create? 1 = some (.empty 1) := rfl
  have h₁ := (Beside.start .plain .plain (p := 0)).addPipe hp
  have h₂ := h₁.addGate (q := 0) ⟨_, rfl⟩
  refine h₂.addOutlet (x := .ofGate 0) fun b hb => ?_
  cases hb
  exact ⟨⟨_, rfl⟩, by simp [Outlet.ofGate]⟩

theorem beside_writes : Beside 0 writesThroughOutlet writesDirectly :=
  beside_piped.request (r := .write [1, 2]) ⟨_, rfl⟩ (.outlet rfl rfl) .direct
    (uncontended_of_length (s := writesThroughOutlet) (Nat.le_refl 1) 0)

/-- One byte is written in either way, and then both have settled. -/
theorem writes_alike : Beside 0 writesThroughOutlet.turn writesDirectly.turn ∧
    writesDirectly.turn.tasks.map Task.outcome? = [some (.ok (.count 1))] := by
  have hu : ∀ n, (turn^[n] writesThroughOutlet).Uncontended 0 := fun n =>
    uncontended_of_length (Nat.le_of_eq (length_iterate_turn beside_writes.twin.reachable.sound n)) 0
  have hb := ((gates_make_no_difference beside_writes).2.2 hu).2 1 1 rfl rfl
  exact ⟨hb, (gates_make_no_difference hb).1.outcomes.trans rfl⟩

end Outflow.Session
