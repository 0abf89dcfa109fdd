import Outflow.Proofs.Session.Turn

/-!
# Every session is sound

* `cancel_eq`, `cancel_cases`, `fields_cancel`: what asking a task to end comes to;
* `Sound.addMember`, `Sound.spawn`, `Sound.cancel`: what is done to a session from outside;
* `Reachable.sound`: every session that a run leads to is sound.
-/

namespace Outflow.Session

variable {s s' : Session} {t g p : Nat}

/-! ### New members -/

/-- Members are added or get other names, and nothing else changes. -/
theorem Sound.addMember (h : Sound s none none) (hw : s'.waiters = s.waiters)
    (hh : s'.holder? = s.holder?) (ht : s'.tasks = s.tasks) (hr : s'.ready = s.ready)
    (he : Extends s s') (hp : ∀ p b, s.pipe? p = some b → s'.pipe? p = some b)
    (hhoused : Housed s') : Sound s' none none := by
  have hs := stage?_congr ht
  refine ⟨⟨h.placed.congr hw hs ?_ fun _ _ _ _ => ?_, h.guarded.congr hh hs, ?_, hhoused,
    h.employed.congr he ht⟩, fun g => ?_⟩
  · funext u
    rw [turnsOf, hr, turnsOf]
  · rw [isCancelling_congr ht]
  · intro p w hwp hm
    rw [hw] at hwp
    obtain ⟨gate, r, b, hst, hb, hrf⟩ := h.refused p w hwp hm
    exact ⟨gate, r, b, by rw [hs, hst], hp p b hb, hrf⟩
  · rw [hh, hw]
    exact h.ordered g

theorem getElem?_concat_of_ne {α : Type} {l : List α} {a : α} {i : Nat} (h : i ≠ l.length) :
    (l ++ [a])[i]? = l[i]? := by
  rw [List.getElem?_append]
  split
  · rfl
  · rw [List.getElem?_eq_none (by rw [List.length_singleton]; omega),
      List.getElem?_eq_none (by omega)]

/-- What an addition to the end of a list does to a place in it. -/
theorem getElem?_concat_cases {α : Type} {l : List α} {a x : α} {i : Nat}
    (h : (l ++ [a])[i]? = some x) : l[i]? = some x ∨ (i = l.length ∧ x = a) := by
  by_cases hi : i = l.length
  · subst hi
    rw [List.getElem?_concat_length] at h
    exact .inr ⟨rfl, (Option.some.inj h).symm⟩
  · rw [getElem?_concat_of_ne hi] at h
    exact .inl h

theorem pipe?_addPipe {x : Pipe} (b : Pipe) (hx : s.pipe? p = some x) :
    (s.addPipe b).1.pipe? p = some x := by
  obtain ⟨c, hc, rfl⟩ := Option.map_eq_some_iff.1 hx
  obtain ⟨hlt, -⟩ := List.getElem?_eq_some_iff.1 hc
  rw [pipe?, Session.addPipe, List.getElem?_append_left hlt, hc, Option.map_some]

theorem extends_addPipe (s : Session) (b : Pipe) : Extends s (s.addPipe b).1 :=
  .of_eq rfl (fun _ x hx => ⟨x, pipe?_addPipe b hx⟩) rfl

theorem waiters_addPipe (s : Session) (b : Pipe) : (s.addPipe b).1.waiters = s.waiters := by
  funext a
  cases a with
  | gate g => rfl
  | pipe q =>
    rw [waiters, waiters, Session.addPipe, List.getElem?_append]
    split
    · rfl
    · rename_i hq
      rw [List.getElem?_eq_none (by omega : s.channels.length ≤ q)]
      cases q - s.channels.length <;> rfl

theorem Sound.addPipe (h : Sound s none none) {capacity : Int} {b : Pipe}
    (hb : Pipe.create? capacity = some b) : Sound (s.addPipe b).1 none none := by
  have hw := waiters_addPipe s b
  have he := extends_addPipe s b
  refine h.addMember hw rfl rfl rfl he (fun _ _ hx => pipe?_addPipe b hx)
    (h.housed.congr he rfl rfl fun q x hx => ?_)
  obtain ⟨c, hc, rfl⟩ := Option.map_eq_some_iff.1 hx
  rcases getElem?_concat_cases hc with hold | ⟨-, rfl⟩
  · exact h.housed.valid q c.pipe (by rw [pipe?, hold]; rfl)
  · exact Pipe.valid_of_create? hb

theorem extends_addGate (s : Session) (p : Nat) : Extends s (s.addGate p).1 := by
  refine ⟨fun g q hq => ?_, fun q x hx => ⟨x, hx⟩, fun o x hx => ⟨x, hx, rfl⟩⟩
  obtain ⟨gate, hgate, rfl⟩ := Option.map_eq_some_iff.1 hq
  obtain ⟨hlt, -⟩ := List.getElem?_eq_some_iff.1 hgate
  rw [gatePipe?, Session.addGate, List.getElem?_append_left hlt, hgate, Option.map_some]

theorem waiters_addGate (s : Session) (p : Nat) : (s.addGate p).1.waiters = s.waiters := by
  funext a
  cases a with
  | pipe q => rfl
  | gate g =>
    rw [waiters, waiters, Session.addGate, List.getElem?_append]
    split
    · rfl
    · rename_i hlen
      rw [List.getElem?_eq_none (by omega : s.gates.length ≤ g)]
      cases g - s.gates.length <;> rfl

theorem Sound.addGate (h : Sound s none none) (hp : s.Has (.pipe p)) :
    Sound (s.addGate p).1 none none := by
  have hw := waiters_addGate s p
  have hh : (s.addGate p).1.holder? = s.holder? := by
    funext g
    rw [holder?, holder?, Session.addGate, List.getElem?_append]
    split
    · rfl
    · rename_i hlen
      rw [List.getElem?_eq_none (by omega : s.gates.length ≤ g)]
      cases g - s.gates.length <;> rfl
  have he := extends_addGate s p
  refine h.addMember hw hh rfl rfl he (fun q x hx => hx)
    ⟨fun g q hq => ?_, fun x hx b hb => ?_, h.housed.valid⟩
  · obtain ⟨gate, hgate, rfl⟩ := Option.map_eq_some_iff.1 hq
    rcases getElem?_concat_cases hgate with hold | ⟨-, rfl⟩
    · exact he.has (h.housed.gatePipe g gate.pipe (by rw [gatePipe?, hold]; rfl))
    · exact he.has hp
  · obtain ⟨h₁, h₂⟩ := h.housed.backing x hx b hb
    exact ⟨he.has h₁, h₂⟩

theorem extends_addOutlet (s : Session) (o : Outlet) : Extends s (s.addOutlet o).1 := by
  refine ⟨fun g q hq => hq, fun q x hx => ⟨x, hx⟩, fun i x hx => ⟨x, ?_, rfl⟩⟩
  obtain ⟨hlt, -⟩ := List.getElem?_eq_some_iff.1 hx
  rw [Session.addOutlet, List.getElem?_append_left hlt, hx]

theorem Sound.addOutlet (h : Sound s none none) {o : Outlet}
    (ho : ∀ b, o.backing = some b → s.Has b ∧ o.destination ≠ .null) :
    Sound (s.addOutlet o).1 none none := by
  refine h.addMember rfl rfl rfl rfl (extends_addOutlet s o) (fun q x hx => hx)
    ⟨h.housed.gatePipe, fun x hx b' hb' => ?_, h.housed.valid⟩
  rcases List.mem_append.1 hx with hx | hx
  · exact h.housed.backing x hx b' hb'
  · rw [List.mem_singleton.1 hx] at hb' ⊢
    exact ho b' hb'

theorem extends_retarget {place : Nat} {o : Outlet} (name : String) (ho : s.outlets[place]? = some o) :
    Extends s { s with outlets := s.outlets.set place { o with destination := .other name } } := by
  obtain ⟨hlt, -⟩ := List.getElem?_eq_some_iff.1 ho
  refine ⟨fun g q hq => hq, fun q x hx => ⟨x, hx⟩, fun i x hx => ?_⟩
  by_cases hi : place = i
  · subst hi
    rw [ho] at hx
    cases hx
    exact ⟨_, List.getElem?_set_self hlt, rfl⟩
  · exact ⟨x, by rw [List.getElem?_set_ne hi, hx], rfl⟩

theorem Sound.retarget (h : Sound s none none) {place : Nat} {o : Outlet} (name : String)
    (ho : s.outlets[place]? = some o) :
    Sound { s with outlets := s.outlets.set place { o with destination := .other name } } none none := by
  refine h.addMember rfl rfl rfl rfl (extends_retarget name ho) (fun q x hx => hx)
    ⟨h.housed.gatePipe, fun x hx b hb => ?_, h.housed.valid⟩
  rcases List.mem_or_eq_of_mem_set hx with hx | rfl
  · exact h.housed.backing x hx b hb
  · exact ⟨(h.housed.backing o (List.mem_of_getElem? ho) b hb).1, by simp⟩

/-! ### New tasks -/

theorem task_spawn_of_ne (s : Session) (c : Call) {u : Nat} (hu : u ≠ s.tasks.length) :
    (s.spawn c).1.tasks[u]? = s.tasks[u]? := getElem?_concat_of_ne hu

theorem stage?_spawn (s : Session) (c : Call) :
    (s.spawn c).1.stage? = Function.update s.stage? s.tasks.length (some .fresh) := by
  funext u
  by_cases hu : u = s.tasks.length
  · subst hu
    rw [Function.update_self, stage?, tasks_spawn, List.getElem?_concat_length]
    rfl
  · rw [Function.update_of_ne hu, stage?, task_spawn_of_ne s c hu, stage?]

theorem Sound.spawn (h : Sound s none none) {c : Call} (hc : s.Fits c) :
    Sound (s.spawn c).1 none none := by
  have hnone : s.tasks[s.tasks.length]? = none := List.getElem?_eq_none (Nat.le_refl _)
  have hs₀ : s.stage? s.tasks.length = none := by rw [stage?, hnone]; rfl
  have hs := stage?_spawn s c
  have hgate : ∀ u, ((s.spawn c).1.stage? u).bind Stage.gate? = (s.stage? u).bind Stage.gate? := by
    intro u
    rw [hs]
    by_cases hu : u = s.tasks.length
    · rw [hu, Function.update_self, hs₀]
      rfl
    · rw [Function.update_of_ne hu]
  have he : Extends s (s.spawn c).1 := .of_eq rfl (fun p b hb => ⟨b, hb⟩) rfl
  have habs := h.placed.absent hs₀
  -- the new task is nowhere at first, and then stands in the ready queue
  refine ⟨⟨habs.settle hs (fun u => ?_) (fun u hu => ?_) (by simp [Stage.place?]) fun a => ?_,
    fun g u => ?_, ?_, h.housed.congr he rfl rfl h.housed.valid, ?_⟩, h.ordered⟩
  · have hz := habs.turnsOf_busy _ rfl
    rw [turnsOf] at hz
    by_cases hu : u = s.tasks.length
    · subst hu
      rw [if_pos ⟨rfl, rfl⟩, turnsOf, ready_spawn, List.count_append, hz, List.count_singleton_self]
    · have hne : Job.task s.tasks.length ≠ .task u := fun e => hu (by cases e; rfl)
      rw [if_neg fun e => hu e.1, turnsOf, ready_spawn, List.count_append, turnsOf,
        List.count_singleton, if_neg (by simpa using hne), Nat.add_zero]
  · rw [isCancelling, task_spawn_of_ne s c hu, isCancelling]
  · rw [if_neg (by simp [Stage.place?])]
    rfl
  · have hg := h.guarded g u
    rw [gateOf_none] at hg ⊢
    rw [hgate]
    exact hg
  · refine h.refused.mono (fun p w hw _ => ⟨hw, ?_⟩) rfl
    rw [hs, Function.update_of_ne]
    intro e
    exact (habs.place_of_mem (.pipe p) w hw).1 (by rw [e])
  · refine ⟨fun u task hu => ?_, fun u task hu _ => ?_⟩
    · rcases getElem?_concat_cases hu with hold | ⟨-, rfl⟩
      · exact he.fits (h.employed.fits u task hold)
      · exact he.fits hc
    · rcases getElem?_concat_cases hu with hold | ⟨-, rfl⟩
      · exact he.pursues (h.employed.pursues u task hold (by simp))
      · trivial

/-! ### Cancelling -/

/-- A task is to end when it runs next. -/
def ask (s : Session) (t : Nat) : Session :=
  { s with tasks := s.tasks.modify t fun task => { task with cancelling := true } }

/-- A parked waiter is cancelled, and put in the ready queue. -/
def evict (s : Session) (t : Nat) (a : Place) : Session := (s.alter (Waiter.cancel t) a).enqueue [t]

/-- What asking a task to end comes to, by the place where the task waits. -/
theorem cancel_eq {task : Task} (hk : s.tasks[t]? = some task) : s.cancel t =
    match task.stage.place? with
    | some a => (if Waiter.isParked t (s.waiters a) then (s.ask t).evict t a else s.ask t, true)
    | none => if task.isUnfinished then (s.ask t, true) else (s, false) := by
  obtain ⟨c, st, d, v⟩ := task
  simp only [cancel, hk]
  cases st with
  | fresh => rfl
  | ended o => rfl
  | atGate g r =>
    simp only [Stage.place?]
    cases hg : s.gates[g]? with
    | none =>
      rw [waiters_eq_nil_of_gate hg]
      rfl
    | some gate =>
      simp only [waiters_gate hg]
      split
      · simp only [evict, alter, ask, ← set_eq_modify hg]
      · rfl
  | inPipe gate q r =>
    simp only [Stage.place?]
    cases hc : s.channels[q]? with
    | none =>
      rw [waiters_eq_nil_of_pipe hc]
      rfl
    | some c =>
      simp only [waiters_pipe hc]
      split
      · simp only [evict, alter, ask, ← set_eq_modify hc]
      · rfl

/-- Whoever is parked is parked where its stage says. -/
theorem not_parked_of_place? (h : Sound s none none)
    (hn : ∀ a, s.place? t = some a → (⟨t, .parked⟩ : Waiter) ∉ s.waiters a) (a : Place) :
    (⟨t, .parked⟩ : Waiter) ∉ s.waiters a :=
  fun ha => hn a (h.placed.place_of_mem a _ ha).2 ha

/-- A task that has ended stays as it is; any other is asked to end, and leaves where it is parked. -/
theorem cancel_cases (h : Sound s none none) (t : Nat) :
    (s.place? t = none ∧ (s.cancel t).1 = s) ∨
    ((s.cancel t).1 = s.ask t ∧ ∀ a, (⟨t, .parked⟩ : Waiter) ∉ s.waiters a) ∨
    ∃ a, (⟨t, .parked⟩ : Waiter) ∈ s.waiters a ∧ (s.cancel t).1 = (s.ask t).evict t a := by
  cases hk : s.tasks[t]? with
  | none => exact .inl ⟨by rw [place?, stage?, hk]; rfl, by simp only [cancel, hk]⟩
  | some task =>
    have hpl : s.place? t = task.stage.place? := by rw [place?, stage?, hk]; rfl
    rw [cancel_eq hk]
    cases hst : task.stage.place? with
    | none =>
      rw [hst] at hpl
      by_cases hun : task.isUnfinished = true
      · refine .inr (.inl ⟨by simp only [if_pos hun], not_parked_of_place? h fun a ha => ?_⟩)
        rw [hpl] at ha
        cases ha
      · exact .inl ⟨hpl, by simp only [if_neg hun]⟩
    | some a =>
      rw [hst] at hpl
      by_cases hpark : Waiter.isParked t (s.waiters a) = true
      · exact .inr (.inr ⟨a, Waiter.isParked_iff.1 hpark, by simp only [if_pos hpark]⟩)
      · refine .inr (.inl ⟨by simp only [if_neg hpark], not_parked_of_place? h fun b hb hmem => ?_⟩)
        rw [hpl] at hb
        cases hb
        exact hpark (Waiter.isParked_iff.2 hmem)

/-- Asking a task to end changes no pipe, no outlet and no notice, and no task other than by that. -/
theorem fields_cancel (h : Sound s none none) (t : Nat) :
    (s.cancel t).1.pipe? = s.pipe? ∧ (s.cancel t).1.gatePipe? = s.gatePipe? ∧
      (s.cancel t).1.outlets = s.outlets ∧ (s.cancel t).1.notices = s.notices ∧
        ((s.cancel t).1.tasks = s.tasks ∨ (s.cancel t).1.tasks = (s.ask t).tasks) := by
  obtain ⟨-, hc⟩ | ⟨hc, -⟩ | ⟨a, -, hc⟩ := cancel_cases h t
  · rw [hc]
    exact ⟨rfl, rfl, rfl, rfl, .inl rfl⟩
  · rw [hc]
    exact ⟨rfl, rfl, rfl, rfl, .inr rfl⟩
  · obtain ⟨htasks, houtlets, -⟩ := fields_alter (s.ask t) (Waiter.cancel t) a
    have hnotices : ((s.ask t).evict t a).notices = s.notices := by cases a <;> rfl
    rw [hc]
    exact ⟨pipe?_alter .., gatePipe?_alter .., houtlets, hnotices, .inr htasks⟩

theorem length_cancel (h : Sound s none none) (t : Nat) :
    (s.cancel t).1.tasks.length = s.tasks.length := by
  rcases (fields_cancel h t).2.2.2.2 with hc | hc
  · rw [hc]
  · rw [hc, ask, List.length_modify]

/-- Whoever is parked is asked to end and leaves where it is parked. -/
theorem cancel_of_parked (h : Sound s none none) {a : Place}
    (ha : (⟨t, .parked⟩ : Waiter) ∈ s.waiters a) : (s.cancel t).1 = (s.ask t).evict t a := by
  have hpl := (h.placed.place_of_mem a _ ha).2
  obtain ⟨hnone, -⟩ | ⟨-, hn⟩ | ⟨b, hb, hc⟩ := cancel_cases h t
  · rw [hnone] at hpl
    cases hpl
  · exact absurd ha (hn a)
  · have hpl' := (h.placed.place_of_mem b _ hb).2
    rw [hpl] at hpl'
    cases hpl'
    exact hc

theorem stage?_ask (s : Session) (t : Nat) : (s.ask t).stage? = s.stage? :=
  stage?_modify fun _ => rfl

theorem isCancelling_ask_of_ne (s : Session) {t u : Nat} (hu : u ≠ t) :
    (s.ask t).isCancelling u = s.isCancelling u := by
  rw [isCancelling, ask, List.getElem?_modify_ne _ _ (Ne.symm hu), isCancelling]

theorem isCancelling_ask_self {a : Place} (hpl : s.place? t = some a) :
    (s.ask t).isCancelling t = true := by
  cases hk : s.tasks[t]? with
  | none => rw [place?, stage?, hk] at hpl; cases hpl
  | some task => rw [isCancelling, ask, List.getElem?_modify_eq, hk]; rfl

/-- A task that is parked nowhere is asked to end. -/
theorem Sound.ask (h : Sound s none none) (hn : ∀ a, (⟨t, .parked⟩ : Waiter) ∉ s.waiters a) :
    Sound (s.ask t) none none := by
  have hs := stage?_ask s t
  have he : Extends s (s.ask t) := .of_eq rfl (fun p b hb => ⟨b, hb⟩) rfl
  refine ⟨⟨h.placed.congr rfl hs rfl fun a w hw hm => ?_, h.guarded.congr rfl hs,
    h.refused.mono (fun p w hw _ => ⟨hw, by rw [hs]⟩) rfl, h.housed.congr he rfl rfl h.housed.valid,
    (h.employed.exempt t).modify he rfl (fun task hk => ?_) (by simp)⟩, h.ordered⟩
  · obtain ⟨u, m⟩ := w
    by_cases hu : u = t
    · subst hu
      cases m with
      | parked => exact absurd hw (hn a)
      | woken => exact absurd rfl hm
      | cancelled =>
        rw [h.placed.isCancelling_of_mem a _ hw hm]
        exact isCancelling_ask_self (h.placed.place_of_mem a _ hw).2
    · exact isCancelling_ask_of_ne s hu
  · exact ⟨h.employed.fits t task hk, fun _ => h.employed.pursues t task hk (by simp)⟩

/-- Only a parked waiter is cancelled. -/
theorem mem_of_mem_cancel {ws : List Waiter} {w : Waiter} (h : w ∈ Waiter.cancel t ws)
    (hm : w.mark = .parked) : w ∈ ws := by
  obtain ⟨v, hv, rfl⟩ := List.mem_map.1 h
  by_cases hvt : v = ⟨t, .parked⟩
  · rw [if_pos hvt] at hm
    cases hm
  · rw [if_neg hvt]
    exact hv

/-- A task that is parked somewhere is asked to end, and leaves. -/
theorem Sound.evict (h : Sound s none none) {a : Place}
    (ha : (⟨t, .parked⟩ : Waiter) ∈ s.waiters a) : Sound ((s.ask t).evict t a) none none := by
  have hw : ((s.ask t).evict t a).waiters =
      Function.update s.waiters a (Waiter.cancel t (s.waiters a)) := (s.ask t).waiters_alter rfl a
  have hh : ((s.ask t).evict t a).holder? = s.holder? := holder?_alter ..
  have hp : ((s.ask t).evict t a).pipe? = s.pipe? := pipe?_alter ..
  have hg : ((s.ask t).evict t a).gatePipe? = s.gatePipe? := gatePipe?_alter ..
  obtain ⟨ht, ho, hr⟩ := fields_alter (s.ask t) (Waiter.cancel t) a
  have hs : ((s.ask t).evict t a).stage? = s.stage? := (stage?_congr ht).trans (stage?_ask s t)
  have hcan : ((s.ask t).evict t a).isCancelling = (s.ask t).isCancelling := isCancelling_congr ht
  have he : Extends s ((s.ask t).evict t a) := .of_eq hg (fun p b hb => ⟨b, by rw [hp, hb]⟩) ho
  refine ⟨⟨?_, h.guarded.congr hh hs, h.refused.mono (fun p w hwp hm => ⟨?_, by rw [hs]⟩) hp,
    h.housed.congr he hg ho fun p b hb => h.housed.valid p b (by rw [← hp, hb]),
    (h.employed.exempt t).modify he ht (fun task hk => ?_) (by simp)⟩, fun g => ?_⟩
  · refine h.placed.rouse (Waiter.roused_cancel (h.placed.nodup a) ha) (by simp) hw (fun u => ?_) hs
      (fun u hu => ?_) fun _ u hu => ?_
    · rw [Session.evict, turnsOf_enqueue, turnsOf, hr, turnsOf]
      rfl
    · rw [hcan]
      refine isCancelling_ask_of_ne s ?_
      rintro rfl
      rw [List.count_singleton_self] at hu
      cases hu
    · have hut : u = t := by
        by_contra hne
        rw [List.count_singleton, if_neg (by simpa using Ne.symm hne)] at hu
        cases hu
      rw [hcan, hut]
      exact isCancelling_ask_self (h.placed.place_of_mem a _ ha).2
  · rw [hw] at hwp
    by_cases hpa : Place.pipe p = a
    · subst hpa
      rw [Function.update_self] at hwp
      exact mem_of_mem_cancel hwp hm
    · rw [Function.update_of_ne hpa] at hwp
      exact hwp
  · exact ⟨he.fits (h.employed.fits t task hk),
      fun _ => he.pursues (h.employed.pursues t task hk (by simp))⟩
  · rw [hh, hw]
    by_cases hga : Place.gate g = a
    · subst hga
      rw [Function.update_self]
      exact (h.ordered g).cancel t
    · rw [Function.update_of_ne hga]
      exact h.ordered g

theorem Sound.cancel (h : Sound s none none) (t : Nat) : Sound (s.cancel t).1 none none := by
  obtain ⟨-, hc⟩ | ⟨hc, hn⟩ | ⟨a, ha, hc⟩ := cancel_cases h t
  · rw [hc]
    exact h
  · rw [hc]
    exact h.ask hn
  · rw [hc]
    exact h.evict ha

/-! ### All sessions -/

theorem extends_cancel (h : Sound s none none) (t : Nat) : Extends s (s.cancel t).1 := by
  obtain ⟨hp, hg, ho, -⟩ := fields_cancel h t
  exact .of_eq hg (fun p b hb => ⟨b, by rw [hp, hb]⟩) ho

theorem Move.extends (hm : Move s s') (h : Sound s none none) : Extends s s' := by
  cases hm with
  | addPipe hb => exact extends_addPipe ..
  | addGate hp => exact extends_addGate ..
  | addOutlet ho => exact extends_addOutlet ..
  | retarget name ho => exact extends_retarget name ho
  | spawn hc => exact .of_eq rfl (fun p b hb => ⟨b, hb⟩) rfl
  | cancel t => exact extends_cancel h t
  | post n =>
    obtain ⟨hc, hg, ho, -⟩ := fields_post s n
    exact .of_eq (gatePipe?_congr hg) (fun p b hb => ⟨b, by rw [pipe?_congr hc, hb]⟩) ho
  | record journal stdio => exact .of_eq rfl (fun p b hb => ⟨b, hb⟩) rfl

theorem Sound.move (h : Sound s none none) (hm : Move s s') : Sound s' none none := by
  cases hm with
  | addPipe hb => exact h.addPipe hb
  | addGate hp => exact h.addGate hp
  | addOutlet ho => exact h.addOutlet ho
  | retarget name ho => exact h.retarget name ho
  | spawn hc => exact h.spawn hc
  | cancel t => exact h.cancel t
  | post n =>
    obtain ⟨hc, hg, ho, ht⟩ := fields_post s n
    exact h.congr hc hg ho ht (turnsOf_post s n)
  | record journal stdio => exact h.congr rfl rfl rfl rfl rfl

theorem sound_start (out err : Stream.Traits) : Sound (start out err) none none := by
  have hw : ∀ a, (start out err).waiters a = [] := by
    intro a
    cases a <;> rfl
  refine ⟨⟨⟨fun a => ?_, fun a w hwa => ?_, fun t a _ ha => ?_, fun a w hwa => ?_,
    fun t _ _ => rfl, fun t ht => ?_, fun a w hwa => ?_⟩, fun g u => ?_, fun p w hwp => ?_,
    ⟨fun g p hp => ?_, fun x hx => ?_, fun p b hb => ?_⟩,
    ⟨fun t task hk => ?_, fun t task hk => ?_⟩⟩, fun g => ?_⟩
  · rw [hw]
    exact List.nodup_nil
  · rw [hw] at hwa
    cases hwa
  · cases ha
  · rw [hw] at hwa
    cases hwa
  · cases ht
  · rw [hw] at hwa
    cases hwa
  · rw [gateOf_none]
    refine ⟨fun e => ?_, fun e => ?_⟩ <;> cases e
  · rw [hw] at hwp
    cases hwp
  · cases hp
  · cases hx
  · cases hb
  · cases hk
  · cases hk
  · rw [hw]
    exact Waiter.orderly_nil _

/-- Every session that a run from a sound one leads to is sound. -/
theorem Sound.run {past : List Session} (h : Sound s none none) (hr : Run s past s') :
    Sound s' none none :=
  hr.invariant (P := fun s => Sound s none none) h (fun _ h => h.turn) fun _ _ h hm => h.move hm

theorem Reachable.sound (h : Reachable s) : Sound s none none := by
  obtain ⟨out, err, past, hr⟩ := h
  exact (sound_start out err).run hr

end Outflow.Session
