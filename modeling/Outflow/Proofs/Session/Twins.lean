import Outflow.Proofs.Session.Viewing

/-!
# Sessions of which lenses show the same

What is done to a session from outside changes what a lens shows in a way that depends on what it shows only; or
it is not seen.

* `Viewed.move`, `Viewed.spawn`: a lens still shows all that has to do with what it looks at;
* `focus_spawn_shown`, `focus_cancel_shown`: new tasks, and tasks that are asked to end; `focus_spawn` and
  `focus_cancel` are about those that are not shown;
* `Session.Twins`: sessions of which two lenses show the same; `Twins.addPipe`, `Twins.settle` and so on: they
  stay so when the same is done to both.
-/

namespace Outflow.Session

variable {s s' : Session} {L L' : Lens} {t p : Nat} {task : Task}

/-! ### What is done from outside -/

theorem Fits.outlet {c : Call} (h : s.Fits c) {o : Nat} (ho : c.outlet? = some o) : ∃ x, s.outlets[o]? = some x := by
  cases c <;> cases ho <;> first | exact h | exact h.2

/-- New members are none that a call has to do with. -/
theorem Extends.regards (he : Extends s s') (hh : Housed s) {c : Call} (hfits : s.Fits c) {r : Region}
    (h : s'.Regards c r) : s.Regards c r := by
  have hleads : ∀ b p, s.Has b → s'.LeadsTo b p → s.LeadsTo b p := by
    rintro b p hb (rfl | ⟨g, rfl, hg⟩)
    · exact .inl rfl
    · obtain ⟨p', hp'⟩ := hb
      rw [he.gatePipe g p' hp'] at hg
      cases hg
      exact .inr ⟨g, rfl, hp'⟩
  have houtlet : ∀ o x', c.outlet? = some o → s'.outlets[o]? = some x' →
      ∃ x, s.outlets[o]? = some x ∧ x'.backing = x.backing := by
    intro o x' ho hx'
    obtain ⟨x, hx⟩ := hfits.outlet ho
    obtain ⟨x'', hx'', hb⟩ := he.outlet o x hx
    rw [hx'] at hx''
    cases hx''
    exact ⟨x, hx, hb⟩
  cases r with
  | pipe p =>
    rcases h with hp | ⟨b, hb, hl⟩ | ⟨o, x', b, ho, hx', hb, hl⟩
    · exact .inl hp
    · exact .inr (.inl ⟨b, hb, hleads b p (hfits.backing hb) hl⟩)
    · obtain ⟨x, hx, hsame⟩ := houtlet o x' ho hx'
      rw [hsame] at hb
      exact .inr (.inr ⟨o, x, b, ho, hx, hb, hleads b p (hh.backing x (List.mem_of_getElem? hx) b hb).1 hl⟩)
  | streams =>
    obtain ⟨n, hb | ⟨o, x', ho, hx', hb⟩⟩ := h
    · exact ⟨n, .inl hb⟩
    · obtain ⟨x, hx, hsame⟩ := houtlet o x' ho hx'
      exact ⟨n, .inr ⟨o, x, ho, hx, hsame ▸ hb⟩⟩

theorem Move.endings (hm : Move s s') (hs : Sound s none none) : s'.endings = s.endings := by
  cases hm with
  | cancel t =>
    obtain ⟨-, hc⟩ | ⟨hc, -⟩ | ⟨a, -, hc⟩ := cancel_cases hs t
    · rw [hc]
    · rw [hc]
      rfl
    · rw [hc]
      cases a <;> rfl
  | post n =>
    simp only [Session.post]
    split <;> rfl
  | _ => rfl

/-- A move that makes no task. -/
theorem Viewed.move (h : Viewed L s) (hm : Move s s') (hlen : s'.tasks.length = s.tasks.length) : Viewed L s' := by
  refine ⟨h.sound.move hm, fun t task' hk' r hr => ?_, fun t ht => ?_, fun t ht => ?_⟩
  · obtain ⟨task, hk, hcall, -⟩ | ⟨hk, -⟩ := hm.task h.sound hk'
    · rw [hcall] at hr
      exact h.parted t task hk r
        ((hm.extends h.sound).regards h.sound.housed (h.sound.employed.fits t task hk) hr)
    · obtain ⟨hlt, -⟩ := List.getElem?_eq_some_iff.1 hk'
      rw [List.getElem?_eq_none_iff] at hk
      omega
  · rw [hlen]
    exact h.bounded t ht
  · rw [hm.endings h.sound] at ht
    rw [hlen]
    exact h.ended t ht

/-! ### New tasks -/

/-- The new task is shown if its call has to do with what is looked at, and only then. -/
theorem Viewed.spawn (h : Viewed L s) {c : Call} (hc : s.Fits c) {ts : List Nat}
    (hscope : L'.scope = L.scope) (htasks : L'.tasks = L.tasks ++ ts) (hts : ∀ t ∈ ts, t = s.tasks.length)
    (hr : ∀ r, s.Regards c r → (L.scope.Has r ↔ s.tasks.length ∈ ts)) : Viewed L' (s.spawn c).1 := by
  have hlen : (s.spawn c).1.tasks.length = s.tasks.length + 1 := List.length_append
  refine ⟨h.sound.move (.spawn hc), fun t task' hk' r hr' => ?_, fun t ht => ?_, fun t ht => ?_⟩
  · rw [hscope, htasks, List.mem_append]
    rcases getElem?_concat_cases hk' with hold | ⟨rfl, rfl⟩
    · obtain ⟨hlt, -⟩ := List.getElem?_eq_some_iff.1 hold
      rw [h.parted t task' hold r hr', or_iff_left]
      intro ht
      exact absurd (hts t ht) (Nat.ne_of_lt hlt)
    · rw [hr r hr', or_iff_right]
      exact fun ht => absurd (h.bounded _ ht) (Nat.lt_irrefl _)
  · rw [hlen]
    rw [htasks] at ht
    rcases List.mem_append.1 ht with ht | ht
    · exact Nat.lt_succ_of_lt (h.bounded t ht)
    · rw [hts t ht]
      exact Nat.lt_succ_self _
  · rw [hlen]
    exact Nat.lt_succ_of_lt (h.ended t ht)

/-- Whoever waits at a place that is looked at is shown. -/
theorem Viewed.mem_of_waits (h : Viewed L s) {a : Place} (hp : s.pipeAt? a = some p) (hin : L.scope.pipe p = true)
    {w : Waiter} (hw : w ∈ s.waiters a) : w.task ∈ L.tasks :=
  (h.parted.mem_iff h.sound (List.mem_map_of_mem hw) hp).2 hin

/-- Whoever holds a gate that is looked at is shown. -/
theorem Viewed.mem_of_holds (h : Viewed L s) {g : Nat} {x : Gate} (hx : s.gates[g]? = some x)
    (hin : L.scope.pipe x.pipe = true) (ht : x.holder = some t) : t ∈ L.tasks := by
  have hholder : s.holder? g = some t := by rw [holder?, hx]; exact ht
  have hgate := (h.sound.guarded g t).1 hholder
  rw [gateOf_none] at hgate
  obtain ⟨st, hst, hg⟩ := Option.bind_eq_some_iff.1 hgate
  obtain ⟨task, hk, rfl⟩ := Option.map_eq_some_iff.1 hst
  obtain ⟨p, r, hstage⟩ := Stage.gate?_eq_some.1 hg
  have hpur := h.sound.employed.pursues t task hk (by simp)
  rw [hstage] at hpur
  have hc := hpur.concerns
  obtain ⟨q, -, -, hgp⟩ := hpur
  rw [gatePipe?, hx] at hgp
  cases hgp
  exact (h.parted t task hk (.pipe x.pipe) hc).1 hin

/-- A lens that gives the tasks that another shows the same places, and none of the other tasks, shows the same
apart from the tasks. -/
theorem Viewed.focus_eq (h : Viewed L s) (hscope : L'.scope = L.scope) (hplace : ∀ t ∈ L.tasks, L'.place t = L.place t)
    (hmem : ∀ t < s.tasks.length, (t ∈ L'.tasks ↔ t ∈ L.tasks)) :
    s.focus L' = { s.focus L with tasks := L'.tasksOf s.tasks } := by
  have hwaiters : ∀ {a : Place} {p : Nat}, s.pipeAt? a = some p → L.scope.pipe p = true →
      (s.waiters a).map L'.waiter = (s.waiters a).map L.waiter := by
    intro a p hp hin
    refine List.map_congr_left fun w hw => ?_
    rw [Lens.waiter, Lens.waiter, hplace _ (h.mem_of_waits hp hin hw)]
  have hchannels : s.channels.mapIdx L'.channel = s.channels.mapIdx L.channel := by
    refine List.ext_getElem? fun p => ?_
    rw [List.getElem?_mapIdx, List.getElem?_mapIdx]
    cases hc : s.channels[p]? with
    | none => rfl
    | some c =>
      have hw := hwaiters (a := .pipe p) rfl
      rw [waiters_pipe hc] at hw
      simp only [Option.map_some, Lens.channel, hscope]
      split
      · rename_i hin
        rw [hw hin]
      · rfl
  have hgates : s.gates.map L'.gate = s.gates.map L.gate := by
    refine List.map_congr_left fun x hx => ?_
    obtain ⟨g, hg⟩ := List.mem_iff_getElem?.1 hx
    cases hin : L.scope.pipe x.pipe with
    | false => rw [L.gate_eq_ofPipe hin, L'.gate_eq_ofPipe (by rw [hscope, hin])]
    | true =>
      have hp : s.pipeAt? (.gate g) = some x.pipe := by rw [pipeAt?, gatePipe?, hg]; rfl
      have hw := hwaiters hp hin
      rw [waiters_gate hg] at hw
      rw [L.gate_eq hin, L'.gate_eq (by rw [hscope, hin]), hw]
      cases hholder : x.holder with
      | none => rfl
      | some t => rw [Option.map_some, Option.map_some, hplace t (h.mem_of_holds hg hin hholder)]
  have hready : s.ready.filterMap L'.job = s.ready.filterMap L.job := by
    refine List.filterMap_congr fun job hjob => ?_
    cases job with
    | deliver n copies => simp only [Lens.job, hscope]
    | task t =>
      obtain ⟨task, hk, -⟩ := exists_task_of_mem h.sound hjob
      obtain ⟨hlt, -⟩ := List.getElem?_eq_some_iff.1 hk
      simp only [Lens.job, hmem t hlt]
      split
      · rename_i ht
        rw [hplace t ht]
      · rfl
  have hendings : (s.endings.filter (· ∈ L'.tasks)).map L'.place = (s.endings.filter (· ∈ L.tasks)).map L.place := by
    rw [List.filter_congr fun t ht => decide_eq_decide.2 (hmem t (h.ended t ht))]
    exact List.map_congr_left fun t ht => hplace t (by simpa using (List.mem_filter.1 ht).2)
  simp only [focus, hchannels, hgates, hready, hendings, hscope]

/-- A new task that is shown. -/
theorem focus_spawn_shown (h : Viewed L s) (hscope : L'.scope = L.scope)
    (htasks : L'.tasks = L.tasks ++ [s.tasks.length]) (c : Call) :
    (s.spawn c).1.focus L' = ((s.focus L).spawn c).1 := by
  have hnew : s.tasks.length ∉ L.tasks := fun ht => absurd (h.bounded _ ht) (Nat.lt_irrefl _)
  have hplace : ∀ t ∈ L.tasks, L'.place t = L.place t := fun t ht => by
    rw [Lens.place, htasks, List.idxOf_append_of_mem ht]
    rfl
  have hsame := h.focus_eq hscope hplace fun t ht => by
    rw [htasks, List.mem_append, List.mem_singleton, or_iff_left (Nat.ne_of_lt ht)]
  have htasksOf : L'.tasksOf (s.tasks ++ [.ofCall c]) = L.tasksOf s.tasks ++ [.ofCall c] := by
    rw [Lens.tasksOf, htasks, List.map_append, List.map_singleton, List.getElem?_concat_length]
    refine congrArg (· ++ [Task.ofCall c]) (List.map_congr_left fun t ht => ?_)
    rw [List.getElem?_append_left (h.bounded t ht)]
  have hlast : L'.place s.tasks.length = (L.tasksOf s.tasks).length := by
    rw [Lens.place, htasks, List.idxOf_append_of_notMem hnew, Lens.tasksOf, List.length_map, List.idxOf_cons_self,
      Nat.add_zero]
  have hjob : L'.job (.task s.tasks.length) = some (.task (L.tasksOf s.tasks).length) := by
    rw [← hlast]
    exact if_pos (by simp [htasks])
  have hready : (s.ready ++ [Job.task s.tasks.length]).filterMap L'.job
      = (s.focus L').ready ++ [.task (L.tasksOf s.tasks).length] := by
    rw [List.filterMap_append, List.filterMap_cons, hjob]
    rfl
  have hspawn : (s.spawn c).1.focus L' = { s.focus L' with
      tasks := L'.tasksOf (s.tasks ++ [.ofCall c])
      ready := (s.ready ++ [Job.task s.tasks.length]).filterMap L'.job } := rfl
  rw [hspawn, hready, htasksOf, hsame]
  rfl

/-- A new task that is not shown. -/
theorem focus_spawn (h : Viewed L s) (c : Call) : (s.spawn c).1.focus L = s.focus L := by
  have hnew : s.tasks.length ∉ L.tasks := fun ht => absurd (h.bounded _ ht) (Nat.lt_irrefl _)
  have htasks : L.tasksOf (s.tasks ++ [.ofCall c]) = L.tasksOf s.tasks :=
    List.map_congr_left fun t ht => by rw [List.getElem?_append_left (h.bounded t ht)]
  have hjob : L.job (.task s.tasks.length) = none := if_neg hnew
  simp only [focus, Session.spawn, htasks, List.filterMap_append, List.filterMap_cons, hjob, List.filterMap_nil,
    List.append_nil]

/-! ### Tasks that are asked to end -/

theorem focus_eq_follow (L : Lens) (s : Session) : s.focus L = s.follow L [] s.notices.length := by
  rw [follow_eq_shown, shown, focus]

/-- The place of a task that is shown is looked at, and what is shown waits there as well. -/
theorem Viewed.place (h : Viewed L s) (hk : s.tasks[t]? = some task) {a : Place} (ha : task.stage.place? = some a) :
    Uniform L (decide (t ∈ L.tasks)) s a := by
  obtain ⟨p, hp, hc⟩ := concerns_of_place h.sound hk ha
  have hin : L.scope.pipe p = decide (t ∈ L.tasks) :=
    Bool.eq_iff_iff.2 ((h.parted t task hk (.pipe p) hc).trans decide_eq_true_iff.symm)
  exact hin ▸ h.parted.uniform h.sound hp

theorem waiters_focus {a : Place} (h : Uniform L true s a) :
    (s.focus L).waiters a = (s.waiters a).map L.waiter := by
  cases a with
  | pipe p => exact waiters_focus_pipe h.inPipe
  | gate g =>
    obtain ⟨x, hx, hin⟩ := h.gate
    exact waiters_focus_gate hx hin

/-- A task that is shown is asked to end. -/
theorem focus_cancel_shown (h : Viewed L s) (ht : t ∈ L.tasks) :
    (s.focus L).cancel (L.place t) = ((s.cancel t).1.focus L, (s.cancel t).2) := by
  have hlt := h.bounded t ht
  have hk := List.getElem?_eq_getElem hlt
  have hk' : (s.focus L).tasks[L.place t]? = some s.tasks[t] := (task_focus ht hlt).trans hk
  have hask : (s.focus L).ask (L.place t) = (s.ask t).focus L := by
    simp only [ask, focus, L.tasksOf_modify hlt]
  rw [cancel_eq hk, cancel_eq hk']
  cases ha : s.tasks[t].stage.place? with
  | none =>
    dsimp only
    split
    · rw [hask]
    · rfl
  | some a =>
    have hplace : Uniform L true s a := decide_eq_true ht ▸ h.place hk ha
    have hevict : ((s.focus L).ask (L.place t)).evict (L.place t) a = ((s.ask t).evict t a).focus L := by
      have hplace' : Uniform L true (s.ask t) a := hplace.mono (fun u hu => hu) rfl
      have hmember : ∀ u ∈ [t], u ∈ L.tasks := by simpa using ht
      have halter : ((s.ask t).follow L [] s.notices.length).alter (Waiter.cancel (L.place t)) a
          = ((s.ask t).alter (Waiter.cancel t) a).follow L [] s.notices.length :=
        alter_focus hplace' fun ws => (L.map_cancel ht ws).symm
      have henqueue : (((s.ask t).alter (Waiter.cancel t) a).follow L [] s.notices.length).enqueue [L.place t]
          = ((s.ask t).evict t a).follow L [] s.notices.length := enqueue_focus hmember
      have hnotices : ((s.ask t).evict t a).notices = s.notices := by cases a <;> rfl
      have hfollow : (s.ask t).focus L = (s.ask t).follow L [] s.notices.length := focus_eq_follow L (s.ask t)
      rw [hask, focus_eq_follow L ((s.ask t).evict t a), hnotices, hfollow]
      exact (congrArg (enqueue · [L.place t]) halter).trans henqueue
    dsimp only
    rw [waiters_focus hplace, L.isParked_map ht]
    split
    · rw [hevict]
    · rw [hask]

/-- A task that is not shown is asked to end. -/
theorem focus_cancel (h : Viewed L s) (ht : t ∉ L.tasks) : (s.cancel t).1.focus L = s.focus L := by
  have hask : (s.ask t).focus L = s.focus L := by
    simp only [ask, focus, L.tasksOf_modify_of_notMem ht]
  obtain ⟨-, hc⟩ | ⟨hc, -⟩ | ⟨a, ha, hc⟩ := cancel_cases h.sound t
  · rw [hc]
  · rw [hc, hask]
  · have hpl := (h.sound.placed.place_of_mem a _ ha).2
    obtain ⟨st, hst, hat⟩ := Option.bind_eq_some_iff.1 hpl
    obtain ⟨task, hk, rfl⟩ := Option.map_eq_some_iff.1 hst
    have hplace : Uniform L false s a := decide_eq_false ht ▸ h.place hk hat
    have hplace' : Uniform L false (s.ask t) a := hplace.mono (fun u hu => hu) rfl
    have hnobody : ∀ u ∈ [t], u ∉ L.tasks := by simpa using ht
    rw [hc]
    exact (focus_enqueue hnobody).trans ((focus_alter hplace' _).trans hask)

/-! ### Sessions of which the same is shown -/

/-- What is looked at looks the same in two sessions. -/
structure Twins (L L' : Lens) (s s' : Session) : Prop where
  viewed : Viewed L s
  viewed' : Viewed L' s'
  scope : L'.scope = L.scope
  focus : s'.focus L' = s.focus L

namespace Twins

variable {s₁ s₁' : Session}

/-- Moves that make no task. -/
theorem move (h : Twins L L' s s') (hm : Move s s₁) (hm' : Move s' s₁') (hlen : s₁.tasks.length = s.tasks.length)
    (hlen' : s₁'.tasks.length = s'.tasks.length) (hfocus : s₁'.focus L' = s₁.focus L) : Twins L L' s₁ s₁' :=
  ⟨h.viewed.move hm hlen, h.viewed'.move hm' hlen', h.scope, hfocus⟩

theorem outlets (h : Twins L L' s s') : s'.outlets = s.outlets := by
  have houtlets := congrArg Session.outlets h.focus
  exact houtlets

theorem gatePipe? (h : Twins L L' s s') : s'.gatePipe? = s.gatePipe? := by
  have hgates := congrArg Session.gates h.focus
  funext g
  have hg := congrArg (fun gates : List Gate => (gates[g]?).map Gate.pipe) hgates
  simp only [Session.focus, List.getElem?_map, Option.map_map] at hg
  simpa only [Session.gatePipe?, Function.comp_def, Lens.pipe_gate] using hg

theorem lengths (h : Twins L L' s s') : s'.channels.length = s.channels.length ∧ s'.gates.length = s.gates.length := by
  have hc := congrArg (fun q : Session => q.channels.length) h.focus
  have hg := congrArg (fun q : Session => q.gates.length) h.focus
  simp only [Session.focus, List.length_mapIdx, List.length_map] at hc hg
  exact ⟨hc, hg⟩

theorem addPipe (h : Twins L L' s s') {capacity : Int} {b : Pipe} (hb : Pipe.create? capacity = some b) :
    Twins L L' (s.addPipe b).1 (s'.addPipe b).1 := by
  refine h.move (.addPipe hb) (.addPipe hb) rfl rfl ?_
  have hadd : ∀ (L : Lens) (s : Session), (s.addPipe b).1.focus L = { s.focus L with
      channels := (s.focus L).channels ++ [L.channel s.channels.length ⟨b, []⟩] } := by
    intro L s
    simp only [Session.focus, Session.addPipe, List.mapIdx_concat]
  have hnew : L'.channel s'.channels.length ⟨b, []⟩ = L.channel s.channels.length ⟨b, []⟩ := by
    rw [h.lengths.1]
    simp only [Lens.channel, h.scope]
    rfl
  rw [hadd, hadd, hnew, h.focus]

theorem addGate (h : Twins L L' s s') (hp : s.Has (.pipe p)) (hp' : s'.Has (.pipe p)) :
    Twins L L' (s.addGate p).1 (s'.addGate p).1 := by
  refine h.move (.addGate hp) (.addGate hp') rfl rfl ?_
  have hadd : ∀ (L : Lens) (s : Session), (s.addGate p).1.focus L = ((s.focus L).addGate p).1 := by
    intro L s
    have hnew : L.gate (.ofPipe p) = .ofPipe p := by
      unfold Lens.gate
      split <;> rfl
    simp only [Session.focus, Session.addGate, List.map_append, List.map_singleton, hnew]
  rw [hadd, hadd, h.focus]

theorem has (h : Twins L L' s s') {b : Backing} (hb : s.Has b) : s'.Has b := by
  cases b with
  | stream n => trivial
  | gate g => simpa only [Has, h.gatePipe?] using hb
  | pipe p =>
    obtain ⟨b, hb⟩ := hb
    obtain ⟨c, hc, -⟩ := Option.map_eq_some_iff.1 hb
    obtain ⟨hlt, -⟩ := List.getElem?_eq_some_iff.1 hc
    rw [← h.lengths.1] at hlt
    exact ⟨_, by rw [pipe?, List.getElem?_eq_getElem hlt, Option.map_some]⟩

/-- The outlets are changed in the same way. -/
theorem of_outlets (h : Twins L L' s s') {os : List Outlet} (hm : Move s { s with outlets := os })
    (hm' : Move s' { s' with outlets := os }) : Twins L L' { s with outlets := os } { s' with outlets := os } :=
  h.move hm hm' rfl rfl (congrArg (fun q : Session => { q with outlets := os }) h.focus)

theorem addOutlet (h : Twins L L' s s') {o : Outlet} (ho : ∀ b, o.backing = some b → s.Has b ∧ o.destination ≠ .null) :
    Twins L L' (s.addOutlet o).1 (s'.addOutlet o).1 := by
  have ho' : ∀ b, o.backing = some b → s'.Has b ∧ o.destination ≠ .null :=
    fun b hb => ⟨h.has (ho b hb).1, (ho b hb).2⟩
  exact h.move (.addOutlet ho) (.addOutlet ho') rfl rfl (congrArg (fun q : Session => (q.addOutlet o).1) h.focus)

theorem post (h : Twins L L' s s') (n : Notice) : Twins L L' (s.post n) (s'.post n) := by
  have hpost : ∀ (L : Lens) (s : Session), (s.post n).focus L = (s.focus L).post n := by
    intro L s
    have hnotices : (s.post n).notices = s.notices := by
      unfold Session.post
      split <;> rfl
    rw [focus_eq_follow, focus_eq_follow L s, hnotices, post_focus]
  refine h.move (.post s n) (.post s' n) ?_ ?_ ?_
  · rw [(fields_post s n).2.2.2]
  · rw [(fields_post s' n).2.2.2]
  · rw [hpost, hpost, h.focus]

/-- The journal and the standard streams are the same if they are looked at. -/
theorem streams (h : Twins L L' s s') (hall : L.scope.isAll = true) : s'.journal = s.journal ∧ s'.stdio = s.stdio := by
  have hj := congrArg Session.journal h.focus
  have hs := congrArg Session.stdio h.focus
  simp only [Session.focus, h.scope, hall, if_true] at hj hs
  exact ⟨hj, hs⟩

/-- The journal and the standard streams are replaced. -/
theorem record (h : Twins L L' s s') {j j' : Log.Journal} {io io' : Stdio}
    (hall : L.scope.isAll = true → j' = j ∧ io' = io) :
    Twins L L' { s with journal := j, stdio := io } { s' with journal := j', stdio := io' } := by
  refine h.move (.record ..) (.record ..) rfl rfl ?_
  have hrecord : ∀ (L : Lens) (s : Session) j io, ({ s with journal := j, stdio := io } : Session).focus L
      = { s.focus L with
          journal := if L.scope.isAll then j else .start
          stdio := if L.scope.isAll then io else ⟨[], []⟩ } := fun _ _ _ _ => rfl
  rw [hrecord L s j io, hrecord L' s' j' io', h.focus, h.scope]
  split
  · rename_i h'
    rw [(hall h').1, (hall h').2]
  · rfl

/-- A pipe that is looked at. -/
theorem pipe?_eq (h : Twins L L' s s') (hp : L.scope.pipe p = true) : s'.pipe? p = s.pipe? p := by
  rw [← pipe?_focus (by rw [h.scope]; exact hp), h.focus, pipe?_focus hp]

/-- A gate before a pipe that is looked at. -/
theorem gateHeld_eq (h : Twins L L' s s') {g : Nat} (hgp : s.gatePipe? g = some p) (hp : L.scope.pipe p = true) :
    s'.gateHeld g = s.gateHeld g := by
  have hheld : ∀ {L : Lens} {s : Session}, s.gatePipe? g = some p → L.scope.pipe p = true →
      (s.focus L).gateHeld g = s.gateHeld g := by
    intro L s hgp hp
    obtain ⟨x, hx, rfl⟩ := Option.map_eq_some_iff.1 hgp
    rw [Session.gateHeld, gates_focus, Session.gateHeld, hx, Option.map_some, Option.map_some, L.gate_eq hp, Gate.isHeld,
      Option.isSome_map]
    rfl
  rw [← hheld (L := L') (by rw [h.gatePipe?]; exact hgp) (by rw [h.scope]; exact hp), h.focus, hheld hgp hp]

/-- A call has to do with the same. -/
theorem regards (h : Twins L L' s s') (c : Call) (r : Region) : s'.Regards c r ↔ s.Regards c r := by
  cases r <;> simp only [Regards, Concerns, LeadsTo, h.outlets, h.gatePipe?]

theorem fits (h : Twins L L' s s') {c : Call} (hc : s.Fits c) : s'.Fits c := by
  have hpipe : ∀ {p}, s.Has (.pipe p) → s'.Has (.pipe p) := fun hp => h.has hp
  cases c <;> simp only [Fits, h.outlets] at hc ⊢ <;> first | exact hpipe hc | exact h.has hc | exact ⟨hpipe hc.1, hc.2⟩ | exact hc

/-- A new task, which is shown in both sessions. -/
theorem spawn_shown {L₁ L₁' : Lens} (h : Twins L L' s s') {c : Call} (hc : s.Fits c)
    (hr : ∀ r, s.Regards c r → L.scope.Has r) (hscope : L₁.scope = L.scope) (hscope' : L₁'.scope = L'.scope)
    (htasks : L₁.tasks = L.tasks ++ [s.tasks.length]) (htasks' : L₁'.tasks = L'.tasks ++ [s'.tasks.length]) :
    Twins L₁ L₁' (s.spawn c).1 (s'.spawn c).1 where
  viewed := h.viewed.spawn hc hscope htasks (by simp) fun r hreg => by simp [hr r hreg]
  viewed' := h.viewed'.spawn (h.fits hc) hscope' htasks' (by simp) fun r hreg => by
    simp [h.scope, hr r ((h.regards c r).1 hreg)]
  scope := by rw [hscope, hscope', h.scope]
  focus := by
    rw [focus_spawn_shown h.viewed' hscope' htasks', focus_spawn_shown h.viewed hscope htasks, h.focus]

/-- A new task of one session only, which is not shown. -/
theorem spawn_aside (h : Twins L L' s s') {c : Call} (hc : s.Fits c) (hr : ∀ r, s.Regards c r → ¬L.scope.Has r) :
    Twins L L' (s.spawn c).1 s' where
  viewed := h.viewed.spawn hc rfl (List.append_nil _).symm (by simp) fun r hreg => by simp [hr r hreg]
  viewed' := h.viewed'
  scope := h.scope
  focus := by rw [focus_spawn h.viewed, h.focus]

theorem symm (h : Twins L L' s s') : Twins L' L s' s := ⟨h.viewed', h.viewed, h.scope.symm, h.focus.symm⟩

/-- A task that is shown in both sessions is asked to end. -/
theorem cancel_shown (h : Twins L L' s s') {t' : Nat} (ht : t ∈ L.tasks) (ht' : t' ∈ L'.tasks)
    (hplace : L'.place t' = L.place t) :
    (s'.cancel t').2 = (s.cancel t).2 ∧ Twins L L' (s.cancel t).1 (s'.cancel t').1 := by
  have hc := focus_cancel_shown h.viewed ht
  have hc' := focus_cancel_shown h.viewed' ht'
  rw [hplace, h.focus, hc] at hc'
  obtain ⟨hfocus, hflag⟩ := Prod.mk.inj hc'
  exact ⟨hflag.symm, h.move (.cancel s t) (.cancel s' t') (length_cancel h.viewed.sound t)
    (length_cancel h.viewed'.sound t') hfocus.symm⟩

/-- A task of one session that is not shown is asked to end. -/
theorem cancel_aside (h : Twins L L' s s') (ht : t ∉ L.tasks) : Twins L L' (s.cancel t).1 s' where
  viewed := h.viewed.move (.cancel s t) (length_cancel h.viewed.sound t)
  viewed' := h.viewed'
  scope := h.scope
  focus := by rw [focus_cancel h.viewed ht, h.focus]

theorem settle (h : Twins L L' s s') (hr : s.settle.ready = []) (hr' : s'.settle.ready = []) :
    s'.noticesOf L'.tasks s'.budget = s.noticesOf L.tasks s.budget ∧ Twins L L' s.settle s'.settle := by
  obtain ⟨hfocus, hnotices⟩ := focus_settle h.viewed h.viewed' h.focus hr hr'
  exact ⟨hnotices, h.viewed.run _, h.viewed'.run _, h.scope, hfocus⟩

/-! If everything is looked at, all members look the same. -/

theorem gateHeld_of_all (h : Twins L L' s s') (hall : L.scope.isAll = true) (g : Nat) : s'.gateHeld g = s.gateHeld g := by
  cases hg : s.gatePipe? g with
  | some p => exact h.gateHeld_eq hg (Scope.pipe_of_isAll hall p)
  | none =>
    have hg' : s'.gatePipe? g = none := by rw [h.gatePipe?, hg]
    rw [Session.gatePipe?, Option.map_eq_none_iff] at hg hg'
    rw [Session.gateHeld, Session.gateHeld, hg, hg']

theorem describePipe (h : Twins L L' s s') (hall : L.scope.isAll = true) (p : Nat) :
    s'.describePipe p = s.describePipe p := by
  have hdescribe : ∀ s : Session, s.describePipe p = ((s.pipe? p).map Pipe.describe).getD "" := by
    intro s
    rw [Session.describePipe, Session.pipe?, Option.map_map]
    rfl
  rw [hdescribe, hdescribe, h.pipe?_eq (Scope.pipe_of_isAll hall p)]

theorem describeEnds (h : Twins L L' s s') (hall : L.scope.isAll = true) (p : Nat) :
    s'.describeWriteEnd p = s.describeWriteEnd p ∧ s'.describeReadEnd p = s.describeReadEnd p := by
  have hp := h.describePipe hall p
  unfold Session.describeWriteEnd Session.describeReadEnd
  exact ⟨by rw [hp], by rw [hp]⟩

theorem describeBacking (h : Twins L L' s s') (hall : L.scope.isAll = true) (b : Backing) :
    s'.describeBacking b = s.describeBacking b := by
  cases b with
  | stream n => rfl
  | pipe p => exact (h.describeEnds hall p).1
  | gate g =>
    have hpipe : (s'.gates[g]?).map Gate.pipe = (s.gates[g]?).map Gate.pipe := congrFun h.gatePipe? g
    simp only [Session.describeBacking, (h.describeEnds hall _).1, hpipe, h.gateHeld_of_all hall]

theorem describeBacking? (h : Twins L L' s s') (hall : L.scope.isAll = true) (b : Option Backing) :
    s'.describeBacking? b = s.describeBacking? b := by
  cases b with
  | none => rfl
  | some b => exact h.describeBacking hall b

theorem describeOutlet (h : Twins L L' s s') (hall : L.scope.isAll = true) (o : Outlet) :
    s'.describeOutlet o = s.describeOutlet o := by
  have hb : s'.describeBacking? o.backing = s.describeBacking? o.backing := h.describeBacking? hall o.backing
  unfold Session.describeOutlet
  rw [hb]

end Twins

end Outflow.Session
