import Outflow.Proofs.Sides
import Outflow.Proofs.Similar

/-!
# Pipes are independent

What is done with other pipes, and with outlets for nothing, makes no difference to a pipe.  Every step that
calls or cancels something there can be replaced by settling, or left out if it is hasty, and what the reports say
about the pipe is the same.

* `exists_idxOf?_kept`: tasks by their names, when some are left out;
* `Thins`: a script, and the same one without the steps that are elsewhere;
* `Thins.perform`, `Thins.skip`, `Thins.pause`: it stays so, whether a step is done in both or left out;
* `Thins.about_pause`: the reports say the same about what is looked at;
* `pipes_are_independent`.
-/

namespace Outflow

theorem filterMap_getElem?_zip {α β : Type} {xs : List α} {ys : List β} {l : List Nat}
    (h : ∀ i ∈ l, i < xs.length ∧ i < ys.length) :
    l.filterMap ((xs.zip ys)[·]?) = (l.filterMap (xs[·]?)).zip (l.filterMap (ys[·]?)) := by
  induction l with
  | nil => rfl
  | cons i l ih =>
    obtain ⟨hx, hy⟩ := h i List.mem_cons_self
    have hzip : i < (xs.zip ys).length := by rw [List.length_zip]; omega
    have hrest := ih fun j hj => h j (List.mem_cons_of_mem _ hj)
    simp only [List.filterMap_cons, List.getElem?_eq_getElem hx, List.getElem?_eq_getElem hy,
      List.getElem?_eq_getElem hzip, List.getElem_zip, List.zip_cons_cons, hrest]

theorem filterMap_getElem?_eq_map {α : Type} {xs : List α} {l : List Nat} (h : ∀ i ∈ l, i < xs.length) (a : α) :
    l.filterMap (xs[·]?) = l.map fun i => (xs[i]?).getD a := by
  rw [← List.filterMap_eq_map]
  refine List.filterMap_congr fun i hi => ?_
  rw [Function.comp_apply, List.getElem?_eq_getElem (h i hi), Option.getD_some]

namespace Script

open Session (Scope Lens Sound Twins Region)

variable {σ : Scope} {s : Step} {tr tr' : Sided}

/-! ### Tasks by their names -/

/-- The first of some names that are kept is found again where it is kept, behind as many that are within. -/
theorem exists_idxOf?_kept {marks : List (String × Side)} {name : String} {t : Nat} {x : Side}
    (ht : (marks.map Prod.fst).idxOf? name = some t) (hx : (marks.map Prod.snd)[t]? = some x) (hne : x ≠ .elsewhere) :
    ∃ t', ((marks.filter (·.2 != .elsewhere)).map Prod.fst).idxOf? name = some t'
      ∧ ((marks.filter (·.2 != .elsewhere)).map Prod.snd)[t']? = some x
      ∧ (((marks.filter (·.2 != .elsewhere)).map Prod.snd).take t').count .within
        = ((marks.map Prod.snd).take t).count .within := by
  induction marks generalizing t with
  | nil => cases ht
  | cons mark marks ih =>
    obtain ⟨n, y⟩ := mark
    rw [List.map_cons, List.idxOf?_cons] at ht
    by_cases hn : n = name
    · subst hn
      simp only [beq_self_eq_true, if_true, Option.some.injEq] at ht
      subst ht
      simp only [List.map_cons, List.getElem?_cons_zero, Option.some.injEq] at hx
      subst hx
      refine ⟨0, ?_, ?_, rfl⟩
      · simp [hne, List.idxOf?_cons]
      · simp [hne]
    · rw [if_neg (by simpa using hn)] at ht
      obtain ⟨u, hu, rfl⟩ := Option.map_eq_some_iff.1 ht
      rw [List.map_cons, List.getElem?_cons_succ] at hx
      obtain ⟨t', ht', hx', hcount⟩ := ih hu hx
      by_cases hy : y = .elsewhere
      · subst hy
        refine ⟨t', by simpa using ht', by simpa using hx', ?_⟩
        simp only [List.map_cons, List.take_succ_cons, List.count_cons]
        simpa using hcount
      · refine ⟨t' + 1, ?_, ?_, ?_⟩
        · simp [hy, List.idxOf?_cons, hn, ht']
        · simp [hy, hx']
        · simp [hy, List.count_cons, hcount]

/-- The number of a task that is within, among those. -/
theorem idxOf_idxsOf {sides : List Side} {t : Nat} (ht : sides[t]? = some .within) :
    (sides.idxsOf .within).idxOf t = (sides.take t).count .within := by
  obtain ⟨hlt, hget⟩ := List.getElem?_eq_some_iff.1 ht
  have hsplit : sides = sides.take t ++ .within :: sides.drop (t + 1) := by
    rw [← hget, List.cons_getElem_drop_succ, List.take_append_drop]
  have hlen : (sides.take t).length = t := List.length_take_of_le (Nat.le_of_lt hlt)
  have hbefore : t ∉ (sides.take t).idxsOf .within := by
    intro hmem
    have hlt' := List.lt_add_of_mem_idxsOf t hmem
    omega
  have hidxs : sides.idxsOf .within
      = (sides.take t).idxsOf .within ++ t :: (sides.drop (t + 1)).idxsOf .within (t + 1) := by
    conv_lhs => rw [hsplit]
    rw [List.idxsOf_append, hlen, Nat.zero_add, List.idxsOf_cons]
    rfl
  rw [hidxs, List.idxOf_append_of_notMem hbefore, List.idxOf_cons_self, List.length_idxsOf, Nat.add_zero]

/-! ### A script without the steps that are elsewhere -/

namespace Sided

/-- The lens that shows the tasks that were called on what is looked at. -/
def lens (σ : Scope) (tr : Sided) : Lens := ⟨σ, tr.within, List.nodup_idxsOf⟩

theorem lens_congr (h : tr'.within = tr.within) : tr'.lens σ = tr.lens σ := by
  simp only [lens, h]

theorem within_concat (st : State) (sides : List Side) (x : Side) :
    (⟨st, sides ++ [x]⟩ : Sided).within = (⟨st, sides⟩ : Sided).within ++ if x = .within then [sides.length] else [] := by
  rw [within, within, List.idxsOf_append]
  cases x <;> simp

theorem lens_concat (st : State) {x : Side} (hx : x ≠ .within) : (⟨st, tr.sides ++ [x]⟩ : Sided).lens σ = tr.lens σ :=
  lens_congr ((within_concat ..).trans (by rw [if_neg hx, List.append_nil]; rfl))

theorem mem_within {t : Nat} : t ∈ tr.within ↔ tr.sides[t]? = some .within := by
  rw [within, List.mem_idxsOf_iff_exists_getElem_pos, List.getElem?_eq_some_iff]
  simp only [beq_iff_eq]

end Sided

/-- A script, and the same one without the steps that are elsewhere. -/
structure Thins (σ : Scope) (tr tr' : Sided) : Prop where
  similar : State.Similar (tr.lens σ) (tr'.lens σ) tr.state tr'.state
  marked : tr'.state.tasks.zip tr'.sides = (tr.state.tasks.zip tr.sides).filter (·.2 != .elsewhere)
  decided : σ.isAll = true → .neither ∉ tr.sides

namespace Thins

theorem start (σ : Scope) (environment : Environment) (out err : Stream.Traits) :
    Thins σ (.start environment out err) (.start environment out err) := by
  refine ⟨⟨⟨?_, ?_, rfl, rfl⟩, rfl, rfl, rfl⟩, rfl, fun _ => List.not_mem_nil⟩
  all_goals
    exact ⟨Session.sound_start out err, fun t task hk => (by cases hk), fun t ht => (by cases ht),
      fun t ht => (by cases ht)⟩

/-- The same states, with the same sides. -/
theorem of_similar (h : Thins σ tr tr') {st st' : State} (hs : State.Similar (tr.lens σ) (tr'.lens σ) st st')
    (ht : st.tasks = tr.state.tasks) (ht' : st'.tasks = tr'.state.tasks) :
    Thins σ ⟨st, tr.sides ++ []⟩ ⟨st', tr'.sides ++ []⟩ := by
  rw [List.append_nil, List.append_nil]
  exact ⟨hs, by rw [ht, ht']; exact h.marked, h.decided⟩

/-- A new task in both. -/
theorem of_concat (h : Thins σ tr tr') (hp : tr.Proper) (hp' : tr'.Proper) {st st' : State} {x : Side} (name : String)
    (hs : State.Similar ((⟨st, tr.sides ++ [x]⟩ : Sided).lens σ) ((⟨st', tr'.sides ++ [x]⟩ : Sided).lens σ) st st')
    (ht : st.tasks = tr.state.tasks ++ [name]) (ht' : st'.tasks = tr'.state.tasks ++ [name]) (hx : x ≠ .elsewhere)
    (hd : σ.isAll = true → x ≠ .neither) : Thins σ ⟨st, tr.sides ++ [x]⟩ ⟨st', tr'.sides ++ [x]⟩ := by
  refine ⟨hs, ?_, fun hall => ?_⟩
  · rw [ht, ht', List.zip_append (hp.names.trans hp.sides.symm), List.zip_append (hp'.names.trans hp'.sides.symm),
      List.filter_append, h.marked]
    simp [hx]
  · simp only [List.mem_append, List.mem_singleton, not_or]
    exact ⟨h.decided hall, (hd hall).symm⟩

/-- A step that calls something that does not stand elsewhere. -/
theorem call (h : Thins σ tr tr') (hp : tr.Proper) (hp' : tr'.Proper) {task name : String} {method : Method}
    (hs : ∀ limit target, method ≠ .forward limit target) (hhere : tr.isElsewhere σ (.call task name method) = false) :
    (tr'.state.perform (.call task name method)).2 = (tr.state.perform (.call task name method)).2
      ∧ Thins σ (tr.perform σ (.call task name method)) (tr'.perform σ (.call task name method)) := by
  have hmember := h.similar.member name
  simp only [Sided.isElsewhere] at hhere
  simp only [Sided.perform, State.perform, State.callNamed, State.called?, hmember]
  cases hm : tr.state.member name with
  | error e => exact ⟨rfl, h.of_similar h.similar rfl rfl⟩
  | ok m =>
    rw [hm] at hhere
    simp only [State.call]
    cases hc : method.call? m with
    | none => exact ⟨rfl, h.of_similar h.similar rfl rfl⟩
    | some c =>
      refine ⟨rfl, ?_⟩
      have hside : m.side σ tr'.state.session = m.side σ tr.state.session :=
        Member.side_congr h.similar.twins.outlets h.similar.twins.gatePipe?
      have hfits : tr.state.session.Fits c :=
        (hp.loopless.proper.member hm).fits (fun limit target he => absurd he (hs limit target)) hc
      have hhas : ∀ r, tr.state.session.Regards c r → (σ.Has r ↔ m.side σ tr.state.session = .within) :=
        fun r hr => Method.has_iff hp.sound.housed hs hc hr
      simp only [Option.isSome_some, if_true, Option.toList_some, List.map_singleton, hside]
      refine h.of_concat hp hp' task ⟨?_, h.similar.members, h.similar.pipes, h.similar.environment⟩ rfl rfl
        (by simpa using hhere) Member.side_ne_neither
      by_cases hx : m.side σ tr.state.session = .within
      · refine h.similar.twins.spawn_shown hfits (fun r hr => (hhas r hr).2 hx) rfl rfl ?_ ?_
        · exact (Sided.within_concat ..).trans (by rw [if_pos hx, hp.sides]; rfl)
        · exact (Sided.within_concat ..).trans (by rw [if_pos hx, hp'.sides]; rfl)
      · have hlens : ∀ (tr₁ : Sided) (st' : State),
            (⟨st', tr₁.sides ++ [m.side σ tr.state.session]⟩ : Sided).lens σ = tr₁.lens σ :=
          fun tr₁ st' => Sided.lens_concat st' hx
        have hnot : ∀ r, tr.state.session.Regards c r → ¬σ.Has r := fun r hr => mt (hhas r hr).1 hx
        rw [hlens, hlens]
        have haside := h.similar.twins.spawn_aside hfits hnot
        refine (haside.symm.spawn_aside (h.similar.twins.fits hfits) fun r hr => hnot r ?_).symm
        exact (h.similar.twins.regards c r).1 hr

theorem exists_side (hp : tr.Proper) {name : String} {t : Nat} (ht : tr.state.tasks.idxOf? name = some t) :
    ∃ x, tr.sides[t]? = some x := by
  have hlt : t < tr.sides.length := by
    rw [hp.sides, ← hp.names]
    exact (List.findIdx?_eq_some_iff_getElem.1 ht).1
  exact ⟨_, List.getElem?_eq_getElem hlt⟩

/-- The first task with a name that is not elsewhere is found in both. -/
theorem exists_task (h : Thins σ tr tr') (hp : tr.Proper) (hp' : tr'.Proper) {name : String} {t : Nat} {x : Side}
    (ht : tr.state.tasks.idxOf? name = some t) (hx : tr.sides[t]? = some x) (hne : x ≠ .elsewhere) :
    ∃ t', tr'.state.tasks.idxOf? name = some t' ∧ tr'.sides[t']? = some x
      ∧ (tr'.sides.take t').count .within = (tr.sides.take t).count .within := by
  have hmarks : ∀ tr : Sided, tr.Proper → (tr.state.tasks.zip tr.sides).map Prod.fst = tr.state.tasks
      ∧ (tr.state.tasks.zip tr.sides).map Prod.snd = tr.sides := by
    intro tr hp
    have hlen := hp.names.trans hp.sides.symm
    exact ⟨List.map_fst_zip (Nat.le_of_eq hlen), List.map_snd_zip (Nat.le_of_eq hlen.symm)⟩
  obtain ⟨hnames, hsides⟩ := hmarks tr hp
  obtain ⟨hnames', hsides'⟩ := hmarks tr' hp'
  rw [← hnames] at ht
  rw [← hsides] at hx
  have hkept := exists_idxOf?_kept ht hx hne
  rwa [← h.marked, hnames', hsides', hsides] at hkept

theorem idxOf?_eq_none (h : Thins σ tr tr') (hp' : tr'.Proper) {name : String}
    (ht : tr.state.tasks.idxOf? name = none) : tr'.state.tasks.idxOf? name = none := by
  rw [List.idxOf?_eq_none_iff] at ht ⊢
  intro hmem
  rw [← List.map_fst_zip (Nat.le_of_eq (hp'.names.trans hp'.sides.symm)), h.marked] at hmem
  obtain ⟨mark, hmark, rfl⟩ := List.mem_map.1 hmem
  exact ht (List.of_mem_zip (List.mem_of_mem_filter hmark)).1

/-- A step that asks a task to end that was not called elsewhere. -/
theorem cancel (h : Thins σ tr tr') (hp : tr.Proper) (hp' : tr'.Proper) {task : String}
    (hhere : tr.isElsewhere σ (.cancel task) = false) :
    (σ.isAll = true → (tr'.state.perform (.cancel task)).2 = (tr.state.perform (.cancel task)).2)
      ∧ Thins σ (tr.perform σ (.cancel task)) (tr'.perform σ (.cancel task)) := by
  simp only [Sided.isElsewhere] at hhere
  simp only [Sided.perform, State.perform, State.cancel, State.called?]
  cases ht : tr.state.tasks.idxOf? task with
  | none =>
    rw [h.idxOf?_eq_none hp' ht]
    exact ⟨fun _ => rfl, h.of_similar h.similar rfl rfl⟩
  | some t =>
    obtain ⟨x, hx⟩ := exists_side hp ht
    simp only [ht, hx] at hhere
    have helsewhere : x ≠ .elsewhere := by simpa using hhere
    obtain ⟨t', ht', hx', hcount⟩ := h.exists_task hp hp' ht hx helsewhere
    rw [ht']
    have hof : ∀ {s s' : Session}, Twins (tr.lens σ) (tr'.lens σ) s s' →
        Thins σ ⟨{ tr.state with session := s }, tr.sides ++ []⟩ ⟨{ tr'.state with session := s' }, tr'.sides ++ []⟩ :=
      fun ht => h.of_similar (h.similar.of_session ht) rfl rfl
    by_cases hin : x = .within
    · subst hin
      have hplace : (tr'.lens σ).place t' = (tr.lens σ).place t := by
        rw [Lens.place, Lens.place]
        exact (idxOf_idxsOf hx').trans (hcount.trans (idxOf_idxsOf hx).symm)
      obtain ⟨hflag, htwins⟩ := h.similar.twins.cancel_shown (Sided.mem_within.2 hx) (Sided.mem_within.2 hx') hplace
      exact ⟨fun _ => congrArg (fun accepted => Except.ok (Result.flag accepted)) hflag, hof htwins⟩
    · have hout : t ∉ tr.within := fun hmem => by
        rw [Sided.mem_within, hx, Option.some.injEq] at hmem
        exact hin hmem
      have hout' : t' ∉ tr'.within := fun hmem => by
        rw [Sided.mem_within, hx', Option.some.injEq] at hmem
        exact hin hmem
      refine ⟨fun hall => ?_, hof ((h.similar.twins.cancel_aside hout).symm.cancel_aside hout').symm⟩
      -- if everything is looked at, a task is within or elsewhere
      have hneither : x ≠ .neither := fun he => h.decided hall (he ▸ List.mem_of_getElem? hx)
      cases x with
      | within => exact absurd rfl hin
      | elsewhere => exact absurd rfl helsewhere
      | neither => exact absurd rfl hneither

/-- A step that is not elsewhere does the same in both. -/
theorem perform (h : Thins σ tr tr') (hp : tr.Proper) (hp' : tr'.Proper) (hs : s.IsLoopless)
    (hhere : tr.isElsewhere σ s = false) : (σ.isAll = true → (tr'.state.perform s).2 = (tr.state.perform s).2)
      ∧ Thins σ (tr.perform σ s) (tr'.perform σ s) := by
  by_cases hcall : ∃ task name method, s = .call task name method
  · obtain ⟨task, name, method, rfl⟩ := hcall
    obtain ⟨hresult, hthins⟩ := h.call hp hp' hs hhere
    exact ⟨fun _ => hresult, hthins⟩
  · by_cases hcancel : ∃ task, s = .cancel task
    · obtain ⟨task, rfl⟩ := hcancel
      exact h.cancel hp hp' hhere
    · have hagree := h.similar.perform hp.loopless.proper hs.isPlain
        (fun task name method he => hcall ⟨task, name, method, he⟩)
        (fun task name limit target he => by rw [he] at hs; exact hs) (fun task he => hcancel ⟨task, he⟩)
      have hnone : ∀ st : State, st.called? s = none := by
        intro st
        cases s <;> first | rfl | exact absurd ⟨_, _, _, rfl⟩ hcall
      refine ⟨hagree.result, ?_⟩
      have hsame : ∀ {tr : Sided}, tr.Proper → (tr.state.perform s).1.tasks = tr.state.tasks := fun {tr} hp => by
        rw [(hp.counts hs).1, hnone, Option.toList_none, List.map_nil, List.append_nil]
      simp only [Sided.perform, hnone]
      exact h.of_similar hagree.similar (hsame hp) (hsame hp')

/-- A step that is elsewhere is done in one only. -/
theorem skip (h : Thins σ tr tr') (hp : tr.Proper) (hs : s.IsLoopless) (helsewhere : tr.isElsewhere σ s = true) :
    Thins σ (tr.perform σ s) tr' := by
  have hsimilar : ∀ {q : Session}, Twins (tr.lens σ) (tr'.lens σ) q tr'.state.session →
      State.Similar (tr.lens σ) (tr'.lens σ) { tr.state with session := q } tr'.state :=
    fun ht => ⟨ht, h.similar.members, h.similar.pipes, h.similar.environment⟩
  have hunchanged : Thins σ ⟨tr.state, tr.sides ++ []⟩ tr' := by
    rw [List.append_nil]
    exact h
  cases s with
  | call task name method =>
    simp only [Sided.isElsewhere] at helsewhere
    simp only [Sided.perform, State.perform, State.callNamed, State.called?]
    cases hm : tr.state.member name with
    | error e => exact hunchanged
    | ok m =>
      rw [hm] at helsewhere
      have hside : m.side σ tr.state.session = .elsewhere := by simpa using helsewhere
      simp only [State.call]
      cases hc : method.call? m with
      | none => exact hunchanged
      | some c =>
        have hfits : tr.state.session.Fits c :=
          (hp.loopless.proper.member hm).fits (fun limit target he => absurd he (hs limit target)) hc
        have hnot : ∀ r, tr.state.session.Regards c r → ¬σ.Has r := fun r hr hhas => by
          rw [Method.has_iff hp.sound.housed hs hc hr, hside] at hhas
          cases hhas
        have hlens : ∀ st, (⟨st, tr.sides ++ [.elsewhere]⟩ : Sided).lens σ = tr.lens σ :=
          fun st => Sided.lens_concat st (by simp)
        simp only [Option.isSome_some, if_true, Option.toList_some, List.map_singleton, hside]
        refine ⟨?_, ?_, fun hall => ?_⟩
        · rw [hlens]
          exact ⟨h.similar.twins.spawn_aside hfits hnot, h.similar.members, h.similar.pipes, h.similar.environment⟩
        · rw [h.marked, List.zip_append (hp.names.trans hp.sides.symm), List.filter_append]
          simp
        · simp only [List.mem_append, List.mem_singleton, not_or]
          exact ⟨h.decided hall, by simp⟩
  | cancel task =>
    simp only [Sided.isElsewhere] at helsewhere
    simp only [Sided.perform, State.perform, State.cancel, State.called?]
    cases ht : tr.state.tasks.idxOf? task with
    | none => exact hunchanged
    | some t =>
      rw [ht] at helsewhere
      have hx : tr.sides[t]? = some .elsewhere := by simpa using helsewhere
      have hout : t ∉ tr.within := fun hmem => by
        rw [Sided.mem_within, hx] at hmem
        cases hmem
      simp only [Option.toList_none, List.map_nil, List.append_nil]
      exact ⟨hsimilar (h.similar.twins.cancel_aside hout), h.marked, h.decided⟩
  | _ => cases helsewhere

theorem named_eq (hp : tr.Proper) : tr.named = (tr.within.filterMap (tr.state.tasks[·]?)).zip
    ((tr.state.session.focus (tr.lens σ)).tasks.map Task.outcome?) := by
  have hlt : ∀ t ∈ tr.within, t < tr.state.session.tasks.length := by
    intro t ht
    rw [← hp.sides]
    exact (List.getElem?_eq_some_iff.1 (Sided.mem_within.1 ht)).1
  have houtcomes : tr.within.filterMap ((tr.state.session.tasks.map Task.outcome?)[·]?)
      = (tr.within.filterMap (tr.state.session.tasks[·]?)).map Task.outcome? := by
    rw [List.map_filterMap]
    exact List.filterMap_congr fun t _ => List.getElem?_map
  rw [Sided.named, State.namedTasks, filterMap_getElem?_zip fun t ht => ?_, houtcomes, filterMap_getElem?_eq_map hlt]
  · rfl
  · rw [hp.names, List.length_map]
    exact ⟨hlt t ht, hlt t ht⟩

/-- The tasks within have the same names, and the same outcomes. -/
theorem named (h : Thins σ tr tr') (hp : tr.Proper) (hp' : tr'.Proper) : tr'.named = tr.named := by
  have hnames : tr'.within.filterMap (tr'.state.tasks[·]?) = tr.within.filterMap (tr.state.tasks[·]?) := by
    rw [Sided.filterMap_within (hp.names.trans hp.sides.symm), Sided.filterMap_within (hp'.names.trans hp'.sides.symm),
      h.marked, List.filter_filter]
    congr 1
    refine List.filter_congr fun mark _ => ?_
    cases mark.2 <;> rfl
  rw [named_eq (σ := σ) hp, named_eq (σ := σ) hp', hnames, h.similar.twins.focus]

/-- How a task within ended, by its place among those. -/
theorem ending?_eq (hp : tr.Proper) {t : Nat} (ht : t ∈ tr.within) :
    tr.state.namedTasks[t]? = tr.named[(tr.lens σ).place t]? := by
  have hlt : ∀ t ∈ tr.within, t < tr.state.namedTasks.length := by
    intro t ht
    have hlt := (List.getElem?_eq_some_iff.1 (Sided.mem_within.1 ht)).1
    rw [State.namedTasks, List.length_zip, List.length_map, hp.names, ← hp.sides, Nat.min_self]
    exact hlt
  have hplace : tr.within[(tr.lens σ).place t]? = some t := (tr.lens σ).getElem?_place ht
  rw [Sided.named, filterMap_getElem?_eq_map hlt ("", none), List.getElem?_map, hplace, Option.map_some,
    List.getElem?_eq_getElem (hlt t ht), Option.getD_some]

/-! What is said -/

theorem side_eq (h : Thins σ tr tr') (m : Member) : m.side σ tr'.state.session = m.side σ tr.state.session :=
  Member.side_congr h.similar.twins.outlets h.similar.twins.gatePipe?

theorem pipes_about (h : Thins σ tr tr') (result : Except Failure Result) (notices : List Notice) :
    (tr'.about σ result notices).pipes = (tr.about σ result notices).pipes := by
  have hpipe : ∀ (s : Session) (p : Nat), (s.channels.map Channel.pipe)[p]? = s.pipe? p := fun s p => by
    rw [List.getElem?_map, Session.pipe?]
  simp only [Sided.about, h.similar.pipes]
  refine List.filterMap_congr fun p hp => ?_
  have hin : σ.pipe p = true := (List.mem_filter.1 hp).2
  have hsame : tr'.state.session.pipe? p = tr.state.session.pipe? p := h.similar.twins.pipe?_eq hin
  simp only [List.zip, List.getElem?_zipWith, hpipe, hsame]

/-- A gate of a member that stands within. -/
theorem gateHeld (h : Thins σ tr tr') {m : Member} {g : Nat} (hm : m.pipe? tr.state.session = tr.state.session.gatePipe? g)
    (hside : m.side σ tr.state.session = .within) : tr'.state.session.gateHeld g = tr.state.session.gateHeld g := by
  cases hp : tr.state.session.gatePipe? g with
  | some p => exact h.similar.twins.gateHeld_eq hp (Member.scope_of_within hside (hm.trans hp))
  | none => exact h.similar.twins.gateHeld_of_all (Member.isAll_of_within hside (hm.trans hp)) g

theorem locked_about (h : Thins σ tr tr') (result : Except Failure Result) (notices : List Notice) :
    (tr'.about σ result notices).locked = (tr.about σ result notices).locked := by
  simp only [Sided.about, h.similar.members, h.side_eq]
  refine congrArg _ (List.filter_congr fun m _ => ?_)
  cases hside : m.2.side σ tr.state.session with
  | elsewhere => exact (Bool.and_false _).trans (Bool.and_false _).symm
  | neither => exact (Bool.and_false _).trans (Bool.and_false _).symm
  | within =>
    have hheld : ∀ {g}, m.2.pipe? tr.state.session = tr.state.session.gatePipe? g →
        tr'.state.session.gateHeld g = tr.state.session.gateHeld g := fun hg => h.gateHeld hg hside
    have hsame : tr'.state.isLocked m.2 = tr.state.isLocked m.2 := by
      cases hm : m.2 with
      | gate g => exact hheld (by rw [hm]; rfl)
      | outlet o =>
        simp only [State.isLocked, Session.outletLocked, h.similar.twins.outlets]
        cases hb : (tr.state.session.outlets[o]?).bind Outlet.backing with
        | none => rfl
        | some b =>
          cases b with
          | gate g => exact hheld (by rw [hm, Member.pipe?, hb]; rfl)
          | _ => rfl
      | _ => rfl
    rw [hsame]

/-- What has ended since the last report. -/
theorem ended_about (h : Thins σ tr tr') (hp : tr.Proper) (hp' : tr'.Proper) {ends ends' : List Nat}
    (hnew : (ends'.filter (· ∈ tr'.within)).map (tr'.lens σ).place = (ends.filter (· ∈ tr.within)).map (tr.lens σ).place) :
    (ends'.filter (· ∈ tr'.within)).filterMap tr'.state.ending? = (ends.filter (· ∈ tr.within)).filterMap tr.state.ending? := by
  have hby : ∀ {tr : Sided}, tr.Proper → ∀ ends : List Nat, (ends.filter (· ∈ tr.within)).filterMap tr.state.ending?
      = ((ends.filter (· ∈ tr.within)).map (tr.lens σ).place).filterMap fun i =>
        tr.named[i]?.bind fun task => task.2.map (Prod.mk task.1) := by
    intro tr hp ends
    rw [List.filterMap_map]
    refine List.filterMap_congr fun t ht => ?_
    have hin : t ∈ tr.within := by simpa using (List.mem_filter.1 ht).2
    rw [State.ending?, ending?_eq (σ := σ) hp hin, Function.comp_apply]
    rcases tr.named[(tr.lens σ).place t]? with _ | ⟨name, _ | outcome⟩ <;> rfl
  rw [hby hp, hby hp', hnew, h.named hp hp']

/-- A session that settles, or is left as it is, ends more tasks. -/
theorem endings_pause (hp : tr.Proper) (hasty : Bool) :
    ∃ ts, (tr.pause hasty).state.session.endings = tr.state.session.endings ++ ts := by
  cases hasty with
  | true => exact ⟨[], (List.append_nil _).symm⟩
  | false => exact Session.endings_run hp.sound _

/-- The endings that are shown are those that were reported before, and those that are to be reported. -/
theorem endings_focus_pause (hp : tr.Proper) (hr : tr.Reported) (hasty : Bool) :
    ((tr.pause hasty).state.session.focus ((tr.pause hasty).lens σ)).endings
      = (tr.state.session.focus (tr.lens σ)).endings
        ++ (((tr.pause hasty).state.session.endings.drop (tr.pause hasty).state.endingsSeen).filter
            (· ∈ (tr.pause hasty).within)).map ((tr.pause hasty).lens σ).place := by
  obtain ⟨ts, hts⟩ := endings_pause hp hasty
  have hseen : (tr.pause hasty).state.endingsSeen = tr.state.session.endings.length := by
    rw [← hr.endings]
    cases hasty <;> rfl
  have hlens : (tr.pause hasty).lens σ = tr.lens σ := by cases hasty <;> rfl
  have hwithin : (tr.pause hasty).within = tr.within := by cases hasty <;> rfl
  rw [hseen, hlens, hwithin, hts, List.drop_left]
  simp only [Session.focus, hts, List.filter_append, List.map_append]
  rfl

/-- After a step both settle, or neither does; the tasks within give the same notices. -/
theorem pause (h : Thins σ tr tr') (hp : tr.Proper) (hp' : tr'.Proper) (hasty : Bool) :
    tr'.noticesWithin hasty = tr.noticesWithin hasty ∧ Thins σ (tr.pause hasty) (tr'.pause hasty) := by
  cases hasty with
  | true => exact ⟨rfl, h⟩
  | false =>
    obtain ⟨hnotices, htwins⟩ := h.similar.twins.settle hp.loopless.ready_settle hp'.loopless.ready_settle
    exact ⟨hnotices, ⟨htwins, h.similar.members, h.similar.pipes, h.similar.environment⟩, h.marked, h.decided⟩

/-- What is said then about what is looked at. -/
theorem about_pause (h : Thins σ tr tr') (hp : tr.Proper) (hp' : tr'.Proper) (hr : tr.Reported) (hr' : tr'.Reported)
    (hasty : Bool) (result : Except Failure Result) (notices : List Notice) :
    (tr'.pause hasty).about σ result notices = (tr.pause hasty).about σ result notices := by
  obtain ⟨-, hpause⟩ := h.pause hp hp' hasty
  have hended : ((tr'.pause hasty).about σ result notices).ended = ((tr.pause hasty).about σ result notices).ended := by
    refine hpause.ended_about (hp.pause hasty) (hp'.pause hasty) ?_
    have hall := congrArg Session.endings hpause.similar.twins.focus
    rw [endings_focus_pause hp hr, endings_focus_pause hp' hr', congrArg Session.endings h.similar.twins.focus] at hall
    exact List.append_cancel_left hall
  have hpending : ((tr'.pause hasty).about σ result notices).pending = ((tr.pause hasty).about σ result notices).pending := by
    rw [Sided.about, Sided.about, hpause.named (hp.pause hasty) (hp'.pause hasty)]
  have hpipes := hpause.pipes_about result notices
  have hlocked := hpause.locked_about result notices
  rw [Sided.about] at hended hpending hpipes hlocked ⊢
  rw [Sided.about] at hended hpending hpipes hlocked ⊢
  simp only [Report.mk.injEq]
  exact ⟨trivial, hended, trivial, hpending, hpipes, hlocked⟩

theorem isElsewhere_eq (h : Thins σ tr tr') (hp : tr.Proper) (hp' : tr'.Proper) (hhere : tr.isElsewhere σ s = false) :
    tr'.isElsewhere σ s = false := by
  cases s with
  | call task name method => simpa only [Sided.isElsewhere, h.similar.member, h.side_eq] using hhere
  | cancel task =>
    simp only [Sided.isElsewhere] at hhere ⊢
    cases ht : tr.state.tasks.idxOf? task with
    | none => rw [h.idxOf?_eq_none hp' ht]
    | some t =>
      obtain ⟨x, hx⟩ := exists_side hp ht
      simp only [ht, hx] at hhere
      obtain ⟨t', ht', hx', -⟩ := h.exists_task hp hp' ht hx (by simpa using hhere)
      simp only [ht', hx', hhere]
  | _ => rfl

/-- What was reported does not matter. -/
theorem seen (h : Thins σ tr tr') :
    Thins σ { tr with state := tr.state.seen } { tr' with state := tr'.state.seen } :=
  ⟨⟨h.similar.twins, h.similar.members, h.similar.pipes, h.similar.environment⟩, h.marked, h.decided⟩

/-- A step in both scripts. -/
theorem step (h : Thins σ tr tr') (hp : tr.Proper) (hp' : tr'.Proper) (hr : tr.Reported) (hr' : tr'.Reported)
    (hs : s.IsLoopless) (hhere : tr.isElsewhere σ s = false) (hasty : Bool) :
    tr'.report σ s hasty = tr.report σ s hasty ∧ Thins σ (tr.step σ s hasty) (tr'.step σ s hasty) := by
  obtain ⟨hresult, hperform⟩ := h.perform hp hp' hs hhere
  have hq : (tr.perform σ s).Proper := hp.perform hs
  have hq' : (tr'.perform σ s).Proper := hp'.perform hs
  obtain ⟨hnotices, hpause⟩ := hperform.pause hq hq' hasty
  refine ⟨?_, hpause.seen⟩
  have hsame : (if σ.isAll && !tr'.isElsewhere σ s then (tr'.state.perform s).2 else .ok .nothing)
      = if σ.isAll && !tr.isElsewhere σ s then (tr.state.perform s).2 else .ok .nothing := by
    rw [hhere, h.isElsewhere_eq hp hp' hhere]
    cases hall : σ.isAll with
    | true => rw [hresult hall]
    | false => rfl
  simp only [Sided.report, hsame, hnotices]
  exact hperform.about_pause hq hq' (hp.reported_perform hr hs) (hp'.reported_perform hr' hs) hasty _ _

/-- A step that is elsewhere, and settling in its place. -/
theorem settle_instead (h : Thins σ tr tr') (hp : tr.Proper) (hp' : tr'.Proper) (hr : tr.Reported) (hr' : tr'.Reported)
    (hs : s.IsLoopless) (helsewhere : tr.isElsewhere σ s = true) :
    tr'.report σ .settle false = tr.report σ s false ∧ Thins σ (tr.step σ s false) (tr'.step σ .settle false) := by
  have hskip := h.skip hp hs helsewhere
  have hsettle : tr'.perform σ .settle = tr' := congrArg (Sided.mk tr'.state) (List.append_nil _)
  have hq : (tr.perform σ s).Proper := hp.perform hs
  obtain ⟨hnotices, hpause⟩ := hskip.pause hq hp' false
  refine ⟨?_, ?_⟩
  · have hnothing : (if σ.isAll && !tr'.isElsewhere σ .settle then (tr'.state.perform .settle).2 else .ok .nothing)
        = if σ.isAll && !tr.isElsewhere σ s then (tr.state.perform s).2 else .ok .nothing := by
      rw [helsewhere, Bool.not_true, Bool.and_false]
      cases σ.isAll <;> rfl
    simp only [Sided.report, hnothing, hsettle, hnotices]
    exact hskip.about_pause hq hp' (hp.reported_perform hr hs) hr' false _ _
  · rw [Sided.step, Sided.step, hsettle]
    exact hpause.seen

/-- All steps.  Nothing of what is left is elsewhere. -/
theorem reports (h : Thins σ tr tr') (hp : tr.Proper) (hp' : tr'.Proper) (hr : tr.Reported) (hr' : tr'.Reported)
    {steps : List (Step × Bool)} (hsteps : ∀ s ∈ steps, s.1.IsLoopless) :
    tr'.reports σ (tr.thinned σ steps).reduceOption = Sided.kept (tr.thinned σ steps) (tr.reports σ steps)
      ∧ tr'.thinned σ (tr.thinned σ steps).reduceOption = (tr.thinned σ steps).reduceOption.map some := by
  induction steps generalizing tr tr' with
  | nil => exact ⟨rfl, rfl⟩
  | cons step rest ih =>
    obtain ⟨s, hasty⟩ := step
    have hs : s.IsLoopless := hsteps _ List.mem_cons_self
    have hrest := fun s hs => hsteps s (List.mem_cons_of_mem _ hs)
    have hnext : (tr.step σ s hasty).Proper := hp.step hs hasty
    rw [Sided.thinned, Sided.reports, Sided.left?]
    cases helsewhere : tr.isElsewhere σ s with
    | false =>
      obtain ⟨hreport, hstep⟩ := h.step hp hp' hr hr' hs helsewhere hasty
      obtain ⟨hreports, hthinned⟩ := ih hstep hnext (hp'.step hs hasty) (.step ..) (.step ..) hrest
      rw [if_neg (by simp), List.reduceOption_cons_of_some, Sided.reports, Sided.kept_cons_some, Sided.thinned,
        Sided.left?, h.isElsewhere_eq hp hp' helsewhere, if_neg (by simp)]
      exact ⟨congrArg₂ _ hreport hreports, congrArg _ hthinned⟩
    | true =>
      rw [if_pos rfl]
      cases hasty with
      | true =>
        rw [if_pos rfl, List.reduceOption_cons_of_none, Sided.kept_cons_none]
        have hskip := h.skip hp hs helsewhere
        have hseen : Thins σ (tr.step σ s true) tr' :=
          ⟨⟨hskip.similar.twins, hskip.similar.members, hskip.similar.pipes, hskip.similar.environment⟩, hskip.marked,
            hskip.decided⟩
        exact ih hseen hnext hp' (.step ..) hr' hrest
      | false =>
        obtain ⟨hreport, hstep⟩ := h.settle_instead hp hp' hr hr' hs helsewhere
        obtain ⟨hreports, hthinned⟩ := ih hstep hnext (hp'.step (s := .settle) trivial false) (.step ..) (.step ..) hrest
        rw [if_neg (by simp), List.reduceOption_cons_of_some, Sided.reports, Sided.kept_cons_some, Sided.thinned]
        exact ⟨congrArg₂ _ hreport hreports, congrArg _ hthinned⟩

end Thins

/-- Whatever is looked at, the steps that call or cancel something elsewhere can be replaced by settling, or left
out if they are hasty, and the reports say the same about it as before.  If that is everything but the outlets for
nothing, the reports on the steps that are left say nothing else.  A call on an outlet for nothing never waits: it
ends in its first turn, in which nothing else happens. -/
theorem pipes_are_independent (environment : Environment) (out err : Stream.Traits) {steps : List (Step × Bool)}
    (hsteps : ∀ s ∈ steps, s.1.IsLoopless) :
    let tr := Sided.start environment out err
    (∀ σ : Scope, List.Forall₂ Report.IsPart (tr.reports σ steps) (tr.state.run steps)
      ∧ tr.reports σ (tr.thinned σ steps).reduceOption = Sided.kept (tr.thinned σ steps) (tr.reports σ steps))
    ∧ tr.state.run (tr.thinned .all steps).reduceOption = Sided.kept (tr.thinned .all steps) (tr.reports .all steps)
    ∧ ∀ s : Session, s.Reachable → ∀ (t : Nat) task o x answer, s.tasks[t]? = some task →
      task.call.outlet? = some o → s.outlets[o]? = some x → x.destination = .null →
        task.call.nullAnswer? = some answer → task.stage.place? = none ∧
          ∀ rest, s.ready = .task t :: rest → task.stage = .fresh → task.cancelling = false →
            ∃ entry, s.turn = { s with
              ready := rest
              tasks := s.tasks.modify t fun task => { task with stage := .ended (.ok answer), entry }
              endings := s.endings ++ [t] } := by
  intro tr
  have hp : tr.Proper := .start environment out err
  have hr : tr.Reported := ⟨rfl, rfl⟩
  have hthins := fun σ => (Thins.start σ environment out err).reports hp hp hr hr hsteps
  refine ⟨fun σ => ⟨hp.reports_isPart hr hsteps, (hthins σ).1⟩, ?_, fun s hs t task o x answer hk ho hx hd ha => ⟨?_, ?_⟩⟩
  · obtain ⟨hreports, hthinned⟩ := hthins .all
    have hleft : ∀ s ∈ (tr.thinned .all steps).reduceOption, s.1.IsLoopless := Sided.loopless_thinned hsteps
    rw [← hreports, hp.reports_of_all hr rfl (fun x hx => (by cases hx)) hleft hthinned]
  · exact Session.place?_of_null hs.sound hk ho hx hd ha
  · exact fun rest hready hfresh hcancel => Session.turn_of_null hready hk hfresh hcancel ho hx hd ha

/-- Two pipes, each with an outlet, and an outlet for nothing; of two writes to the first pipe one waits, and while
it does, something is done with the second pipe and with nothing. -/
def besideOthers : List (Step × Bool) :=
  [(.pipe "p" 1, false), (.pipeOutlet "w" "p", false), (.pipe "q" 1, false), (.pipeOutlet "v" "q", false),
    (.namedOutlet "n" "null", false), (.call "a" "w" (.sink (.write [1])), true),
    (.call "b" "v" (.sink (.write [2])), true), (.call "c" "w" (.sink (.write [3])), true),
    (.call "d" "n" (.writeAll [4, 5]), false), (.call "e" "v" (.sink (.write [6])), false),
    (.cancel "e", true), (.call "f" "p.r" (.read 1), false)]

/-- What is said about the first pipe is what is said when only the steps that are left are done.  To write to
nothing takes one turn. -/
theorem kept_besideOthers :
    let tr := Sided.start [] .plain .plain
    let σ : Scope := .pipes (· == 0)
    let s := ((tr.perform σ (.namedOutlet "n" "null")).perform σ (.call "d" "n" (.writeAll [4, 5]))).state.session
    (tr.thinned σ besideOthers).map Option.isSome
        = [true, true, true, true, true, true, false, true, true, true, false, true]
      ∧ ((Sided.kept (tr.thinned σ besideOthers) (tr.reports σ besideOthers)).drop 5).map (fun r => (r.ended, r.pending, r.locked))
        = [([], ["a"], []), ([], ["a", "c"], []), ([("a", .ok (.count 1))], ["c"], ["w"]), ([], ["c"], ["w"]),
          ([("f", .ok (.bytes [1])), ("c", .ok (.count 1))], [], [])]
      ∧ s.ready = [.task 0] ∧ s.turn.ready = [] ∧ s.turn.endings = [0] := by
  intro tr σ s
  have hsteps : ∀ s ∈ besideOthers, s.1.IsLoopless := by
    simp [besideOthers, Step.IsLoopless, Step.IsPlain]
  obtain ⟨hkept, -, hnull⟩ := pipes_are_independent [] .plain .plain hsteps
  refine ⟨by decide +kernel, ?_, rfl, ?_⟩
  · rw [← (hkept σ).2]
    decide +kernel
  · have hcall : (Step.call "d" "n" (.writeAll [4, 5])).IsLoopless := fun limit target he => (by cases he)
    have hp : tr.Proper := .start [] .plain .plain
    have houtlet : (tr.perform σ (.namedOutlet "n" "null")).Proper := hp.perform trivial
    have hs : s.Reachable := (houtlet.perform hcall).loopless.proper.reachable
    obtain ⟨-, hturn⟩ := hnull s hs 0 _ 0 _ _ rfl rfl rfl rfl rfl
    obtain ⟨entry, he⟩ := hturn [] rfl rfl rfl
    rw [he]
    exact ⟨rfl, rfl⟩

end Script

end Outflow
