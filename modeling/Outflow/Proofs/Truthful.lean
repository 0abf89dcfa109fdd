import Outflow.Proofs.Bystander
import Outflow.Proofs.Clones
import Outflow.Proofs.Output

/-!
# Standard streams tell the truth

A standard stream with a byte layer puts what it takes of a write after everything printed or written before, and
no failure and no flush loses, adds or moves any.  The answer to the write is the number of these bytes, except that
one which does not say how many it took is answered as if it had taken all.

* `Stream.Truthful`, `Stream.truthful`: what a stream does with a request, and how far its answer tells it;
* `Use`, `Act`: what can be done to a stream, and what has come of it;
* `output_foldl_used`: a stream after anything that was done to it in any order;
* `Deed`, `taken`, `counted`: what is done to the standard streams, the bytes that one of them is given thereby,
  and those that the answers count;
* `Stdio.Told`: streams after some deeds hold what they held before and what the deeds gave them;
* `told_turn`, `told_perform`: the deeds of a turn, and of a step of a script;
* `streams_tell_the_truth`: the streams of a script at any pace hold the bytes of its deeds in order.
-/

namespace Outflow

/-! ### A request to a stream -/

namespace Stream

variable {s : Stream}

/-- The fault that a request to a stream with a byte layer meets, if any: of the text layer, which is flushed first, or
else of the byte layer. -/
def fault? (s : Stream) : Sink.Request → Option Fault
  | .write [] => none
  | .write _ =>
    s.traits.flushFault.or (if s.traits.writeFaultAfter ≤ s.writes then s.traits.writeFault else none)
  | .flush | .shutdown => s.traits.flushFault.or s.traits.flushBytesFault

/-- What a stream does with a request, and how far its answer tells it. -/
structure Truthful (s : Stream) (q : Sink.Request) : Prop where
  /-- A write that succeeds has added to the output what the stream takes, a beginning of what it was offered. -/
  taken : ∀ data a, q = .write data → (s.perform q).2 = .ok a →
    s.traits.taken data <+: data ∧ (s.perform q).1.output = s.output ++ s.traits.taken data
  /-- It is answered with a number, and that many bytes were added just if the stream said so, or took them all. -/
  told : ∀ data a, q = .write data → (s.perform q).2 = .ok a → ∃ k, k ≤ data.length ∧ a = .count k ∧
    ((s.perform q).1.output = s.output ++ data.take k ↔ (s.traits.silent = true → s.traits.taken data = data))
  /-- A request fails just if it meets a fault, which it passes on. -/
  fails : ∀ f, (s.perform q).2 = .error f ↔ s.fault? q = some f
  /-- What fails has added nothing. -/
  refused : ∀ f, (s.perform q).2 = .error f → (s.perform q).1.output = s.output
  /-- An empty write does nothing at all. -/
  idle : q = .write [] → s.perform q = (s, .ok (.count 0))
  /-- Flushing and ending the output add nothing. -/
  kept : q = .flush ∨ q = .shutdown → (s.perform q).1.output = s.output
  /-- If they succeed, all of the output has reached the sink. -/
  sunk : q = .flush ∨ q = .shutdown → ∀ a, (s.perform q).2 = .ok a →
    (s.perform q).1.sink = s.output ∧ (s.perform q).1.buffered = [] ∧ (s.perform q).1.text = ""
  /-- The stream then answers all later requests as it would have done before. -/
  usable : q = .flush ∨ q = .shutdown → ∀ q', ((s.perform q).1.perform q').2 = (s.perform q').2

/-- Flushing does not change how a stream answers. -/
theorem bare_flush (s : Stream) : s.flush.1.bare = s.bare := by
  obtain ⟨⟨textOnly, _, _, _, _, _, flushFault, flushBytesFault⟩, _, _, _, _, _⟩ := s
  cases textOnly <;> cases flushFault <;> cases flushBytesFault <;> rfl

theorem sink_flush (hs : s.traits.textOnly = false) {a : Answer} (ha : s.flush.2 = .ok a) :
    s.flush.1.sink = s.output ∧ s.flush.1.buffered = [] ∧ s.flush.1.text = "" := by
  obtain ⟨⟨textOnly, _, _, _, _, _, flushFault, flushBytesFault⟩, _, _, _, _, _⟩ := s
  cases hs
  cases flushFault with
  | some f => cases ha
  | none =>
    cases flushBytesFault with
    | some f => cases ha
    | none => exact ⟨(List.append_assoc ..).symm, rfl, rfl⟩

theorem perform_eq_error_iff (hs : s.traits.textOnly = false) (q : Sink.Request) (f : Fault) :
    (s.perform q).2 = .error f ↔ s.fault? q = some f := by
  obtain ⟨⟨textOnly, _, _, silent, writeFault, after, flushFault, flushBytesFault⟩, _, _, _, writes, _⟩ := s
  cases hs
  cases q with
  | flush | shutdown =>
    cases flushFault <;> cases flushBytesFault <;> simp [perform, flush, flushText, flushBytes, record, fault?]
  | write data =>
    cases data with
    | nil => simp [perform, fault?]
    | cons b rest =>
      cases flushFault with
      | some f' => simp [perform, writeBelowText, flushText, record, fault?]
      | none =>
        by_cases h : after ≤ writes <;> cases writeFault <;> cases silent <;>
          simp [perform, writeBelowText, flushText, record, writeBytes, fault?, h]

/-- What a stream with a byte layer does with any request. -/
theorem truthful (hs : s.traits.textOnly = false) (q : Sink.Request) : s.Truthful q := by
  have hrendered : ∀ bs, s.rendered bs = bs := fun bs => if_neg (by simp [hs])
  have hends : q = .flush ∨ q = .shutdown → s.perform q = s.flush := by
    rintro (rfl | rfl) <;> rfl
  have hwrite : ∀ data a, q = .write data → (s.perform q).2 = .ok a →
      (s.perform q).1.output = s.output ++ s.traits.taken data := by
    rintro data a rfl ha
    rw [output_perform, ha, hrendered]
    rfl
  constructor
  case taken => exact fun data a hq ha => ⟨s.traits.taken_isPrefix data, hwrite data a hq ha⟩
  case told =>
    rintro data a rfl ha
    refine ⟨s.traits.told data, s.traits.told_le data, s.answer_perform ha, ?_⟩
    rw [hwrite data a rfl ha, List.append_cancel_left_eq, eq_comm, s.traits.take_told_iff]
  case fails => exact fun f => perform_eq_error_iff hs q f
  case refused =>
    intro f hf
    cases q with
    | write data => rw [output_perform, hf, gained, rendered_nil, List.append_nil]
    | flush => exact s.output_flush
    | shutdown => exact s.output_flush
  case idle =>
    rintro rfl
    rfl
  case kept =>
    intro hq
    rw [hends hq, output_flush]
  case sunk =>
    intro hq a ha
    rw [hends hq] at ha ⊢
    exact sink_flush hs ha
  case usable =>
    intro hq q'
    rw [hends hq, ← (s.flush.1.perform_bare q').1, bare_flush, (s.perform_bare q').1]

theorem traits_flush (s : Stream) : s.flush.1.traits = s.traits := by
  change s.flush.1.bare.traits = s.bare.traits
  rw [bare_flush]

/-- No request changes how a stream behaves. -/
theorem traits_perform (s : Stream) (q : Sink.Request) : (s.perform q).1.traits = s.traits := by
  cases q with
  | flush => exact s.traits_flush
  | shutdown => exact s.traits_flush
  | write data =>
    cases data with
    | nil => rfl
    | cons b rest =>
      obtain ⟨⟨textOnly, _, _, silent, writeFault, after, flushFault, _⟩, _, _, _, writes, _⟩ := s
      cases textOnly with
      | true => cases writeFault <;> rfl
      | false =>
        cases flushFault with
        | some f => rfl
        | none =>
          cases writeFault with
          | none => cases silent <;> rfl
          | some f =>
            by_cases h : after ≤ writes <;> cases silent <;>
              simp [perform, writeBelowText, flushText, record, writeBytes, h]

theorem traits_writeText (s : Stream) (text : String) : (s.writeText text).1.traits = s.traits := by
  unfold writeText
  dsimp only
  split <;> rfl

/-- A stream with a byte layer takes all text. -/
theorem writeText_ok (hs : s.traits.textOnly = false) (text : String) : (s.writeText text).2 = .ok () := by
  simp only [writeText, record, hs]

end Stream

/-! ### Anything in any order -/

/-- What can be done to a standard stream: text is printed, or a request is made. -/
inductive Use
  | print (text : String)
  | request (q : Sink.Request)

/-- What was done to a standard stream: text was printed, or a request was made to a stream that behaves in some
way, and answered. -/
inductive Act
  | print (text : String)
  | request (traits : Stream.Traits) (q : Sink.Request) (outcome : Outcome)

namespace Act

/-- The bytes that a stream with a byte layer is given thereby: the text, or what it takes of a write. -/
def added : Act → Bytes
  | .print text => Text.Utf8.encode text
  | .request traits (.write data) (.ok _) => traits.taken data
  | .request .. => []

/-- The bytes that the answer counts, with all of a text. -/
def counted : Act → Bytes
  | .print text => Text.Utf8.encode text
  | .request _ (.write data) outcome => outcome.counted data
  | .request .. => []

end Act

namespace Stream

/-- A stream after something was done to it. -/
def used (s : Stream) : Use → Stream
  | .print text => (s.writeText text).1
  | .request q => (s.perform q).1

/-- What has come of it. -/
def act (s : Stream) : Use → Act
  | .print text => .print text
  | .request q => .request s.traits q (s.perform q).2

/-- What has come of everything that was done to a stream, in order. -/
def acts (s : Stream) : List Use → List Act
  | [] => []
  | u :: rest => s.act u :: (s.used u).acts rest

variable {s : Stream}

theorem traits_used (s : Stream) (u : Use) : (s.used u).traits = s.traits := by
  cases u with
  | print text => exact s.traits_writeText text
  | request q => exact s.traits_perform q

/-- A stream with a byte layer has in its output what was printed or taken, after everything else. -/
theorem output_used (hs : s.traits.textOnly = false) (u : Use) :
    (s.used u).output = s.output ++ (s.act u).added := by
  cases u with
  | print text =>
    rw [used, s.output_writeText, writeText_ok hs]
    rfl
  | request q =>
    cases q with
    | write data =>
      have hrendered : ∀ bs, s.rendered bs = bs := fun bs => if_neg (by simp [hs])
      rw [used, output_perform, hrendered, act]
      cases (s.perform (.write data)).2 <;> rfl
    | flush => exact (truthful hs _).kept (.inl rfl) ▸ (List.append_nil _).symm
    | shutdown => exact (truthful hs _).kept (.inr rfl) ▸ (List.append_nil _).symm

/-- If it tells how much it takes, that is what the answer counts. -/
theorem added_of_tells (h : s.traits.Tells) (u : Use) : (s.act u).added = (s.act u).counted := by
  cases u with
  | print text => rfl
  | request q =>
    cases q with
    | write data =>
      have hgained := s.gained_of_tells h data
      rw [act, Act.counted, ← hgained]
      cases (s.perform (.write data)).2 <;> rfl
    | flush => rfl
    | shutdown => rfl

/-- Whatever was done to a stream with a byte layer, and in whatever order: it has in its output what it had and then
what was printed or taken, in that order. -/
theorem output_foldl_used (hs : s.traits.textOnly = false) (us : List Use) :
    (us.foldl used s).output = s.output ++ (s.acts us).flatMap Act.added ∧
      (s.traits.Tells → (s.acts us).flatMap Act.added = (s.acts us).flatMap Act.counted) := by
  induction us generalizing s with
  | nil => exact ⟨(List.append_nil _).symm, fun _ => rfl⟩
  | cons u rest ih =>
    have htraits := s.traits_used u
    obtain ⟨hout, htells⟩ := ih (htraits ▸ hs)
    rw [acts, List.flatMap_cons, List.flatMap_cons, List.foldl_cons, hout, output_used hs, List.append_assoc]
    exact ⟨rfl, fun h => by rw [added_of_tells h, htells (htraits ▸ h)]⟩

end Stream

/-! ### Deeds -/

/-- Something that is done to the stream at a place under a name. -/
structure Deed where
  name : StreamName
  place : Nat
  act : Act

/-- What some deeds did to the stream at a place, in order. -/
def actsAt (n : StreamName) (i : Nat) (ds : List Deed) : List Act :=
  (ds.filter fun d => d.name = n ∧ d.place = i).map Deed.act

/-- The bytes that the stream at a place is given by some deeds, in order. -/
def taken (n : StreamName) (i : Nat) (ds : List Deed) : Bytes := (actsAt n i ds).flatMap Act.added

/-- The bytes that the answers to these deeds count. -/
def counted (n : StreamName) (i : Nat) (ds : List Deed) : Bytes := (actsAt n i ds).flatMap Act.counted

theorem actsAt_append (n : StreamName) (i : Nat) (ds ds' : List Deed) :
    actsAt n i (ds ++ ds') = actsAt n i ds ++ actsAt n i ds' := by
  rw [actsAt, List.filter_append, List.map_append, ← actsAt, ← actsAt]

theorem taken_append (n : StreamName) (i : Nat) (ds ds' : List Deed) :
    taken n i (ds ++ ds') = taken n i ds ++ taken n i ds' := by
  rw [taken, actsAt_append, List.flatMap_append, ← taken, ← taken]

theorem counted_append (n : StreamName) (i : Nat) (ds ds' : List Deed) :
    counted n i (ds ++ ds') = counted n i ds ++ counted n i ds' := by
  rw [counted, actsAt_append, List.flatMap_append, ← counted, ← counted]

/-- One deed at the place that it is about. -/
theorem actsAt_self (n : StreamName) (i : Nat) (act : Act) : actsAt n i [⟨n, i, act⟩] = [act] := by
  simp [actsAt]

/-- A deed is about no other place. -/
theorem actsAt_of_ne {m n : StreamName} {i j : Nat} (h : n = m → i ≠ j) (act : Act) :
    actsAt m j [⟨n, i, act⟩] = [] := by
  simpa [actsAt] using h

namespace Stdio

variable {io io' io'' : Stdio} {ds ds' : List Deed} {n : StreamName} {i : Nat} {s s' : Stream}

/-- Everything written to the stream at a place, if there is one. -/
def written (io : Stdio) (n : StreamName) (i : Nat) : Bytes := (((io.installed n)[i]?).map Stream.output).getD []

/-- Whether the stream at a place, if there is one, behaves in some way. -/
def Behaves (io : Stdio) (P : Stream.Traits → Prop) (n : StreamName) (i : Nat) : Prop :=
  ∀ s, (io.installed n)[i]? = some s → P s.traits

/-- The standard streams hold what they held before and what some deeds gave them, of which the answers told; they
are still there, and there may be new ones. -/
structure Told (io : Stdio) (ds : List Deed) (io' : Stdio) : Prop where
  kept : ∀ (n : StreamName) (i : Nat) (s : Stream), (io.installed n)[i]? = some s →
    ∃ s' : Stream, (io'.installed n)[i]? = some s' ∧ s'.traits = s.traits
  held : ∀ (n : StreamName) (i : Nat), io'.Behaves (fun t => t.textOnly = false) n i →
    io'.written n i = io.written n i ++ taken n i ds
  told : ∀ (n : StreamName) (i : Nat), io'.Behaves Stream.Traits.Tells n i → taken n i ds = counted n i ds

/-- New streams and changes that do not count. -/
theorem told_nil (hkept : ∀ (n : StreamName) (i : Nat) (s : Stream), (io.installed n)[i]? = some s →
    ∃ s' : Stream, (io'.installed n)[i]? = some s' ∧ s'.traits = s.traits)
    (hsame : ∀ (n : StreamName) (i : Nat), io'.written n i = io.written n i) : io.Told [] io' where
  kept := hkept
  held := fun n i _ => by
    rw [hsame]
    exact (List.append_nil _).symm
  told := fun _ _ _ => rfl

theorem Told.refl (io : Stdio) : io.Told [] io := told_nil (fun _ _ s hs => ⟨s, hs, rfl⟩) fun _ _ => rfl

/-- Each stream behaves as it did. -/
theorem Told.behaves (h : io.Told ds io') {P : Stream.Traits → Prop} (hb : io'.Behaves P n i) : io.Behaves P n i := by
  intro s hs
  obtain ⟨s', hs', htraits⟩ := h.kept n i s hs
  rw [← htraits]
  exact hb s' hs'

theorem Told.trans (h : io.Told ds io') (h' : io'.Told ds' io'') : io.Told (ds ++ ds') io'' := by
  constructor
  · intro n i s hs
    obtain ⟨s', hs', htraits⟩ := h.kept n i s hs
    obtain ⟨s'', hs'', htraits'⟩ := h'.kept n i s' hs'
    exact ⟨s'', hs'', htraits'.trans htraits⟩
  · intro n i hb
    rw [h'.held n i hb, h.held n i (h'.behaves hb), taken_append, List.append_assoc]
  · intro n i ht
    rw [taken_append, counted_append, h.told n i (h'.behaves ht), h'.told n i ht]

/-- There is always a stream in use. -/
theorem Told.inUse? (h : io.Told ds io') (hn : ∃ s, io.inUse? n = some s) : ∃ s', io'.inUse? n = some s' := by
  obtain ⟨s, hs⟩ := hn
  obtain ⟨s', hs', -⟩ := h.kept n _ s hs
  obtain ⟨hlt, -⟩ := List.getElem?_eq_some_iff.1 hs'
  have hcurrent : io'.current n < (io'.installed n).length := by
    rw [current]
    omega
  exact ⟨_, List.getElem?_eq_getElem hcurrent⟩

/-- Something is done to one stream. -/
theorem told_used (hs : (io.installed n)[i]? = some s) (u : Use) :
    io.Told [⟨n, i, s.act u⟩] (io.setInstalled ((io.installed n).set i (s.used u)) n) := by
  obtain ⟨hlt, -⟩ := List.getElem?_eq_some_iff.1 hs
  -- the stream is there afterwards, and it behaves as it did
  have hhere : ((io.setInstalled ((io.installed n).set i (s.used u)) n).installed n)[i]? = some (s.used u) := by
    rw [installed_setInstalled, List.getElem?_set_self hlt]
  have helse : ∀ m j, (n = m → i ≠ j) →
      ((io.setInstalled ((io.installed n).set i (s.used u)) n).installed m)[j]? = (io.installed m)[j]? := by
    intro m j hne
    by_cases hm : m = n
    · subst hm
      rw [installed_setInstalled, List.getElem?_set_ne (hne rfl)]
    · rw [installed_setInstalled_of_ne hm]
  have hplace : ∀ m j, (m = n ∧ j = i) ∨ (n = m → i ≠ j) := by
    intro m j
    by_cases h : n = m ∧ i = j
    · exact .inl ⟨h.1.symm, h.2.symm⟩
    · exact .inr fun hm hj => h ⟨hm, hj⟩
  constructor
  · intro m j r hr
    rcases hplace m j with ⟨rfl, rfl⟩ | hne
    · rw [hs] at hr
      cases hr
      exact ⟨s.used u, hhere, s.traits_used u⟩
    · exact ⟨r, by rw [helse m j hne, hr], rfl⟩
  · intro m j hb
    rcases hplace m j with ⟨rfl, rfl⟩ | hne
    · have hbytes : s.traits.textOnly = false := s.traits_used u ▸ hb _ hhere
      rw [written, hhere, written, hs, taken, actsAt_self, Option.map_some, Option.getD_some,
        Stream.output_used hbytes, List.flatMap_singleton]
      rfl
    · rw [written, helse m j hne, ← written, taken, actsAt_of_ne hne]
      exact (List.append_nil _).symm
  · intro m j ht
    rcases hplace m j with ⟨rfl, rfl⟩ | hne
    · have htells : s.traits.Tells := s.traits_used u ▸ ht _ hhere
      rw [taken, counted, actsAt_self, List.flatMap_singleton, List.flatMap_singleton, Stream.added_of_tells htells]
    · rw [taken, counted, actsAt_of_ne hne]
      rfl

/-- Something is done to the stream in use under a name. -/
theorem told_update (io : Stdio) (n : StreamName) {α : Type} (otherwise : α) {f : Stream → Stream × α} {u : Use}
    (hf : ∀ s, (f s).1 = s.used u) :
    io.Told ((io.inUse? n).map fun s => ⟨n, io.current n, s.act u⟩).toList
      (io.update n (io.current n) otherwise f).1 := by
  cases hs : io.inUse? n with
  | none =>
    rw [inUse?] at hs
    simp only [update, hs]
    exact .refl io
  | some s =>
    have htold := told_used hs u
    rw [inUse?] at hs
    simp only [update, hs, Option.map_some, Option.toList_some, hf]
    exact htold

/-- A new stream holds nothing. -/
theorem told_install (io : Stdio) (n : StreamName) (traits : Stream.Traits) :
    io.Told [] (io.install n (.fresh traits)) := by
  refine told_nil (fun m i s hs => ⟨s, ?_, rfl⟩) fun m i => ?_ <;> by_cases hm : m = n
  · subst hm
    obtain ⟨hlt, -⟩ := List.getElem?_eq_some_iff.1 hs
    rw [install, installed_setInstalled, List.getElem?_append_left hlt, hs]
  · rw [install, installed_setInstalled_of_ne hm, hs]
  · subst hm
    unfold written
    rw [install, installed_setInstalled, List.getElem?_append]
    split
    · rfl
    · rename_i hlt
      rw [List.getElem?_eq_none (Nat.le_of_not_lt hlt), List.getElem?_singleton]
      split
      · simp [Stream.output, Stream.fresh, Text.Utf8.encode_empty]
      · rfl
  · unfold written
    rw [install, installed_setInstalled_of_ne hm]

/-- Changes that leave what was written, and how the streams behave, do not count. -/
theorem told_map (io : Stdio) {f : Stream → Stream} (htraits : ∀ s, (f s).traits = s.traits)
    (hout : ∀ s, (f s).output = s.output) : io.Told [] ⟨io.out.map f, io.err.map f⟩ := by
  have hinstalled : ∀ n, (⟨io.out.map f, io.err.map f⟩ : Stdio).installed n = (io.installed n).map f := by
    intro n
    cases n <;> rfl
  refine told_nil (fun n i s hs => ⟨f s, ?_, htraits s⟩) fun n i => ?_
  · rw [hinstalled, List.getElem?_map, hs]
    rfl
  · have hcomp : Stream.output ∘ f = Stream.output := funext hout
    unfold written
    rw [hinstalled, List.getElem?_map, Option.map_map, hcomp]

end Stdio

/-! ### Turns -/

namespace Session

variable {s : Session} {a : Asking}

/-- What the next turn does to a standard stream, if it makes a request to one. -/
def deed? (s : Session) : Option Deed :=
  s.asking?.bind fun a => (s.stdio.inUse? a.name).map fun stream =>
    ⟨a.name, s.stdio.current a.name, stream.act (.request a.request)⟩

/-- What a number of turns do to the standard streams, in order. -/
def deeds (s : Session) (k : Nat) : List Deed := (List.iterate turn s k).filterMap deed?

/-- Without a journal only tasks wait for their turns. -/
theorem ready_of_quiet (h : s.quiet = s) {n : Notice} {copies : Nat} {rest : List Job} :
    s.ready ≠ .deliver n copies :: rest := by
  intro hr
  have hfilter : s.ready.filter Job.isTask = s.ready := congrArg ready h
  rw [List.filter_eq_self] at hfilter
  have htask := hfilter (.deliver n copies) (by rw [hr]; exact List.mem_cons_self)
  cases htask

/-- The same session with a journal that writes to a file. -/
theorem mutes_of_quiet (h : s.quiet = s) : ∃ q : Session, q.ready = s.ready ∧ q.Mutes s := by
  let j : Log.Journal := { Log.Journal.start with handlers := [⟨0, .file [], .json⟩] }
  refine ⟨{ s with journal := j }, rfl, h.symm, List.cons_ne_nil _ _, fun x hx => ?_⟩
  cases List.mem_singleton.1 hx
  exact ⟨[], rfl⟩

/-- A turn does not turn a journal on. -/
theorem quiet_turn (h : s.quiet = s) : s.turn.quiet = s.turn := by
  obtain ⟨q, hready, hmutes⟩ := mutes_of_quiet h
  cases hr : s.ready with
  | nil =>
    have hturn : s.turn = s := by rw [turn, hr]
    rw [hturn, h]
  | cons job rest =>
    cases job with
    | task t =>
      have hturn := hmutes.turn_task (hready.trans hr)
      have hidem : ∀ u : Session, u.quiet.quiet = u.quiet := fun u => by simp [quiet]
      rw [hturn.quiet, hidem]
    | deliver n copies => exact absurd hr (ready_of_quiet h)

/-- A turn gives the standard streams what its deed says. -/
theorem told_turn (h : s.quiet = s) : s.stdio.Told s.deed?.toList s.turn.stdio := by
  rw [stdio_turn fun _ _ _ => ready_of_quiet h, deed?]
  cases s.asking? with
  | none => exact .refl _
  | some a => exact s.stdio.told_update a.name _ fun _ => rfl

theorem told_iterate (h : s.quiet = s) (k : Nat) :
    s.stdio.Told (s.deeds k) (turn^[k] s).stdio ∧ (turn^[k] s).quiet = turn^[k] s := by
  induction k generalizing s with
  | zero => exact ⟨.refl _, h⟩
  | succ k ih =>
    obtain ⟨htold, hquiet⟩ := ih (quiet_turn h)
    have hdeeds : s.deeds (k + 1) = s.deed?.toList ++ s.turn.deeds k := by
      rw [deeds, List.iterate, List.filterMap_cons]
      cases s.deed? <;> rfl
    rw [hdeeds]
    exact ⟨(told_turn h).trans htold, hquiet⟩

end Session

/-! ### Scripts -/

namespace Script

variable {st : State}

namespace State

/-- What a step itself does to a standard stream, if it prints text. -/
def deed? (st : State) : Step → Option Deed
  | .print n text =>
    (st.session.stdio.inUse? n).map fun stream => ⟨n, st.session.stdio.current n, stream.act (.print text)⟩
  | _ => none

/-- What the steps of a script, and the turns between them, do to the standard streams, in order. -/
def deeds (st : State) : List (Step × Option Nat) → List Deed
  | [] => []
  | (s, turns) :: rest =>
    let now := (st.perform s).1.session
    (st.deed? s).toList ++ now.deeds (turns.getD now.budget) ++ (st.pace s turns).1.deeds rest

theorem stdio_callNamed (st : State) (task name : String) (method : Method) :
    (st.callNamed task name method).1.session.stdio = st.session.stdio := by
  unfold callNamed
  split
  · rfl
  · unfold State.call
    split <;> rfl

theorem stdio_cancel (st : State) (task : String) : (st.cancel task).1.session.stdio = st.session.stdio := by
  unfold State.cancel
  split
  · rfl
  · exact st.session.stdio_cancel _

/-- A step gives the standard streams what its deed says. -/
theorem told_perform (st : State) {s : Step} (hs : s.LeavesJournal) :
    st.session.stdio.Told (st.deed? s).toList (st.perform s).1.session.stdio := by
  have hsame : ∀ {st' : State}, st'.session.stdio = st.session.stdio →
      st.session.stdio.Told [] st'.session.stdio := fun h => h ▸ .refl _
  cases s with
  | print n text =>
    have hprint := st.session.stdio.told_update n (.ok ()) (f := fun s => s.writeText text) (u := .print text)
      fun _ => rfl
    unfold State.perform State.print
    dsimp only
    split <;> exact hprint
  | redirect n traits => exact st.session.stdio.told_install n traits
  | streams => exact st.session.stdio.told_map (fun _ => rfl) fun _ => rfl
  | pipe name capacity =>
    refine hsame ?_
    unfold State.perform makePipe
    dsimp only
    split <;> rfl
  | pipeOutlet name pipe =>
    refine hsame ?_
    unfold State.perform makePipeOutlet
    dsimp only
    split <;> rfl
  | outletBefore name d backing =>
    refine hsame ?_
    unfold State.perform makeOutletBefore
    dsimp only
    split
    · rfl
    · split <;> rfl
  | namedOutlet name given =>
    refine hsame ?_
    unfold State.perform makeNamedOutlet
    dsimp only
    split <;> rfl
  | gate name pipe =>
    refine hsame ?_
    unfold State.perform makeGate
    dsimp only
    split <;> rfl
  | stream name given =>
    refine hsame ?_
    unfold State.perform makeStream
    dsimp only
    split <;> rfl
  | capture name asked =>
    refine hsame ?_
    unfold State.perform makeCapture
    dsimp only
    split
    · rfl
    · split <;> rfl
  | clone name source =>
    refine hsame ?_
    unfold State.perform makeClone
    dsimp only
    split
    · rfl
    · split <;> rfl
  | retarget name destination =>
    refine hsame ?_
    unfold State.perform State.retarget
    dsimp only
    split <;> rfl
  | call task name method => exact hsame (stdio_callNamed ..)
  | forward task name limit target =>
    refine hsame ?_
    unfold State.perform State.forward
    dsimp only
    split
    · rfl
    · exact stdio_callNamed ..
  | cancel task => exact hsame (stdio_cancel ..)
  | emit n =>
    refine hsame ?_
    unfold State.perform Session.post
    dsimp only
    split <;> rfl
  | outlet name o => exact hsame rfl
  | view name v => exact hsame rfl
  | settle => exact hsame rfl
  | _ => exact absurd hs id

/-- A step that leaves the journal does not turn one on. -/
theorem quiet_perform (h : st.session.quiet = st.session) {s : Step} (hs : s.LeavesJournal) :
    (st.perform s).1.session.quiet = (st.perform s).1.session := by
  obtain ⟨q, -, hmutes⟩ := Session.mutes_of_quiet h
  have hstate : Mutes { st with session := q } st := .of_session hmutes st
  have hidem : ∀ u : Session, u.quiet.quiet = u.quiet := fun u => by simp [Session.quiet]
  rw [((hstate.perform hs).2.session).quiet, hidem]

theorem told_pace (h : st.session.quiet = st.session) {s : Step} (hs : s.LeavesJournal) (turns : Option Nat) :
    let now := (st.perform s).1.session
    st.session.stdio.Told ((st.deed? s).toList ++ now.deeds (turns.getD now.budget))
        (st.pace s turns).1.session.stdio
      ∧ (st.pace s turns).1.session.quiet = (st.pace s turns).1.session := by
  intro now
  have hrest : (st.pace s turns).1.session = Session.turn^[turns.getD now.budget] now := by
    cases turns <;> exact Session.run_eq_iterate ..
  obtain ⟨htold, hquiet⟩ := Session.told_iterate (quiet_perform h hs) (turns.getD now.budget)
  rw [hrest]
  exact ⟨(st.told_perform hs).trans htold, hquiet⟩

/-- A script gives the standard streams what its deeds say. -/
theorem told_played (h : st.session.quiet = st.session) {steps : List (Step × Option Nat)}
    (hsteps : ∀ s ∈ steps, s.1.LeavesJournal) :
    st.session.stdio.Told (st.deeds steps) (st.played steps).session.stdio
      ∧ (st.played steps).session.quiet = (st.played steps).session := by
  induction steps generalizing st with
  | nil => exact ⟨.refl _, h⟩
  | cons s rest ih =>
    obtain ⟨htold, hquiet⟩ := told_pace h (hsteps s List.mem_cons_self) s.2
    obtain ⟨htold', hquiet'⟩ := ih hquiet fun s' hs' => hsteps s' (List.mem_cons_of_mem s hs')
    exact ⟨htold.trans htold', hquiet'⟩

/-- What a request of the next turn does: it is made to the stream in use under its name, and to no other, and a
call of one operation ends with what the stream answers. -/
structure Answered (s : Session) (a : Session.Asking) : Prop where
  elsewhere : s.turn.stdio = (s.stdio.perform a.name a.request).1
  answer : ∃ stream, s.stdio.inUse? a.name = some stream
    ∧ s.turn.stdio.inUse? a.name = some (stream.perform a.request).1
    ∧ ∀ task, s.tasks[a.task]? = some task → task.call.isSingle = true →
        (s.turn.tasks[a.task]?).bind Task.outcome? = some (stream.perform a.request).2

theorem answered_of_asking {s : Session} (h : s.quiet = s) (hs : s.HasStreams) {a : Session.Asking}
    (ha : s.asking? = some a) : Answered s a := by
  have hturn : s.turn.stdio = (s.stdio.perform a.name a.request).1 := by
    rw [Session.stdio_turn fun _ _ _ => Session.ready_of_quiet h, ha]
    rfl
  obtain ⟨stream, hin⟩ := hs a.name
  obtain ⟨hanswer, hafter⟩ := Stdio.perform_eq hin a.request
  refine ⟨hturn, stream, hin, hturn ▸ hafter, fun task hk hsingle => ?_⟩
  rw [Session.outcome_turn_of_asking ha hk hsingle, hanswer]

/-- A stream with a byte layer refuses a request just if one of its layers fails, and then adds nothing.  Of a write it
adds what it takes, and nothing else, to the end of its output; it answers how much that is, unless it does not say so
and takes less than everything.  Prints and requests may come in any order, also those of calls that overlap, or that
were cancelled when they were under way: the output is what was printed and what was taken, in that order.  If the
stream tells how much it takes, that is what the answers count.

In a script at any pace that does not use the journal, at every turn a request to a standard stream is made by a task
that begins an operation on the stream, or on an outlet before it, and the call is answered as the stream answers; a
turn without one leaves the streams as they are; text that is printed on a stream with a byte layer comes last in its
output.  So such a stream holds what was printed and what was taken, in the order in which that was done. -/
theorem streams_tell_the_truth (environment : Environment) (out err : Stream.Traits)
    {steps : List (Step × Option Nat)} (hsteps : ∀ s ∈ steps, s.1.LeavesJournal) :
    let st := (start environment out err).played steps
    (∀ stream : Stream, stream.traits.textOnly = false → (∀ q, stream.Truthful q)
      ∧ ∀ us : List Use,
        (us.foldl Stream.used stream).output = stream.output ++ (stream.acts us).flatMap Act.added
          ∧ (stream.traits.Tells → (us.foldl Stream.used stream).output =
            stream.output ++ (stream.acts us).flatMap Act.counted))
    ∧ (∀ a, st.session.asking? = some a ↔ ∃ rest task, st.session.ready = .task a.task :: rest
      ∧ st.session.tasks[a.task]? = some task ∧ task.stage = .fresh ∧ task.cancelling = false
      ∧ st.session.streamOf? task.call.operation = some (a.name, a.request))
    ∧ (∀ a, st.session.asking? = some a → Answered st.session a)
    ∧ (st.session.asking? = none → st.session.turn.stdio = st.session.stdio)
    ∧ (∀ n text stream, st.session.stdio.inUse? n = some stream → stream.traits.textOnly = false →
      ∃ stream', (st.perform (.print n text)).1.session.stdio.inUse? n = some stream'
        ∧ stream'.output = stream.output ++ Text.Utf8.encode text)
    ∧ ∀ n i stream, (st.session.stdio.installed n)[i]? = some stream → stream.traits.textOnly = false →
      stream.output = taken n i ((start environment out err).deeds steps)
        ∧ (stream.traits.Tells → stream.output = counted n i ((start environment out err).deeds steps)) := by
  intro st
  have hstart : (start environment out err).session.quiet = (start environment out err).session := rfl
  obtain ⟨htold, hquiet⟩ := told_played hstart hsteps
  have hstreams : st.session.HasStreams := fun n =>
    htold.inUse? (Session.hasStreams_start out err n)
  refine ⟨fun stream hbytes => ⟨fun q => Stream.truthful hbytes q, fun us => ?_⟩,
    fun a => Session.asking?_eq_some_iff, fun a ha => answered_of_asking hquiet hstreams ha, fun hnone => ?_,
    fun n text stream hin hbytes => ?_, fun n i stream hs hbytes => ?_⟩
  · obtain ⟨hout, htells⟩ := Stream.output_foldl_used hbytes us
    exact ⟨hout, fun h => by rw [hout, htells h]⟩
  · rw [Session.stdio_turn fun _ _ _ => Session.ready_of_quiet hquiet, hnone]
    rfl
  · obtain ⟨-, hafter⟩ := Stdio.update_eq hin (.ok ()) fun s => s.writeText text
    refine ⟨(stream.writeText text).1, ?_, ?_⟩
    · unfold State.perform State.print
      dsimp only
      split <;> exact hafter
    · rw [stream.output_writeText, Stream.writeText_ok hbytes]
  · have hbehaves : ∀ {P : Stream.Traits → Prop}, P stream.traits → st.session.stdio.Behaves P n i :=
      fun hP s' hs' => Option.some.inj (hs.symm.trans hs') ▸ hP
    have hheld := htold.held n i (hbehaves hbytes)
    have hfresh : (start environment out err).session.stdio.written n i = [] := by
      cases n <;> cases i <;> simp [Stdio.written, start, Session.start, Stdio.installed, Stream.output,
        Stream.fresh, Text.Utf8.encode_empty]
    rw [Stdio.written, hs, hfresh] at hheld
    exact ⟨hheld, fun htells => hheld.trans (htold.told n i (hbehaves htells))⟩

/-- A stream that takes two bytes at a time, and on which text is printed before and after a write through a
clone, holds the text and the two bytes in that order. -/
theorem interleaved_output :
    let steps : List (Step × Option Nat) := [(.outlet "o" (.ofStream .stdout), none), (.clone "c" "o", none),
      (.print .stdout "a", none), (.call "w" "c" (.sink (.write [0x62, 0x63, 0x64])), none),
      (.print .stdout "e", none)]
    let st := (start [] { Stream.Traits.plain with accept := some 2 } .plain).played steps
    ∃ stream, (st.session.stdio.installed .stdout)[0]? = some stream ∧ stream.output = [0x61, 0x62, 0x63, 0x65] := by
  intro steps st
  have hsteps : ∀ s ∈ steps, s.1.LeavesJournal := by simp [steps, Step.LeavesJournal]
  obtain ⟨-, -, -, -, -, hall⟩ :=
    streams_tell_the_truth [] { Stream.Traits.plain with accept := some 2 } .plain hsteps
  obtain ⟨-, htells⟩ := hall .stdout 0 _ rfl rfl
  refine ⟨_, rfl, (htells (by decide)).trans ?_⟩
  decide +kernel

/-- A stream that takes nothing and does not say so holds nothing after a write that is answered with five bytes. -/
theorem untold_write :
    let steps : List (Step × Option Nat) := [(.outlet "o" (.ofStream .stdout), none),
      (.call "w" "o" (.sink (.write [0x68, 0x65, 0x6C, 0x6C, 0x6F])), none)]
    let st := (start [] { Stream.Traits.plain with silent := true, accept := some 0 } .plain).played steps
    (st.session.tasks[0]?).bind Task.outcome? = some (.ok (.count 5)) ∧
      ((st.session.stdio.installed .stdout)[0]?).map Stream.output = some [] := by
  decide +kernel

end State

end Script

end Outflow
