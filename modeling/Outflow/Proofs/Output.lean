import Outflow.Proofs.Stdio
import Outflow.Proofs.Session.Asking

/-!
# What is written stays written

Everything that was written to a standard stream stays in its output, whatever is done next and whether or not
it succeeds.

* `Traits.taken`, `Traits.told`: what a write takes of some bytes, and how many it is answered to have taken;
* `Traits.Tells`, `tells_iff`: the streams whose answers are always true;
* `Stream.rendered`, `Stream.output_perform`: a request appends to the output what it takes, as the stream
  renders it;
* `Stdio.Grows`: outputs that are continued;
* `Session.grows_turn`: no turn takes anything back;
* `Session.HasStreams`: there are standard streams to write to.
-/

namespace Outflow

open Text

/-! ### UTF-8 -/

theorem toList_loop (bs : ByteArray) (i : Nat) (r : List UInt8) :
    ByteArray.toList.loop bs i r = r.reverse ++ bs.data.toList.drop i := by
  induction i, r using ByteArray.toList.loop.induct bs with
  | case1 i r h ih =>
    have hlt : i < bs.data.toList.length := by simpa using h
    have hget : bs.get! i = bs.data.toList[i] := by
      cases bs with
      | mk data => exact getElem!_pos data i h
    rw [ByteArray.toList.loop, if_pos h, ih, List.drop_eq_getElem_cons hlt, hget, List.reverse_cons,
      List.append_assoc]
    rfl
  | case2 i r h =>
    rw [ByteArray.toList.loop, if_neg h, List.drop_eq_nil_of_le (by simpa using h), List.append_nil]

theorem Text.Utf8.encode_eq (s : String) : encode s = s.toByteArray.data.toList := by
  rw [encode, String.toUTF8, ByteArray.toList, toList_loop]
  rfl

theorem Text.Utf8.encode_append (s t : String) : encode (s ++ t) = encode s ++ encode t := by
  rw [encode_eq, encode_eq, encode_eq, String.toByteArray_append, ByteArray.data_append, Array.toList_append]

theorem Text.Utf8.encode_empty : encode "" = [] := by decide +kernel

/-! ### Streams -/

/-- The bytes that an answer to a write counts. -/
def Outcome.counted (o : Outcome) (data : Bytes) : Bytes :=
  match o with
  | .ok (.count k) => data.take k
  | _ => []

theorem Outcome.counted_error (f : Fault) (data : Bytes) : Outcome.counted (.error f) data = [] := rfl

namespace Stream

/-! ### What a write takes and what it tells -/

namespace Traits

variable (t : Traits) (data : Bytes)

/-- What a write that succeeds takes: everything on a stream without a byte layer, a portion on any other. -/
def taken : Bytes := if t.textOnly then data else t.portion data

/-- The number of bytes that a write that succeeds is answered to have taken. -/
def told : Nat := if t.textOnly || t.silent then data.length else (t.portion data).length

/-- Whether a byte layer that does not say how much it took takes everything. -/
def Tells : Prop := t.silent = true → t.textOnly = true ∨ t.accept = none

instance : Decidable t.Tells := inferInstanceAs (Decidable (_ → _))

theorem portion_isPrefix : t.portion data <+: data := by
  unfold portion
  cases t.accept with
  | none => exact List.prefix_refl data
  | some k => exact List.take_prefix k data

theorem taken_isPrefix : t.taken data <+: data := by
  unfold taken
  split
  · exact List.prefix_refl data
  · exact t.portion_isPrefix data

theorem told_le : t.told data ≤ data.length := by
  unfold told
  split
  · exact Nat.le_refl _
  · exact (t.portion_isPrefix data).length_le

/-- The answer to a write is true unless it was given for a stream that does not say how much it took and did
not take everything. -/
theorem take_told_iff : data.take (t.told data) = t.taken data ↔ (t.silent = true → t.taken data = data) := by
  have hprefix := List.prefix_iff_eq_take.1 (t.taken_isPrefix data)
  unfold told
  by_cases htext : t.textOnly = true
  · simp [taken, htext]
  · rw [Bool.not_eq_true] at htext
    simp only [taken, htext, Bool.false_or] at hprefix ⊢
    cases t.silent with
    | false => simpa using hprefix.symm
    | true => simp [eq_comm]

variable {t}

theorem Tells.take_told (h : t.Tells) : data.take (t.told data) = t.taken data := by
  rw [take_told_iff]
  intro hsilent
  rcases h hsilent with htext | haccept
  · rw [taken, if_pos htext]
  · simp [taken, portion, haccept]

/-- On no other stream are the answers to all writes true. -/
theorem tells_iff : t.Tells ↔ ∀ data, data.take (t.told data) = t.taken data := by
  refine ⟨fun h data => h.take_told data, fun h hsilent => ?_⟩
  by_cases htext : t.textOnly = true
  · exact .inl htext
  · right
    cases haccept : t.accept with
    | none => rfl
    | some k =>
      -- a byte more than the stream takes
      have htaken := (t.take_told_iff _).1 (h (List.replicate (k + 1) 0)) hsilent
      have hlength := congrArg List.length htaken
      simp [taken, htext, portion, haccept] at hlength

end Traits

variable (s : Stream)

/-- What a stream has in its output for some bytes: the bytes, or the characters that it reads them as. -/
def rendered (data : Bytes) : Bytes :=
  if s.traits.textOnly then Utf8.encode (Codes.toText ((s.traits.encoding.getD .utf8).read data)) else data

theorem rendered_nil : s.rendered [] = [] := by
  unfold rendered
  split
  · cases s.traits.encoding.getD .utf8 <;> exact Utf8.encode_empty
  · rfl

theorem output_writeText (text : String) : (s.writeText text).1.output = s.output ++
    match (s.writeText text).2 with
    | .ok () => Utf8.encode text
    | .error _ => [] := by
  unfold writeText
  dsimp only
  split
  · exact (List.append_nil _).symm
  · simp only [output, record, Utf8.encode_append, List.append_assoc]

/-- Handing the text on changes no output. -/
theorem output_flushText : s.flushText.1.output = s.output := by
  unfold flushText
  dsimp only
  split
  · rfl
  · split
    · rfl
    · simp [output, record, Utf8.encode_empty]

/-- Bytes that are taken while no text is held back come last. -/
theorem output_writeBytes (hs : s.text = "") (data : Bytes) : (s.writeBytes data).1.output = s.output ++
    match (s.writeBytes data).2 with
    | .ok _ => s.traits.portion data
    | .error _ => [] := by
  unfold writeBytes
  dsimp only
  split
  · exact (List.append_nil _).symm
  · simp [output, record, hs, Utf8.encode_empty]

theorem output_flushBytes (hs : s.text = "") : s.flushBytes.1.output = s.output := by
  unfold flushBytes
  dsimp only
  split
  · rfl
  · simp [output, record, hs, Utf8.encode_empty]

/-- With a byte layer no text is held back once it was handed on. -/
theorem text_flushText (hs : s.traits.textOnly = false) (hok : s.flushText.2 = .ok ()) :
    s.flushText.1.text = "" := by
  unfold flushText at hok ⊢
  dsimp only at hok ⊢
  split at hok
  · cases hok
  · rename_i hf
    have hs' : (s.record .flushText).traits.textOnly = false := hs
    simp only [hs', Bool.false_eq_true, if_false]

theorem traits_flushText : s.flushText.1.traits = s.traits := by
  unfold flushText
  dsimp only
  split
  · rfl
  · split <;> rfl

/-- What a stream gains of some bytes that are written to it: what it takes, unless the write fails. -/
def gained (data : Bytes) : Outcome → Bytes
  | .ok _ => s.traits.taken data
  | .error _ => []

theorem output_writeAsText (hs : s.traits.textOnly = true) (data : Bytes) :
    (s.writeAsText data).1.output = s.output ++ s.rendered (s.gained data (s.writeAsText data).2) := by
  have htext := s.output_writeText (Codes.toText ((s.traits.encoding.getD .utf8).read data))
  unfold writeAsText
  dsimp only
  split
  · rename_i he
    rw [he] at htext
    rw [gained, rendered_nil]
    exact htext
  · rename_i he
    rw [he] at htext
    rw [gained, Traits.taken, if_pos hs, rendered, if_pos hs]
    exact htext

theorem output_writeBelowText (hs : s.traits.textOnly = false) (data : Bytes) :
    (s.writeBelowText data).1.output = s.output ++ s.rendered (s.gained data (s.writeBelowText data).2) := by
  have hrendered : ∀ bs, s.rendered bs = bs := fun bs => if_neg (by simp [hs])
  have htaken : s.traits.taken data = s.traits.portion data := if_neg (by simp [hs])
  have hflush := s.output_flushText
  have htext := s.text_flushText hs
  have htraits := s.traits_flushText
  unfold writeBelowText
  split
  · rename_i he
    rw [he] at hflush
    rw [hflush, hrendered]
    exact (List.append_nil _).symm
  · rename_i s' he
    rw [he] at hflush htext htraits
    have hbytes := s'.output_writeBytes (htext rfl) data
    rw [← hflush, hrendered]
    split <;> rename_i hw <;> rw [hw] at hbytes
    · exact hbytes
    · rw [gained, htaken, ← htraits]
      exact hbytes
    · rw [gained, htaken, ← htraits]
      exact hbytes

/-- Ending or flushing the output changes none of it. -/
theorem output_flush : s.flush.1.output = s.output := by
  have hflush := s.output_flushText
  have htraits := s.traits_flushText
  have htext := s.text_flushText
  unfold flush
  split
  · rename_i he
    rw [he] at hflush
    exact hflush
  · rename_i s' he
    rw [he] at hflush htraits htext
    split
    · exact hflush
    · rename_i hlayer
      rw [show s'.traits = s.traits from htraits, Bool.not_eq_true] at hlayer
      have hbytes := s'.output_flushBytes (htext hlayer rfl)
      rw [← hflush]
      split
      · rename_i hw
        rw [hw] at hbytes
        exact hbytes
      · rename_i hw
        rw [hw] at hbytes
        exact hbytes

/-- A write appends to the output what it takes. -/
theorem output_perform (data : Bytes) : (s.perform (.write data)).1.output =
    s.output ++ s.rendered (s.gained data (s.perform (.write data)).2) := by
  cases data with
  | nil =>
    have hnone : s.gained [] (s.perform (.write [])).2 = [] := List.prefix_nil.1 (s.traits.taken_isPrefix [])
    rw [hnone, rendered_nil, List.append_nil]
    rfl
  | cons byte rest =>
    unfold perform
    by_cases hs : s.traits.textOnly = true
    · simp only [hs, if_true]
      exact s.output_writeAsText hs _
    · rw [Bool.not_eq_true] at hs
      simp only [hs, Bool.false_eq_true, if_false]
      exact s.output_writeBelowText hs _

/-- Whatever a stream is asked for, its output is continued. -/
theorem output_perform_isPrefix (r : Sink.Request) : s.output <+: (s.perform r).1.output := by
  cases r with
  | write data =>
    rw [output_perform]
    exact List.prefix_append ..
  | flush =>
    rw [show (s.perform .flush).1 = s.flush.1 from rfl, output_flush]
  | shutdown =>
    rw [show (s.perform .shutdown).1 = s.flush.1 from rfl, output_flush]

/-- The answer of a byte write that succeeds: the number of bytes that it took, if it says so. -/
theorem answer_writeBytes {data : Bytes} {n : Option Nat} (h : (s.writeBytes data).2 = .ok n) :
    n = if s.traits.silent then none else some (s.traits.portion data).length := by
  unfold writeBytes at h
  dsimp only at h
  split at h
  · cases h
  · exact (Except.ok.inj h).symm

/-- A write that succeeds is answered with a number. -/
theorem answer_perform {data : Bytes} {a : Answer} (h : (s.perform (.write data)).2 = .ok a) :
    a = .count (s.traits.told data) := by
  cases data with
  | nil =>
    cases h
    rw [Nat.le_zero.1 (s.traits.told_le [])]
  | cons byte rest =>
    unfold perform at h
    dsimp only at h
    split at h
    · rename_i htext
      unfold writeAsText at h
      dsimp only at h
      split at h
      · cases h
      · cases h
        simp [Traits.told, htext]
    · rename_i htext
      have htraits := s.traits_flushText
      unfold writeBelowText at h
      split at h
      · cases h
      · rename_i s' he
        rw [he] at htraits
        have hanswer : ∀ n, (s'.writeBytes (byte :: rest)).2 = .ok n →
            n = if s.traits.silent then none else some (s.traits.portion (byte :: rest)).length := by
          rw [← htraits]
          exact fun n => s'.answer_writeBytes
        rw [Bool.not_eq_true] at htext
        split at h <;> rename_i hw <;> cases h
        -- the stream says how much it took, or it does not
        · have hn := hanswer _ (congrArg Prod.snd hw)
          split at hn <;> cases hn
          rename_i hsilent
          simp [Traits.told, htext, hsilent]
        · have hn := hanswer _ (congrArg Prod.snd hw)
          split at hn <;> cases hn
          rename_i hsilent
          simp [Traits.told, hsilent]

/-- A stream that takes some bytes says how many, and they are no more than there are. -/
theorem count_of_perform {data : Bytes} {a : Answer} (h : (s.perform (.write data)).2 = .ok a) :
    ∃ k, k ≤ data.length ∧ a = .count k :=
  ⟨_, s.traits.told_le data, s.answer_perform h⟩

/-- A stream that tells how much it takes gains what its answer counts. -/
theorem gained_of_tells (h : s.traits.Tells) (data : Bytes) :
    s.gained data (s.perform (.write data)).2 = (s.perform (.write data)).2.counted data := by
  cases ho : (s.perform (.write data)).2 with
  | error f => rfl
  | ok a =>
    rw [s.answer_perform ho, gained, Outcome.counted, h.take_told]

variable {s}

theorem Noted.output_isPrefix {s' : Stream} (h : s.Noted s') : s.output <+: s'.output := by
  induction h with
  | refl => exact List.prefix_refl _
  | text _ text ih =>
    rw [output_writeText]
    exact ih.trans (List.prefix_append ..)
  | flush _ ih =>
    rw [output_flushText]
    exact ih

end Stream

namespace Stdio

/-- The outputs of all streams are continued. -/
def Grows (io io' : Stdio) : Prop := io.Along (fun s s' => s.output <+: s'.output) io'

theorem Grows.refl (io : Stdio) : io.Grows io := Along.refl (fun _ => List.prefix_refl _) io

theorem grows_perform (io : Stdio) (n : StreamName) (r : Sink.Request) :
    io.Grows (io.perform n r).1 :=
  io.along_update (fun _ => List.prefix_refl _) n _ _ fun s => s.output_perform_isPrefix r

theorem Noted.grows {io io' : Stdio} (h : io.Noted io') : io.Grows io' :=
  h.imp fun _ _ hs => hs.output_isPrefix

/-- The stream in use under a name. -/
def inUse? (io : Stdio) (n : StreamName) : Option Stream := (io.installed n)[io.current n]?

/-- What is done on the stream in use is done on it alone. -/
theorem update_eq {io : Stdio} {n : StreamName} {stream : Stream} (h : io.inUse? n = some stream) {α : Type}
    (otherwise : α) (f : Stream → Stream × α) :
    (io.update n (io.current n) otherwise f).2 = (f stream).2 ∧
      (io.update n (io.current n) otherwise f).1.inUse? n = some (f stream).1 := by
  obtain ⟨hlt, -⟩ := List.getElem?_eq_some_iff.1 h
  have hupdate : io.update n (io.current n) otherwise f =
      (io.setInstalled ((io.installed n).set (io.current n) (f stream).1) n, (f stream).2) := by
    rw [inUse?] at h
    simp only [update, h]
  rw [hupdate]
  refine ⟨rfl, ?_⟩
  simp only [inUse?, current, installed_setInstalled, List.length_set]
  exact List.getElem?_set_self hlt

theorem perform_eq {io : Stdio} {n : StreamName} {stream : Stream} (h : io.inUse? n = some stream)
    (r : Sink.Request) : (io.perform n r).2 = (stream.perform r).2 ∧
      (io.perform n r).1.inUse? n = some (stream.perform r).1 := update_eq h ..

/-- Whatever is done on the streams, the one in use is the one that was, and its output is continued. -/
theorem Grows.inUse? {io io' : Stdio} (h : io.Grows io') {n : StreamName} {stream : Stream}
    (hin : io.inUse? n = some stream) :
    ∃ stream', io'.inUse? n = some stream' ∧ stream.output <+: stream'.output := by
  have hall := h n
  obtain ⟨hlt, hget⟩ := List.getElem?_eq_some_iff.1 hin
  have hlen := hall.length_eq
  have hcur : io'.current n = io.current n := by rw [current, current, hlen]
  have hlt' : io.current n < (io'.installed n).length := by rw [← hlen]; exact hlt
  refine ⟨(io'.installed n)[io.current n], ?_, ?_⟩
  · rw [Stdio.inUse?, hcur, List.getElem?_eq_getElem hlt']
  · have hrel := hall.get hlt hlt'
    simp only [List.get_eq_getElem] at hrel
    rwa [hget] at hrel

end Stdio

namespace Session

variable {s : Session}

/-- No turn takes back anything that was written to the standard streams. -/
theorem grows_turn (s : Session) : s.stdio.Grows s.turn.stdio := by
  by_cases hr : ∃ n copies rest, s.ready = .deliver n copies :: rest
  · obtain ⟨n, copies, rest, hr⟩ := hr
    simp only [turn, hr]
    exact (s.journal.noted_deliver s.stdio n copies).grows
  · rw [stdio_turn fun n copies rest he => hr ⟨n, copies, rest, he⟩]
    cases s.asking? with
    | none => exact .refl _
    | some a => exact s.stdio.grows_perform a.name a.request

/-- Whether there is a standard stream under either name. -/
def HasStreams (s : Session) : Prop := ∀ n, ∃ stream, s.stdio.inUse? n = some stream

theorem hasStreams_start (out err : Stream.Traits) : (start out err).HasStreams := fun n => by
  cases n <;> exact ⟨_, rfl⟩

/-- No turn removes a standard stream. -/
theorem HasStreams.turn (h : s.HasStreams) : s.turn.HasStreams := fun n => by
  obtain ⟨stream, hin⟩ := h n
  obtain ⟨stream', hin', -⟩ := s.grows_turn.inUse? hin
  exact ⟨stream', hin'⟩

theorem HasStreams.iterate (h : s.HasStreams) (k : Nat) : ∀ u ∈ List.iterate Session.turn s k, u.HasStreams := by
  induction k generalizing s with
  | zero => exact fun u hu => absurd hu List.not_mem_nil
  | succ k ih =>
    intro u hu
    rcases List.mem_cons.1 hu with rfl | hu
    · exact h
    · exact ih h.turn u hu

end Session

end Outflow
