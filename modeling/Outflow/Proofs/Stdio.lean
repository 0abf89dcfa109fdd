import Outflow.Log.Journal
import Mathlib.Data.List.Forall2

/-!
# What standard streams answer

What a standard stream answers depends on what it is and how often it was written to, not on what it holds.
Records are written as text, which changes neither.

* `Stream.bare`, `Stdio.bare`: streams with nothing written to them;
* `Stdio.perform_bare`: they answer all requests alike;
* `Stream.Noted`, `Stdio.Noted`: streams to which text was written; they answer alike;
* `Log.Journal.noted_deliver`: this is all that records do.
-/

namespace Outflow

/-- A stream with nothing written to it, which behaves the same. -/
def Stream.bare (s : Stream) : Stream :=
  { s with text := "", buffered := [], sink := [], calls := [] }

/-- The standard streams with nothing written to them, which behave the same. -/
def Stdio.bare (io : Stdio) : Stdio := ⟨io.out.map .bare, io.err.map .bare⟩

theorem Stream.flush_bare (s : Stream) :
    s.bare.flush.2 = s.flush.2 ∧ s.bare.flush.1.bare = s.flush.1.bare := by
  obtain ⟨⟨textOnly, _, _, _, _, _, flushFault, flushBytesFault⟩, _, _, _, _, _⟩ := s
  cases textOnly <;> cases flushFault <;> cases flushBytesFault <;> exact ⟨rfl, rfl⟩

/-- What a stream answers does not depend on what was written to it, only on how often. -/
theorem Stream.perform_bare (s : Stream) (r : Sink.Request) :
    (s.bare.perform r).2 = (s.perform r).2 ∧ (s.bare.perform r).1.bare = (s.perform r).1.bare := by
  cases r with
  | flush => exact s.flush_bare
  | shutdown => exact s.flush_bare
  | write data =>
    cases data with
    | nil => exact ⟨rfl, rfl⟩
    | cons b rest =>
      obtain ⟨⟨textOnly, _, _, silent, writeFault, after, flushFault, _⟩, _, _, _, writes, _⟩ := s
      cases textOnly with
      | true => cases writeFault <;> exact ⟨rfl, rfl⟩
      | false =>
        cases flushFault with
        | some f => exact ⟨rfl, rfl⟩
        | none =>
          cases writeFault with
          | none => cases silent <;> exact ⟨rfl, rfl⟩
          | some f =>
            by_cases h : after ≤ writes <;> cases silent <;>
              simp [perform, writeBelowText, flushText, record, writeBytes, bare, h]

theorem Stdio.installed_bare (io : Stdio) (n : StreamName) :
    io.bare.installed n = (io.installed n).map .bare := by cases n <;> rfl

theorem Stdio.bare_setInstalled (io : Stdio) (streams : List Stream) (n : StreamName) :
    (io.setInstalled streams n).bare = io.bare.setInstalled (streams.map .bare) n := by
  cases n <;> rfl

theorem Stdio.bare_bare (io : Stdio) : io.bare.bare = io.bare := by
  have hstream : Stream.bare ∘ Stream.bare = Stream.bare := rfl
  simp [bare, hstream]

/-- What a standard stream answers does not depend on what was written to it. -/
theorem Stdio.perform_bare (io : Stdio) (n : StreamName) (r : Sink.Request) :
    (io.bare.perform n r).2 = (io.perform n r).2 ∧
      (io.bare.perform n r).1.bare = (io.perform n r).1.bare := by
  have hplace : io.bare.current n = io.current n := by
    simp only [current, installed_bare, List.length_map]
  simp only [perform, update, hplace, installed_bare, List.getElem?_map]
  cases (io.installed n)[io.current n]? with
  | none => exact ⟨rfl, io.bare_bare⟩
  | some stream =>
    obtain ⟨hanswer, hstream⟩ := stream.perform_bare r
    refine ⟨hanswer, ?_⟩
    simp only [Option.map_some, bare_setInstalled, bare_bare, List.map_set, hstream, List.map_map]
    rfl

/-! ### Records -/

/-- Text was written to a stream and flushed, any number of times. -/
inductive Stream.Noted (s : Stream) : Stream → Prop
  | refl : Noted s s
  | text {s' : Stream} (h : Noted s s') (text : String) : Noted s (s'.writeText text).1
  | flush {s' : Stream} (h : Noted s s') : Noted s s'.flushText.1

theorem Stream.bare_writeText (s : Stream) (text : String) : (s.writeText text).1.bare = s.bare := by
  obtain ⟨⟨textOnly, _, _, _, writeFault, _, _, _⟩, _, _, _, _, _⟩ := s
  cases textOnly <;> cases writeFault <;> rfl

theorem Stream.bare_flushText (s : Stream) : s.flushText.1.bare = s.bare := by
  obtain ⟨⟨textOnly, _, _, _, _, _, flushFault, _⟩, _, _, _, _, _⟩ := s
  cases textOnly <;> cases flushFault <;> rfl

/-- Text changes nothing about what a stream answers. -/
theorem Stream.Noted.bare {s s' : Stream} (h : s.Noted s') : s'.bare = s.bare := by
  induction h with
  | refl => rfl
  | text _ text ih => rw [bare_writeText, ih]
  | flush _ ih => rw [bare_flushText, ih]

/-- Each stream of one list of streams and the one at its place in another are so related. -/
def Stdio.Along (R : Stream → Stream → Prop) (io io' : Stdio) : Prop :=
  ∀ n, List.Forall₂ R (io.installed n) (io'.installed n)

section Along

variable {R : Stream → Stream → Prop} {io io' io'' : Stdio}

theorem Stdio.Along.refl (hR : ∀ s, R s s) (io : Stdio) : io.Along R io :=
  fun _ => List.forall₂_same.2 fun s _ => hR s

theorem forall₂_trans {α : Type} {R : α → α → Prop} (hR : ∀ a b c, R a b → R b c → R a c)
    {l l' l'' : List α} (h : List.Forall₂ R l l') (h' : List.Forall₂ R l' l'') : List.Forall₂ R l l'' := by
  induction h generalizing l'' with
  | nil => exact h'
  | cons ha _ ih =>
    cases h' with
    | cons ha' h' => exact .cons (hR _ _ _ ha ha') (ih h')

theorem forall₂_set {α : Type} {R : α → α → Prop} (hR : ∀ a, R a a) {l : List α} {i : Nat} {b : α}
    (h : ∀ a, l[i]? = some a → R a b) : List.Forall₂ R l (l.set i b) := by
  induction l generalizing i with
  | nil => exact .nil
  | cons a l ih =>
    have hsame : List.Forall₂ R l l := List.forall₂_same.2 fun a _ => hR a
    cases i with
    | zero => exact .cons (h a rfl) hsame
    | succ i => exact .cons (hR a) (ih h)

theorem Stdio.Along.trans (hR : ∀ s s' s'', R s s' → R s' s'' → R s s'') (h : io.Along R io')
    (h' : io'.Along R io'') : io.Along R io'' := fun n => forall₂_trans hR (h n) (h' n)

theorem Stdio.Along.imp {S : Stream → Stream → Prop} (hRS : ∀ s s', R s s' → S s s')
    (h : io.Along R io') : io.Along S io' := fun n => (h n).imp hRS

/-- What is done on one stream leaves the others as they are. -/
theorem Stdio.along_update (hR : ∀ s, R s s) {α : Type} (io : Stdio) (n : StreamName) (place : Nat)
    (otherwise : α) {f : Stream → Stream × α} (hf : ∀ s, R s (f s).1) :
    io.Along R (io.update n place otherwise f).1 := by
  unfold update
  split
  · exact .refl hR io
  · rename_i s hs
    intro m
    by_cases hm : m = n
    · subst hm
      rw [installed_setInstalled]
      refine forall₂_set hR fun a ha => ?_
      rw [hs] at ha
      cases ha
      exact hf s
    · rw [installed_setInstalled_of_ne hm]
      exact List.forall₂_same.2 fun s _ => hR s

end Along

/-- Text was written to standard streams and flushed. -/
def Stdio.Noted (io io' : Stdio) : Prop := io.Along Stream.Noted io'

theorem Stream.Noted.trans {s s' s'' : Stream} (h : s.Noted s') (h' : s'.Noted s'') : s.Noted s'' := by
  induction h' with
  | refl => exact h
  | text _ text ih => exact ih.text text
  | flush _ ih => exact ih.flush

theorem Stdio.Noted.refl (io : Stdio) : io.Noted io := Along.refl (fun _ => .refl) io

theorem Stdio.Noted.trans {io io' io'' : Stdio} (h : io.Noted io') (h' : io'.Noted io'') :
    io.Noted io'' := Along.trans (fun _ _ _ => Stream.Noted.trans) h h'

/-- Text changes nothing about what the standard streams answer. -/
theorem Stdio.Noted.bare {io io' : Stdio} (h : io.Noted io') : io'.bare = io.bare := by
  have hall : ∀ n, (io'.installed n).map Stream.bare = (io.installed n).map Stream.bare := by
    intro n
    have hmap : List.Forall₂ (· = ·) ((io'.installed n).map Stream.bare)
        ((io.installed n).map Stream.bare) := by
      rw [List.forall₂_map_left_iff, List.forall₂_map_right_iff]
      exact ((h n).imp fun s s' hs => hs.bare).flip
    rwa [List.forall₂_eq_eq_eq] at hmap
  rw [Stdio.bare, Stdio.bare]
  exact congrArg₂ Stdio.mk (hall .stdout) (hall .stderr)

namespace Log

theorem noted_reportTrouble (io : Stdio) : io.Noted (reportTrouble io).1 := by
  have hreport := io.along_update (fun _ => Stream.Noted.refl) .stderr (io.current .stderr) (Except.ok ())
    (f := fun s => s.writeText handlerTrouble) fun s => .text .refl _
  unfold reportTrouble
  dsimp only
  split <;> exact hreport

theorem noted_streamLine (io : Stdio) (place : Nat) (text : String) :
    io.Noted (streamLine io place text).1 := by
  refine io.along_update (fun _ => Stream.Noted.refl) .stderr place _ fun s => ?_
  have htext : s.Noted (s.writeText (text ++ "\n")).1 := .text .refl _
  split
  · rename_i he
    rw [he] at htext
    exact htext
  · rename_i he
    rw [he] at htext
    exact htext.flush

theorem noted_guardedLine (io : Stdio) (place : Nat) (text : String) :
    io.Noted (guardedLine io place text).1 := by
  have hline := noted_streamLine io place text
  unfold guardedLine
  split
  · rename_i he
    rw [he] at hline
    exact hline
  · rename_i he
    rw [he] at hline
    exact hline.trans (noted_reportTrouble _)

theorem Handler.noted_write (h : Handler) (j : Journal) (io : Stdio) (r : Record) :
    io.Noted (h.write j io r).2.1 := by
  unfold Handler.write
  cases h.target with
  | file name => exact .refl io
  | stream place => exact noted_guardedLine io place _

theorem noted_writeAll (r : Record) (hs : List Handler) (j : Journal) (io : Stdio) :
    io.Noted (writeAll r hs j io).2.1 := by
  induction hs generalizing j io with
  | nil => exact .refl io
  | cons h rest ih =>
    have hwrite := h.noted_write j io r
    unfold writeAll
    split
    · rename_i he
      rw [he] at hwrite
      exact hwrite.trans (ih _ _)
    · rename_i he
      rw [he] at hwrite
      exact hwrite

theorem Journal.noted_write (j : Journal) (io : Stdio) (r : Record) : io.Noted (j.write io r).2.1 := by
  unfold Journal.write
  split
  · exact .refl io
  · split
    · split
      · exact .refl io
      · exact noted_guardedLine io _ _
    · exact noted_writeAll r _ j io

/-- Records are written as text. -/
theorem Journal.noted_deliver (j : Journal) (io : Stdio) (n : Notice) (copies : Nat) :
    io.Noted (j.deliver io n copies).2 := by
  induction copies generalizing j io with
  | zero => exact .refl io
  | succ copies ih =>
    rw [Journal.deliver]
    exact (j.noted_write io _).trans (ih _ _)

end Log

end Outflow
