import Outflow.Proofs.Output

/-!
# Cutting bytes

Bytes that are read as UTF-8 fall into parts, each of which is read as one character: a character, or a maximal
ill-formed part.  When bytes are handed over in pieces and each piece is read by itself, a piece that ends within
a part is read as something else.

* `nextChunk_append`: more bytes change what stands at the front only if it was cut off;
* `parts`, `front_induction`: the parts of a byte string, front by front;
* `joins_or_merges`: two byte strings are read alike by themselves and joined, or they share a part;
* `KeepsParts`, `decodeLossy_pieces`: pieces are read alike one by one and all at once just if every cut falls
  between two parts;
* `Stream.rendered_pieces_iff`: the same for a standard stream.
-/

namespace Outflow

open Text

namespace Text.Utf8

variable {b : UInt8} {rest : Bytes}

/-! ### The front of a byte string -/

/-- The number of bytes of a front. -/
def Chunk.length : Chunk → Nat
  | .good _ length => length
  | .bad _ length => length

/-- What a front is read as. -/
def Chunk.code : Chunk → Nat
  | .good code _ => code
  | .bad _ _ => 0xFFFD

/-- The second byte of a sequence continues it. -/
theorem isContinuation_of_announced {size : Nat} {lo hi x : UInt8} (h : announced b = some (size, lo, hi))
    (hlo : lo ≤ x) (hhi : x ≤ hi) : isContinuation x = true := by
  have hrange : 0x80 ≤ lo ∧ hi < 0xC0 := by
    unfold announced at h
    grind
  simp only [isContinuation, Bool.and_eq_true, decide_eq_true_eq]
  exact ⟨UInt8.le_trans hrange.1 hlo, UInt8.lt_of_le_of_lt hhi hrange.2⟩

/-- A front has at least one byte and no more than there are, and all but the first continue it. -/
theorem nextChunk_length (b : UInt8) (rest : Bytes) :
    1 ≤ (nextChunk b rest).length ∧ (nextChunk b rest).length ≤ rest.length + 1 ∧
      ∀ x ∈ rest.take ((nextChunk b rest).length - 1), isContinuation x = true := by
  unfold nextChunk
  split
  · simp [Chunk.length]
  · split
    · simp [Chunk.length]
    · -- the second byte lies in the range that the first announces; the others are looked at by themselves
      rename_i size lo hi hannounced
      have hsecond := fun x => isContinuation_of_announced (x := x) hannounced
      rcases rest with _ | ⟨b₂, rest⟩
      · simp [Chunk.length]
      · rcases rest with _ | ⟨b₃, _ | ⟨b₄, rest⟩⟩ <;> dsimp only <;> split_ifs <;> simp_all [Chunk.length]

/-- More bytes change nothing about a front, unless it is cut off; then it can only grow, and is ill-formed as long
as it does not. -/
theorem nextChunk_append (b : UInt8) (rest more : Bytes) :
    nextChunk b (rest ++ more) = nextChunk b rest ∨
      (nextChunk b rest = .bad .truncated (rest.length + 1) ∧
        rest.length + 1 ≤ (nextChunk b (rest ++ more)).length ∧
        ((nextChunk b (rest ++ more)).length = rest.length + 1 → (nextChunk b (rest ++ more)).code = 0xFFFD)) := by
  rcases more with _ | ⟨x, more⟩
  · rw [List.append_nil]
    exact .inl rfl
  unfold nextChunk
  split
  · exact .inl rfl
  · split
    · exact .inl rfl
    · -- no front has more than four bytes
      rcases rest with _ | ⟨b₂, _ | ⟨b₃, _ | ⟨b₄, rest⟩⟩⟩ <;> rcases more with _ | ⟨y, _ | ⟨z, more⟩⟩ <;>
        simp only [List.nil_append, List.cons_append] <;> split_ifs <;> simp [Chunk.length, Chunk.code]

/-- A byte that continues a sequence begins none. -/
theorem nextChunk_of_isContinuation (h : isContinuation b = true) (rest : Bytes) :
    nextChunk b rest = .bad .badStart 1 := by
  simp only [isContinuation, Bool.and_eq_true, decide_eq_true_eq] at h
  have hnone : announced b = none := if_pos (UInt8.lt_trans h.2 (by decide))
  simp only [nextChunk, hnone, if_neg (UInt8.not_lt.2 h.1)]

/-! ### Parts -/

/-- Passes over `skip` bytes of a part already found, then cuts on. -/
def partsFrom (skip : Nat) : Bytes → List Bytes
  | [] => []
  | b :: rest =>
    match skip with
    | skip + 1 => partsFrom skip rest
    | 0 => (b :: rest).take (nextChunk b rest).length :: partsFrom ((nextChunk b rest).length - 1) rest

/-- The parts of a byte string, each of which is read as one character. -/
def parts (bs : Bytes) : List Bytes := partsFrom 0 bs

theorem partsFrom_eq (skip : Nat) (bs : Bytes) : partsFrom skip bs = parts (bs.drop skip) := by
  induction bs generalizing skip with
  | nil => rw [List.drop_nil]; rfl
  | cons b rest ih =>
    cases skip with
    | zero => rfl
    | succ skip => exact ih skip

theorem lossyFrom_eq (skip : Nat) (bs : Bytes) : lossyFrom skip bs = decodeLossy (bs.drop skip) := by
  induction bs generalizing skip with
  | nil => rw [List.drop_nil]; rfl
  | cons b rest ih =>
    cases skip with
    | zero => rfl
    | succ skip => exact ih skip

theorem drop_nextChunk (b : UInt8) (rest : Bytes) :
    (b :: rest).drop (nextChunk b rest).length = rest.drop ((nextChunk b rest).length - 1) := by
  obtain ⟨n, hn⟩ := Nat.exists_eq_add_of_le' (nextChunk_length b rest).1
  rw [hn, List.drop_succ_cons, Nat.add_sub_cancel]

theorem parts_cons (b : UInt8) (rest : Bytes) : parts (b :: rest) =
    (b :: rest).take (nextChunk b rest).length :: parts ((b :: rest).drop (nextChunk b rest).length) := by
  rw [drop_nextChunk, ← partsFrom_eq]
  rfl

theorem decodeLossy_cons (b : UInt8) (rest : Bytes) : decodeLossy (b :: rest) =
    (nextChunk b rest).code :: decodeLossy ((b :: rest).drop (nextChunk b rest).length) := by
  rw [drop_nextChunk, ← lossyFrom_eq, decodeLossy, lossyFrom]
  cases nextChunk b rest <;> rfl

/-- What holds of nothing, and of a byte string if it holds of all after its front, holds of all byte strings. -/
theorem front_induction {P : Bytes → Prop} (nil : P [])
    (cons : ∀ b rest, P ((b :: rest).drop (nextChunk b rest).length) → P (b :: rest)) (bs : Bytes) : P bs := by
  induction hn : bs.length using Nat.strong_induction_on generalizing bs with
  | _ n ih =>
    cases bs with
    | nil => exact nil
    | cons b rest =>
      refine cons b rest (ih _ ?_ _ rfl)
      have hlen := (nextChunk_length b rest).1
      rw [List.length_cons] at hn
      rw [List.length_drop, List.length_cons]
      omega

/-- The parts make up the byte string. -/
theorem flatten_parts (bs : Bytes) : (parts bs).flatten = bs := by
  induction bs using front_induction with
  | nil => rfl
  | cons b rest ih => rw [parts_cons, List.flatten_cons, ih, List.take_append_drop]

/-- Bytes that continue a sequence are read one by one if they stand by themselves. -/
theorem length_decodeLossy_of_continuation {bs : Bytes} (h : ∀ x ∈ bs, isContinuation x = true) (more : Bytes) :
    (decodeLossy (bs ++ more)).length = bs.length + (decodeLossy more).length := by
  induction bs with
  | nil => rw [List.nil_append, List.length_nil, Nat.zero_add]
  | cons b rest ih =>
    rw [List.cons_append, decodeLossy_cons, nextChunk_of_isContinuation (h b List.mem_cons_self), List.length_cons,
      Chunk.length, List.drop_succ_cons, List.drop_zero, ih fun x hx => h x (List.mem_cons_of_mem _ hx),
      List.length_cons]
    omega

/-! ### Two byte strings -/

/-- Two byte strings are read alike by themselves and joined. -/
structure Joins (x y : Bytes) : Prop where
  parts : parts (x ++ y) = Utf8.parts x ++ Utf8.parts y
  decodeLossy : decodeLossy (x ++ y) = Utf8.decodeLossy x ++ Utf8.decodeLossy y

/-- The first of two byte strings ends within a part of the two, so that they are read as more by themselves. -/
structure Merges (x y : Bytes) : Prop where
  within : ∀ ps ∈ (parts (x ++ y)).inits, ps.flatten ≠ x
  shorter : (decodeLossy (x ++ y)).length < (decodeLossy x).length + (decodeLossy y).length

/-- Parts that make up a byte string begin with its first part. -/
theorem exists_of_mem_inits_cons {c : Bytes} {cs ps : List Bytes} (hps : ps ∈ (c :: cs).inits)
    (hflat : ps.flatten = b :: rest) : ∃ qs ∈ cs.inits, c ++ qs.flatten = b :: rest := by
  rw [List.inits_cons] at hps
  rcases List.mem_cons.1 hps with rfl | hps
  · cases hflat
  · obtain ⟨qs, hqs, rfl⟩ := List.mem_map.1 hps
    exact ⟨qs, hqs, hflat⟩

/-- A front that more bytes leave as it is. -/
theorem joins_or_merges_of_eq {y : Bytes} (h : nextChunk b (rest ++ y) = nextChunk b rest)
    (ih : Joins ((b :: rest).drop (nextChunk b rest).length) y ∨
      Merges ((b :: rest).drop (nextChunk b rest).length) y) :
    Joins (b :: rest) y ∨ Merges (b :: rest) y := by
  have hle := (nextChunk_length b rest).2.1
  have htake : (b :: (rest ++ y)).take (nextChunk b rest).length = (b :: rest).take (nextChunk b rest).length := by
    rw [← List.cons_append, List.take_append_of_le_length hle]
  have hdrop : (b :: (rest ++ y)).drop (nextChunk b rest).length =
      (b :: rest).drop (nextChunk b rest).length ++ y := by
    rw [← List.cons_append, List.drop_append_of_le_length hle]
  have hparts : parts (b :: rest ++ y) =
      (b :: rest).take (nextChunk b rest).length :: parts ((b :: rest).drop (nextChunk b rest).length ++ y) := by
    rw [List.cons_append, parts_cons, h, htake, hdrop]
  have hcodes : decodeLossy (b :: rest ++ y) =
      (nextChunk b rest).code :: decodeLossy ((b :: rest).drop (nextChunk b rest).length ++ y) := by
    rw [List.cons_append, decodeLossy_cons, h, hdrop]
  rcases ih with ih | ih
  · refine .inl ⟨?_, ?_⟩
    · rw [hparts, ih.parts, parts_cons b rest, List.cons_append]
    · rw [hcodes, ih.decodeLossy, decodeLossy_cons b rest, List.cons_append]
  · refine .inr ⟨?_, ?_⟩
    · rw [hparts]
      intro ps hps hflat
      obtain ⟨qs, hqs, hflat⟩ := exists_of_mem_inits_cons hps hflat
      nth_rewrite 2 [← List.take_append_drop (nextChunk b rest).length (b :: rest)] at hflat
      exact ih.within qs hqs (List.append_cancel_left hflat)
    · have hshort := ih.shorter
      rw [hcodes, decodeLossy_cons b rest, List.length_cons, List.length_cons]
      omega

/-- A front that is cut off, and ends there or goes on. -/
theorem joins_or_merges_of_truncated {y : Bytes}
    (h : nextChunk b rest = .bad .truncated (rest.length + 1))
    (hle : rest.length + 1 ≤ (nextChunk b (rest ++ y)).length)
    (hcode : (nextChunk b (rest ++ y)).length = rest.length + 1 → (nextChunk b (rest ++ y)).code = 0xFFFD) :
    Joins (b :: rest) y ∨ Merges (b :: rest) y := by
  obtain ⟨k, hk⟩ := Nat.exists_eq_add_of_le hle
  have htake : (b :: (rest ++ y)).take (nextChunk b (rest ++ y)).length = b :: rest ++ y.take k := by
    rw [← List.cons_append, hk, ← List.length_cons (a := b), List.take_length_add_append]
  have hdrop : (b :: (rest ++ y)).drop (nextChunk b (rest ++ y)).length = y.drop k := by
    rw [← List.cons_append, hk, ← List.length_cons (a := b), List.drop_length_add_append]
  have hparts : parts (b :: rest ++ y) = (b :: rest ++ y.take k) :: parts (y.drop k) := by
    rw [List.cons_append, parts_cons, htake, hdrop]
  have hcodes : decodeLossy (b :: rest ++ y) = (nextChunk b (rest ++ y)).code :: decodeLossy (y.drop k) := by
    rw [List.cons_append, decodeLossy_cons, hdrop]
  have hself : parts (b :: rest) = [b :: rest] ∧ decodeLossy (b :: rest) = [0xFFFD] := by
    have hall : (nextChunk b rest).length = (b :: rest).length := by rw [h]; rfl
    rw [parts_cons, decodeLossy_cons, hall, List.take_length, List.drop_length, h]
    exact ⟨rfl, rfl⟩
  cases k with
  | zero =>
    refine .inl ⟨?_, ?_⟩
    · rw [hparts, hself.1, List.take_zero, List.append_nil]
      rfl
    · rw [hcodes, hself.2, hcode hk]
      rfl
  | succ k =>
    obtain ⟨-, hfits, hcont⟩ := nextChunk_length b (rest ++ y)
    rw [hk, List.length_append] at hfits
    rw [hk, Nat.add_right_comm, Nat.add_sub_cancel, List.take_length_add_append] at hcont
    have htaken : (y.take (k + 1)).length = k + 1 := by
      rw [List.length_take]
      omega
    refine .inr ⟨fun ps hps hflat => ?_, ?_⟩
    · rw [hparts] at hps
      obtain ⟨qs, -, hflat⟩ := exists_of_mem_inits_cons hps hflat
      have hlen := congrArg List.length hflat
      rw [List.length_append, List.length_append, htaken] at hlen
      omega
    · -- what the front takes of the second string is read byte by byte if that stands by itself
      have hbytes := length_decodeLossy_of_continuation
        (fun x hx => hcont x (List.mem_append_right _ hx)) (y.drop (k + 1))
      rw [List.take_append_drop, htaken] at hbytes
      rw [hcodes, hself.2, List.length_cons, List.length_singleton, hbytes]
      omega

/-- Two byte strings are read alike by themselves and joined, unless a part begins in one and ends in the other. -/
theorem joins_or_merges (x y : Bytes) : Joins x y ∨ Merges x y := by
  induction x using front_induction with
  | nil => exact .inl ⟨rfl, rfl⟩
  | cons b rest ih =>
    obtain h | ⟨h, hle, hcode⟩ := nextChunk_append b rest y
    · exact joins_or_merges_of_eq h ih
    · exact joins_or_merges_of_truncated h hle hcode

/-! ### Pieces -/

/-- Whether every cut between the pieces falls between two parts of the whole: the pieces up to the cut are made
of parts. -/
def KeepsParts (cs : List Bytes) : Prop :=
  ∀ us ∈ cs.inits, ∃ ps ∈ (parts cs.flatten).inits, ps.flatten = us.flatten

instance (cs : List Bytes) : Decidable (KeepsParts cs) :=
  inferInstanceAs (Decidable (∀ us ∈ cs.inits, ∃ ps ∈ (parts cs.flatten).inits, ps.flatten = us.flatten))

theorem keepsParts_cons {c : Bytes} {cs : List Bytes} (h : Joins c cs.flatten) :
    KeepsParts (c :: cs) ↔ KeepsParts cs := by
  unfold KeepsParts
  simp only [List.mem_inits, List.flatten_cons, h.parts]
  constructor
  · intro hkeeps us hus
    obtain ⟨ps, ⟨qs, hps⟩, hflat⟩ := hkeeps (c :: us) ((List.prefix_cons_inj c).2 hus)
    rw [List.flatten_cons] at hflat
    rcases List.append_eq_append_iff.1 hps with ⟨as, hc, -⟩ | ⟨as, rfl, hcs⟩
    · -- the parts end within the first piece, and so where it ends
      have hlen := congrArg List.length (congrArg List.flatten hc)
      rw [flatten_parts, List.flatten_append, hflat, List.length_append, List.length_append] at hlen
      refine ⟨[], List.nil_prefix, ?_⟩
      rw [List.length_eq_zero_iff.1 (show us.flatten.length = 0 by omega)]
      rfl
    · rw [List.flatten_append, flatten_parts] at hflat
      exact ⟨as, ⟨qs, hcs.symm⟩, List.append_cancel_left hflat⟩
  · intro hkeeps us hus
    cases us with
    | nil => exact ⟨[], List.nil_prefix, rfl⟩
    | cons c' us =>
      obtain ⟨rfl, hus'⟩ := List.cons_prefix_cons.1 hus
      obtain ⟨ps, hps, hflat⟩ := hkeeps us hus'
      refine ⟨parts c' ++ ps, (List.prefix_append_right_inj _).2 hps, ?_⟩
      rw [List.flatten_append, flatten_parts, hflat, List.flatten_cons]

theorem not_keepsParts_cons {c : Bytes} {cs : List Bytes} (h : Merges c cs.flatten) : ¬KeepsParts (c :: cs) := by
  intro hkeeps
  obtain ⟨ps, hps, hflat⟩ := hkeeps [c] (by simp)
  rw [List.flatten_cons] at hps
  exact h.within ps hps (by rw [hflat, List.flatten_singleton])

/-- Pieces are read alike one by one and all at once if every cut falls between two parts, and as more one by one
if not. -/
theorem decodeLossy_pieces (cs : List Bytes) :
    (KeepsParts cs ∧ cs.flatMap decodeLossy = decodeLossy cs.flatten) ∨
      (¬KeepsParts cs ∧ (decodeLossy cs.flatten).length < (cs.flatMap decodeLossy).length) := by
  induction cs with
  | nil => exact .inl ⟨by decide, rfl⟩
  | cons c cs ih =>
    rw [List.flatMap_cons, List.flatten_cons]
    obtain h | h := joins_or_merges c cs.flatten
    · rw [h.decodeLossy, keepsParts_cons h]
      refine ih.imp (fun ⟨hkeeps, heq⟩ => ⟨hkeeps, by rw [heq]⟩) fun ⟨hbreaks, hlt⟩ => ⟨hbreaks, ?_⟩
      rw [List.length_append, List.length_append]
      omega
    · refine .inr ⟨not_keepsParts_cons h, ?_⟩
      have hshort := h.shorter
      have hle : (decodeLossy cs.flatten).length ≤ (cs.flatMap decodeLossy).length := by
        rcases ih with ⟨-, heq⟩ | ⟨-, hlt⟩
        · rw [heq]
        · exact hlt.le
      rw [List.length_append]
      omega

/-- A cut within a character breaks a part, one after it does not. -/
example : ¬KeepsParts [[0x61, 0xC3], [0xA9]] ∧ KeepsParts [[0x61], [0xC3, 0xA9]] := by decide

theorem encode_injective : Function.Injective encode := by
  intro s t h
  rw [encode_eq, encode_eq] at h
  exact String.toByteArray_inj.1 (ByteArray.ext (Array.toList_inj.1 h))

end Text.Utf8

namespace Text.Codes

theorem toText_append (cs ds : Codes) : Codes.toText (cs ++ ds) = Codes.toText cs ++ Codes.toText ds := by
  simp only [toText, List.map_append, String.ofList_append]

theorem length_toText (cs : Codes) : (Codes.toText cs).length = cs.length := by
  simp only [toText, String.length_ofList, List.length_map]

end Text.Codes

/-- Encodings other than UTF-8 read every byte by itself. -/
theorem Encoding.read_flatten {e : Encoding} (h : e ≠ .utf8) (cs : List Bytes) :
    e.read cs.flatten = cs.flatMap e.read := by
  cases e with
  | ascii => exact List.map_flatten ..
  | latin1 => exact List.map_flatten ..
  | utf8 => exact absurd rfl h

/-! ### Standard streams -/

namespace Stream

variable (s : Stream)

/-- Whether a stream has no byte layer and reads bytes as UTF-8. -/
def ReadsUtf8 : Prop := s.traits.textOnly = true ∧ s.traits.encoding.getD .utf8 = .utf8

instance : Decidable s.ReadsUtf8 :=
  inferInstanceAs (Decidable (s.traits.textOnly = true ∧ s.traits.encoding.getD .utf8 = .utf8))

/-- Pieces that are rendered one by one. -/
theorem flatMap_rendered (hs : s.traits.textOnly = true) (cs : List Bytes) : cs.flatMap s.rendered =
    Utf8.encode (Codes.toText (cs.flatMap (s.traits.encoding.getD .utf8).read)) := by
  induction cs with
  | nil => exact Utf8.encode_empty.symm
  | cons c cs ih =>
    rw [List.flatMap_cons, ih, rendered, if_pos hs, ← Utf8.encode_append, ← Codes.toText_append, List.flatMap_cons]

/-- A stream renders pieces alike one by one and all at once, except that one that reads them as UTF-8 does so
just if every cut falls between two parts. -/
theorem rendered_pieces_iff (cs : List Bytes) :
    cs.flatMap s.rendered = s.rendered cs.flatten ↔ (s.ReadsUtf8 → Utf8.KeepsParts cs) := by
  by_cases hs : s.traits.textOnly = true
  · rw [s.flatMap_rendered hs, rendered, if_pos hs]
    by_cases hutf8 : s.traits.encoding.getD .utf8 = .utf8
    · rw [forall_prop_of_true ⟨hs, hutf8⟩, hutf8]
      obtain ⟨hkeeps, heq⟩ | ⟨hbreaks, hlt⟩ := Utf8.decodeLossy_pieces cs
      · exact iff_of_true (congrArg _ (congrArg _ heq)) hkeeps
      · refine iff_of_false (fun heq => hlt.ne' ?_) hbreaks
        have hlen := congrArg String.length (Utf8.encode_injective heq)
        rwa [Codes.length_toText, Codes.length_toText] at hlen
    · rw [Encoding.read_flatten hutf8]
      exact iff_of_true rfl fun h => absurd h.2 hutf8
  · have hrendered : ∀ bs, s.rendered bs = bs := fun bs => if_neg hs
    refine iff_of_true ?_ fun h => absurd h.1 hs
    rw [funext hrendered, List.flatMap_id']

end Stream

end Outflow
