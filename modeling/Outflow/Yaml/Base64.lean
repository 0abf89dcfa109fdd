import Outflow.Basic
import Outflow.Yaml.Character

/-!
# Bytes written in base 64

Each letter stands for six bits.  Other characters are passed over, and an equals sign that completes a
group of four ends the text.

* `sextet?`: the bits of a letter;
* `decodeBase64?`: the bytes of a text, unless its last group is not complete.
-/

namespace Outflow.Yaml

open Text (Codes)

/-- The six bits of a letter. -/
def sextet? (c : Nat) : Option Nat :=
  if 65 ≤ c && c ≤ 90 then some (c - 65)
  else if 97 ≤ c && c ≤ 122 then some (c - 71)
  else if isDigit c then some (c + 4)
  else if c = 43 then some 62
  else if c = 47 then some 63
  else none

/-- A letter group that is not complete: the number of its letters, the bits that make no byte yet, and
the equals signs since the last letter. -/
structure LetterGroup where
  letters : Nat
  bits : Nat
  pads : Nat

/-- A group with one more letter, and the byte that it makes. -/
def LetterGroup.add (g : LetterGroup) (n : Nat) : LetterGroup × Bytes :=
  match g.letters with
  | 0 => (⟨1, n, 0⟩, [])
  | 1 => (⟨2, n % 16, 0⟩, [(g.bits * 4 + n / 16).toUInt8])
  | 2 => (⟨3, n % 4, 0⟩, [(g.bits * 16 + n / 4).toUInt8])
  | _ => (⟨0, 0, 0⟩, [(g.bits * 64 + n).toUInt8])

/-- The bytes of the rest of a text, after a group that is not complete. -/
def decodeFrom (g : LetterGroup) : Codes → Option Bytes
  | [] => if g.letters = 0 then some [] else none
  | 61 :: rest =>
    if g.letters < 2 then decodeFrom g rest
    else if 4 ≤ g.letters + g.pads + 1 then some []
    else decodeFrom { g with pads := g.pads + 1 } rest
  | c :: rest =>
    match sextet? c with
    | none => decodeFrom g rest
    | some n =>
      let (g, bytes) := g.add n
      (decodeFrom g rest).map (bytes ++ ·)

/-- The bytes of a text. -/
def decodeBase64? (cs : Codes) : Option Bytes := decodeFrom ⟨0, 0, 0⟩ cs

end Outflow.Yaml
