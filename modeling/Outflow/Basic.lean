/-!
# Byte strings, texts and environment variables

What programs write and pipes carry, and what they are told.  An escape in a document, or a byte of a
variable that cannot be decoded, can denote any code point, a lone surrogate included.  So texts that come
from outside are lists of code points and wider than `String`.

* `Bytes`: a list of bytes;
* `newline`, `throughNewline`: the bytes up to and with the first newline;
* `Codes`, `codesOf`: texts, and the code points of a string;
* `Codes.toText`: back to a string, for texts that hold no surrogate;
* `inRanges`: membership in ascending ranges;
* `Environment`, `Environment.get?`: names with their values, and the value of a name.
-/

namespace Outflow

/-- A byte string. -/
abbrev Bytes := List UInt8

/-- The byte that ends a line. -/
def newline : UInt8 := 10

/-- The number of bytes through the first newline, or of all bytes if there is none. -/
def throughNewline : Bytes → Nat
  | [] => 0
  | b :: rest => if b = newline then 1 else throughNewline rest + 1

theorem throughNewline_eq_length {bs : Bytes} (h : newline ∉ bs) :
    throughNewline bs = bs.length := by
  induction bs with
  | nil => rfl
  | cons b rest ih =>
    rw [List.mem_cons, not_or] at h
    simp [throughNewline, Ne.symm h.1, ih h.2]

namespace Text

/-- A text as the list of its code points. -/
abbrev Codes := List Nat

/-- The code points of a string. -/
def codesOf (s : String) : Codes := s.toList.map Char.toNat

/-- The string with these code points; a surrogate becomes the replacement character. -/
def Codes.toText (cs : Codes) : String :=
  String.ofList (cs.map fun c => if 0xD800 ≤ c && c < 0xE000 then Char.ofNat 0xFFFD else Char.ofNat c)

/-- Whether a code point lies in one of the ranges, which ascend. -/
def inRanges : List (Nat × Nat) → Nat → Bool
  | [], _ => false
  | (lo, hi) :: rest, c => if c < lo then false else if c ≤ hi then true else inRanges rest c

end Text

/-- Environment variables with their values.  A byte of a value that cannot be decoded is a surrogate. -/
abbrev Environment := List (String × Text.Codes)

/-- The value of a variable, if it is set. -/
def Environment.get? (env : Environment) (name : String) : Option Text.Codes :=
  (env.find? fun entry => entry.1 == name).map Prod.snd

end Outflow
