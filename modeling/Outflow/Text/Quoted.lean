import Outflow.Text.Printable

/-!
# Quoted texts

A text is shown between quotes with escapes for what cannot be read: the quote itself, the backslash,
line feed, carriage return, tab, and every code point that is not printable.

* `quoteMark`: single quotes, unless the text has a single quote and no double quote;
* `escaped`: one code point;
* `quoted`, `quotedBytes`: whole texts and byte strings.
-/

namespace Outflow.Text

/-- A hexadecimal digit in lower case. -/
def hexDigit (n : Nat) : Char := if n < 10 then Char.ofNat (48 + n) else Char.ofNat (87 + n)

/-- The last `width` hexadecimal digits of a number. -/
def hexDigits : Nat → Nat → List Char
  | 0, _ => []
  | width + 1, n => hexDigits width (n / 16) ++ [hexDigit (n % 16)]

/-- The mark around a text: a double quote when that saves an escape. -/
def quoteMark (cs : List Nat) : Nat := if cs.contains 39 && !cs.contains 34 then 34 else 39

/-- The escape of a code point that has a letter of its own. -/
def namedEscape? (c : Nat) : Option (List Char) :=
  if c = 10 then some ['\\', 'n']
  else if c = 13 then some ['\\', 'r']
  else if c = 9 then some ['\\', 't']
  else none

/-- The escape of a code point by its number, with two, four or eight digits. -/
def numberedEscape (c : Nat) : List Char :=
  if c < 0x100 then '\\' :: 'x' :: hexDigits 2 c
  else if c < 0x10000 then '\\' :: 'u' :: hexDigits 4 c
  else '\\' :: 'U' :: hexDigits 8 c

/-- One code point of a text quoted with `mark`. -/
def escaped (mark c : Nat) : List Char :=
  if c = mark || c = 92 then ['\\', Char.ofNat c]
  else match namedEscape? c with
    | some e => e
    | none => if isPrintable c then [Char.ofNat c] else numberedEscape c

/-- A text between quotes. -/
def quoted (cs : Codes) : String :=
  let mark := quoteMark cs
  String.ofList (Char.ofNat mark :: (cs.flatMap (escaped mark) ++ [Char.ofNat mark]))

/-- A string between quotes. -/
def quotedText (s : String) : String := quoted (codesOf s)

/-- One byte of a byte string quoted with `mark`; only ASCII is shown as it is. -/
def escapedByte (mark c : Nat) : List Char :=
  if c = mark || c = 92 then ['\\', Char.ofNat c]
  else match namedEscape? c with
    | some e => e
    | none => if 32 ≤ c && c < 127 then [Char.ofNat c] else '\\' :: 'x' :: hexDigits 2 c

/-- A byte string between quotes, marked by a leading `b`. -/
def quotedBytes (bs : List UInt8) : String :=
  let cs := bs.map UInt8.toNat
  let mark := quoteMark cs
  String.ofList ('b' :: Char.ofNat mark :: (cs.flatMap (escapedByte mark) ++ [Char.ofNat mark]))

end Outflow.Text
