import Outflow.Yaml.Character

/-!
# Places in a document

* `Cursor`: the rest of a document, with the index, line and column of its place;
* `Cursor.head`, `Cursor.ahead`: the next code points;
* `Cursor.advance`, `Cursor.span`, `Cursor.skip`: going on by a number of code points, or over a run;
* `Cursor.lineBreak`: a line break, if one comes next;
* `Cursor.atSeparator`: whether a mark between documents comes next.

A line break starts a new line at column zero, and a byte order mark takes no column.
-/

namespace Outflow.Yaml

open Text (Codes)

/-- A place in a document. -/
structure Cursor where
  rest : Codes
  index : Nat
  line : Nat
  column : Nat

/-- The byte order mark. -/
def byteOrderMark : Nat := 0xFEFF

namespace Cursor

/-- The beginning of a document. -/
def start (text : Codes) : Cursor := ⟨text, 0, 0, 0⟩

/-- The code point that is `n` further on, or the end mark. -/
def ahead (c : Cursor) (n : Nat) : Nat := (c.rest[n]?).getD endMark

/-- The next code point, or the end mark. -/
def head (c : Cursor) : Nat := c.ahead 0

/-- Goes on by one code point. -/
def next (c : Cursor) : Cursor :=
  match c.rest with
  | [] => c
  | x :: rest =>
    if isBreak x then ⟨rest, c.index + 1, c.line + 1, 0⟩
    else ⟨rest, c.index + 1, c.line, if x = byteOrderMark then c.column else c.column + 1⟩

/-- Goes on by a number of code points. -/
def advance (c : Cursor) : Nat → Cursor
  | 0 => c
  | n + 1 => c.next.advance n

/-- The run of code points that satisfy a condition, and the place after it. -/
def span (c : Cursor) (p : Nat → Bool) : Codes × Cursor :=
  let run := c.rest.takeWhile p
  (run, c.advance run.length)

/-- The place after the run of code points that satisfy a condition. -/
def skip (c : Cursor) (p : Nat → Bool) : Cursor := (c.span p).2

/-- A line break in its plain form, or nothing, and the place after it. -/
def lineBreak (c : Cursor) : Codes × Cursor :=
  if c.head == 0xA || c.head == 0x85 then ([0xA], c.next)
  else if c.head == 0x2028 || c.head == 0x2029 then ([c.head], c.next)
  else ([], c)

/-- Whether three hyphens or three full stops come next, as a word. -/
def isThrice (c : Cursor) (x : Char) : Bool :=
  isChar x c.head && isChar x (c.ahead 1) && isChar x (c.ahead 2) && endsWord (c.ahead 3)

/-- Whether a mark between documents comes next, wherever it stands in its line. -/
def atSeparator (c : Cursor) : Bool := c.isThrice '-' || c.isThrice '.'

/-- Skips blanks and a comment. -/
def skipComment (c : Cursor) : Cursor :=
  let c := c.skip (· == 32)
  if isChar '#' c.head then c.skip fun x => !endsLine x else c

end Cursor

end Outflow.Yaml
