import Outflow.Yaml.Cursor
import Outflow.Yaml.Error

/-!
# Block scalars

A block scalar is made of whole lines, indented below the header that begins it.

* `Chomping`: what becomes of the line breaks at its end;
* `blockHeader`: the marks of the header;
* `blockLines`: the lines;
* `blockScalar`.

In a folded scalar a single line break between two lines is a blank, unless one of them begins with
spacing.
-/

namespace Outflow.Yaml

open Text (Codes)

/-- What becomes of the line breaks at the end of a block scalar: all go, one stays, or all stay. -/
inductive Chomping
  | strip
  | clip
  | keep
  deriving DecidableEq

/-- The mark of a chomping, if there is one. -/
def chompingMark (c : Cursor) : Option Chomping × Cursor :=
  if isChar '+' c.head then (some .keep, c.next)
  else if isChar '-' c.head then (some .strip, c.next)
  else (none, c)

/-- The digit of an indentation, if there is one. -/
def indentationMark (c : Cursor) : Option Nat × Cursor :=
  if isDigit c.head then (some (c.head - 48), c.next) else (none, c)

/-- The end of a header: blanks, a comment and the line break. -/
def headerEnd (c : Cursor) : Except Error Cursor :=
  let c := c.skipComment
  if endsLine c.head then .ok c.lineBreak.2 else .error .malformed

/-- The marks of a header, in either order, and the place after its line. -/
def blockHeader (c : Cursor) : Except Error (Chomping × Option Nat × Cursor) := do
  let (first, c) := chompingMark c
  let (width, c) := indentationMark c
  let (second, c) := if first.isNone then chompingMark c else (none, c)
  if width = some 0 || !endsField c.head then .error .malformed
  else return ((first.or second).getD .clip, width, ← headerEnd c)

/-- Skips blanks up to a column. -/
def toColumn (column : Nat) (c : Cursor) : Cursor :=
  c.advance (min (c.rest.takeWhile (· == 32)).length (column - c.column))

/-- Empty lines, each with blanks up to a column at most. -/
def emptyLines (column : Nat) : Nat → Codes → Cursor → Codes × Cursor
  | 0, text, c => (text, c)
  | fuel + 1, text, c =>
    let c := toColumn column c
    if isBreak c.head then
      let (b, c) := c.lineBreak
      emptyLines column fuel (text ++ b) c
    else (text, c)

/-- Empty lines at the beginning, and the greatest column that their blanks, or those of the first line
that is not empty, come to. -/
def leadingLines : Nat → Codes → Nat → Cursor → Codes × Nat × Cursor
  | 0, text, column, c => (text, column, c)
  | fuel + 1, text, column, c =>
    let c := c.skip (· == 32)
    let column := max column c.column
    if isBreak c.head then
      let (b, c) := c.lineBreak
      leadingLines fuel (text ++ b) column c
    else (text, column, c)

/-- What joins two lines with only `breaks` between them. -/
def lineJoint (folded spaced : Bool) (lineBreak breaks : Codes) : Codes :=
  if folded && lineBreak == [0xA] && !spaced then (if breaks.isEmpty then [32] else []) else lineBreak

/-- The lines of a block scalar after `text` and empty lines with `breaks`.  The result is the text
without its end, the last line break, those after it, and the place after them. -/
def blockLines (folded : Bool) (column : Nat) :
    Nat → Codes → Codes → Cursor → Codes × Codes × Codes × Cursor
  | 0, text, breaks, c => (text, [], breaks, c)
  | fuel + 1, text, breaks, c =>
    if c.column = column ∧ c.head ≠ endMark then
      let spaced := isSpacing c.head
      let (line, c) := c.span fun x => !endsLine x
      let (lineBreak, c) := c.lineBreak
      let text := text ++ breaks ++ line
      let (breaks, c) := emptyLines column (c.rest.length + 1) [] c
      if c.column = column ∧ c.head ≠ endMark then
        let joint := lineJoint folded (spaced || isSpacing c.head) lineBreak breaks
        blockLines folded column fuel (text ++ joint) breaks c
      else (text, lineBreak, breaks, c)
    else (text, [], breaks, c)

/-- The empty lines before the first line, the column of the lines, and the place. -/
def blockColumn (least : Nat) (width : Option Nat) (c : Cursor) : Codes × Nat × Cursor :=
  match width with
  | some w =>
    let column := least + w - 1
    let (breaks, c) := emptyLines column (c.rest.length + 1) [] c
    (breaks, column, c)
  | none =>
    let (breaks, column, c) := leadingLines (c.rest.length + 1) [] 0 c
    (breaks, max least column, c)

/-- A block scalar, at the mark that begins it, in a block with the indentation `indent`. -/
def blockScalar (indent : Int) (c : Cursor) : Except Error (Codes × Cursor) := do
  let folded := isChar '>' c.head
  let (chomping, width, c) ← blockHeader c.next
  let (breaks, column, c) := blockColumn (max 1 (indent + 1).toNat) width c
  let (text, last, others, c) := blockLines folded column (c.rest.length + 1) [] breaks c
  let tail := match chomping with
    | .strip => []
    | .clip => last
    | .keep => last ++ others
  return (text ++ tail, c)

end Outflow.Yaml
