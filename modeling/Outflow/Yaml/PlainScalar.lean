import Outflow.Yaml.Cursor

/-!
# Plain scalars

A plain scalar is a run of words without quotes, over several lines if those after the first are indented.

* `beginsPlain`: whether a plain scalar begins at a place;
* `wordLength`: the length of a word;
* `plainGap`: what stands between two words;
* `plainScalar`: the scalar, the place after it, and whether a line break came last.

Inside brackets a word also ends before a bracket, a comma or a question mark.
-/

namespace Outflow.Yaml

open Text (Codes)

/-- The brackets and the comma of flow collections. -/
def flowMarks : String := ",[]\x7b\x7d"

/-- The characters that cannot begin a plain scalar, or not before any character. -/
def indicators : String := "-?:#&*!|>%@`" ++ flowMarks

/-- Whether a plain scalar begins at a place. -/
def beginsPlain (flow : Bool) (c : Cursor) : Bool :=
  !(endsWord c.head || isOneOf indicators c.head || c.head == 34 || c.head == 39)
    || (!endsWord (c.ahead 1) && (isChar '-' c.head || (!flow && isOneOf "?:" c.head)))

/-- Whether a word ends before a code point with another one after it. -/
def endsPlainWord (flow : Bool) (x after : Nat) : Bool :=
  endsWord x || (isChar ':' x && (endsWord after || (flow && isOneOf flowMarks after)))
    || (flow && (isChar '?' x || isOneOf flowMarks x))

/-- The length of a word. -/
def wordLength (flow : Bool) : Codes → Nat
  | [] => 0
  | x :: rest =>
    if endsPlainWord flow x (rest.head?.getD endMark) then 0 else wordLength flow rest + 1

/-- Line breaks with the blanks after them, up to a mark between documents, for which there is none. -/
def plainBreaks : Nat → Codes → Cursor → Option Codes × Cursor
  | 0, text, c => (some text, c)
  | fuel + 1, text, c =>
    let c := c.skip (· == 32)
    if isBreak c.head then
      let (b, c) := c.lineBreak
      if c.atSeparator then (none, c) else plainBreaks fuel (text ++ b) c
    else (some text, c)

/-- What stands between two words, the place after it, and whether there is a line break in it; nothing
if the scalar cannot go on. -/
def plainGap (c : Cursor) : Codes × Cursor × Bool :=
  let (blanks, c) := c.span (· == 32)
  if isBreak c.head then
    let (first, c) := c.lineBreak
    if c.atSeparator then ([], c, true)
    else match plainBreaks (c.rest.length + 1) [] c with
      | (some others, c) => (foldBreaks first others, c, true)
      | (none, c) => ([], c, true)
  else (blanks, c, false)

/-- The rest of a plain scalar, after `text` and the `gap` that follows it; `broken` says whether there
was a line break in the gap. -/
def plainFrom (flow : Bool) (indent : Int) : Nat → Codes → Codes → Bool → Cursor → Codes × Cursor × Bool
  | 0, text, _, broken, c => (text, c, broken)
  | fuel + 1, text, gap, broken, c =>
    let n := wordLength flow c.rest
    if isChar '#' c.head || n = 0 then (text, c, broken)
    else
      let text := text ++ gap ++ c.rest.take n
      let (gap, c, broken) := plainGap (c.advance n)
      if gap.isEmpty || (!flow && c.column < indent) then (text, c, broken)
      else plainFrom flow indent fuel text gap broken c

/-- A plain scalar whose further lines are indented to the column `indent` at least, the place after it
and its gap, and whether there was a line break in the gap. -/
def plainScalar (flow : Bool) (indent : Int) (c : Cursor) : Codes × Cursor × Bool :=
  plainFrom flow indent (c.rest.length + 1) [] [] false c

end Outflow.Yaml
