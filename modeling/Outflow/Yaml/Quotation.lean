import Outflow.Basic
import Outflow.Yaml.Cursor
import Outflow.Yaml.Error

/-!
# Quoted scalars

* `escapeSequence`: an escape in double quotes;
* `quotation`: a scalar in single or double quotes.

In single quotes a quote is written twice; in double quotes a backslash begins an escape.  Line breaks are
folded with the blanks around them.
-/

namespace Outflow.Yaml

open Text (Codes)

/-- The escapes by one letter. -/
def letterEscapes : List (Char × Nat) := [
  ('0', 0), ('a', 7), ('b', 8), ('t', 9), ('n', 10), ('v', 11), ('f', 12), ('r', 13), ('e', 0x1B),
  (' ', 32), ('/', 47), ('N', 0x85), ('_', 0xA0), ('L', 0x2028), ('P', 0x2029)]

/-- The code point of an escape by one letter; a tab, a quote and a backslash stand for themselves. -/
def letterEscape? (c : Nat) : Option Nat :=
  if c = 9 || c = 34 || c = 92 then some c
  else (letterEscapes.find? fun e => isChar e.1 c).map Prod.snd

/-- The number of digits of an escape by number. -/
def escapeWidth? (c : Nat) : Option Nat :=
  if isChar 'x' c then some 2 else if isChar 'u' c then some 4 else if isChar 'U' c then some 8 else none

/-- An escape by number, at its first digit. -/
def numberEscape (width : Nat) (c : Cursor) : Except Error (Codes × Cursor) :=
  let digits := c.rest.take width
  if digits.length < width || digits.any fun d => (hexValue? d).isNone then .error .malformed
  else
    let n := hexNumber digits
    if 0x10FFFF < n then .error (.code n) else .ok ([n], c.advance width)

/-- Line breaks with the spacing around them.  No mark between documents may begin a line. -/
def quotedBreaks : Nat → Codes → Cursor → Except Error (Codes × Cursor)
  | 0, _, _ => .error .malformed
  | fuel + 1, text, c =>
    if c.atSeparator then .error .malformed
    else
      let c := c.skip isSpacing
      if isBreak c.head then
        let (b, c) := c.lineBreak
        quotedBreaks fuel (text ++ b) c
      else .ok (text, c)

/-- The line breaks that follow one, at the beginning of a line. -/
def otherBreaks (c : Cursor) : Except Error (Codes × Cursor) :=
  quotedBreaks (c.rest.length + 1) [] c

/-- An escape, after its backslash. -/
def escapeSequence (c : Cursor) : Except Error (Codes × Cursor) :=
  match letterEscape? c.head, escapeWidth? c.head with
  | some code, _ => .ok ([code], c.next)
  | none, some width => numberEscape width c.next
  | none, none => if isBreak c.head then otherBreaks c.lineBreak.2 else .error .malformed

/-- Spacing inside quotes, and line breaks if there are any. -/
def quotedSpace (c : Cursor) : Except Error (Codes × Cursor) :=
  let (blanks, c) := c.span isSpacing
  if c.head = endMark then .error .malformed
  else if isBreak c.head then do
    let (first, c) := c.lineBreak
    let (others, c) ← otherBreaks c
    return (foldBreaks first others, c)
  else .ok (blanks, c)

/-- The code point of a double quote. -/
def doubleQuote : Nat := 34

/-- The code point of a single quote. -/
def singleQuote : Nat := 39

/-- Whether a code point has no meaning of its own between quotes. -/
def isOrdinary (mark c : Nat) : Bool := !(c == mark || (mark == doubleQuote && c == 92) || endsWord c)

/-- The rest of a quoted scalar, after `text`. -/
def quotationFrom (mark : Nat) : Nat → Codes → Cursor → Except Error (Codes × Cursor)
  | 0, _, _ => .error .malformed
  | fuel + 1, text, c =>
    if endsWord c.head then do
      let (space, c) ← quotedSpace c
      quotationFrom mark fuel (text ++ space) c
    else if c.head = mark then
      if mark = singleQuote ∧ c.ahead 1 = mark then quotationFrom mark fuel (text ++ [mark]) (c.advance 2)
      else .ok (text, c.next)
    else if isOrdinary mark c.head then
      let (run, c) := c.span (isOrdinary mark)
      quotationFrom mark fuel (text ++ run) c
    else do
      let (escaped, c) ← escapeSequence c.next
      quotationFrom mark fuel (text ++ escaped) c

/-- A quoted scalar, at its first quote. -/
def quotation (c : Cursor) : Except Error (Codes × Cursor) :=
  quotationFrom c.head (c.rest.length + 1) [] c.next

end Outflow.Yaml
