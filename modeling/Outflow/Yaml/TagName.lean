import Outflow.Text.Utf8
import Outflow.Yaml.BlockScalar
import Outflow.Yaml.Token

/-!
# Names, tags and directives

* `anchorName`: the name of a node;
* `tagHandle`, `tagRest`: the two parts of a tag, the second with escapes of bytes;
* `tagToken`: a tag;
* `directive`: a directive.
-/

namespace Outflow.Yaml

open Text (Codes)

/-- The characters besides letters and digits that a tag may hold as they are. -/
def tagMarks : String := "-;/?:@&=+$,_.!~*'()[]"

/-- Whether a tag may hold a code point as it is. -/
def isTagCode (c : Nat) : Bool := isNameCode c || isOneOf tagMarks c

/-- The name of a node, after its mark. -/
def anchorName (c : Cursor) : Except Error (Codes × Cursor) :=
  let (name, c) := c.span isNameCode
  if name.isEmpty || !(endsWord c.head || isOneOf "?:,]\x7d%@`" c.head) then .error .malformed
  else .ok (name, c)

/-- A handle: an exclamation mark, or a name between two. -/
def tagHandle (c : Cursor) : Except Error (Codes × Cursor) :=
  if !isChar '!' c.head then .error .malformed
  else if c.ahead 1 = 32 then .ok (c.rest.take 1, c.next)
  else
    let n := (c.next.span isNameCode).1.length + 2
    if isChar '!' (c.ahead (n - 1)) then .ok (c.rest.take n, c.advance n) else .error .malformed

/-- Bytes that are escaped by a percent sign and two digits each. -/
def escapedBytes : Nat → Bytes → Cursor → Except Error (Bytes × Cursor)
  | 0, bytes, c => .ok (bytes, c)
  | fuel + 1, bytes, c =>
    if isChar '%' c.head then
      match hexValue? (c.ahead 1), hexValue? (c.ahead 2) with
      | some high, some low => escapedBytes fuel (bytes ++ [(high * 16 + low).toUInt8]) (c.advance 3)
      | _, _ => .error .malformed
    else .ok (bytes, c)

/-- The rest of a tag after `text`. -/
def tagRestFrom : Nat → Codes → Cursor → Except Error (Codes × Cursor)
  | 0, text, c => .ok (text, c)
  | fuel + 1, text, c => do
    let (run, c) := c.span isTagCode
    let text := text ++ run
    if !isChar '%' c.head then return (text, c)
    let (bytes, c) ← escapedBytes c.rest.length [] c
    match Text.Utf8.decode bytes with
    | .ok codes => tagRestFrom fuel (text ++ codes) c
    | .error _ => .error .malformed

/-- The part of a tag after its handle, which is not empty. -/
def tagRest (c : Cursor) : Except Error (Codes × Cursor) := do
  let (text, c) ← tagRestFrom (c.rest.length + 1) [] c
  if text.isEmpty then .error .malformed else return (text, c)

/-- Whether the word at a place has an exclamation mark after its first character. -/
def hasHandle (c : Cursor) : Bool := ((c.next.span fun x => !endsField x).1).any (isChar '!')

/-- The handle, if there is one, and the rest of a tag. -/
def tagParts (c : Cursor) : Except Error (Option Codes × Codes × Cursor) := do
  if isChar '<' (c.ahead 1) then
    let (rest, c) ← tagRest (c.advance 2)
    if isChar '>' c.head then return (none, rest, c.next) else .error .malformed
  else if endsWord (c.ahead 1) then return (none, c.rest.take 1, c.next)
  else
    let (handle, c) ← if hasHandle c then tagHandle c else .ok (c.rest.take 1, c.next)
    let (rest, c) ← tagRest c
    return (some handle, rest, c)

/-- A tag, at its exclamation mark. -/
def tagToken (c : Cursor) : Except Error (Token × Cursor) := do
  let (handle, rest, c) ← tagParts c
  if endsField c.head then return (.tag handle rest, c) else .error .malformed

/-- A part of the number of a version. -/
def versionNumber (c : Cursor) : Except Error (Nat × Cursor) :=
  let (digits, c) := c.span isDigit
  match Number.readInteger 10 digits with
  | .ok n => .ok (n.toNat, c)
  | .error reason => .error (if digits.isEmpty then .malformed else .numeral 10 digits reason)

/-- The version that a directive names, of which the first number counts. -/
def versionToken (c : Cursor) : Except Error (Token × Cursor) := do
  let (major, c) ← versionNumber (c.skip (· == 32))
  if !isChar '.' c.head then .error .malformed
  let (_, c) ← versionNumber c.next
  if endsField c.head then return (.version major, c) else .error .malformed

/-- The handle that a directive defines, and what it stands for. -/
def handleToken (c : Cursor) : Except Error (Token × Cursor) := do
  let (name, c) ← tagHandle (c.skip (· == 32))
  if c.head ≠ 32 then .error .malformed
  let (expansion, c) ← tagRest (c.skip (· == 32))
  if endsField c.head then return (.handle name expansion, c) else .error .malformed

/-- What a directive says, after its name. -/
def directiveToken (name : Codes) (c : Cursor) : Except Error (Token × Cursor) :=
  if name = Text.codesOf "YAML" then versionToken c
  else if name = Text.codesOf "TAG" then handleToken c
  else .ok (.otherDirective, c.skip fun x => !endsLine x)

/-- A directive with its line, at its percent sign. -/
def directive (c : Cursor) : Except Error (Token × Cursor) := do
  let (name, c) := c.next.span isNameCode
  if name.isEmpty || !endsField c.head then .error .malformed
  let (token, c) ← directiveToken name c
  return (token, ← headerEnd c)

end Outflow.Yaml
