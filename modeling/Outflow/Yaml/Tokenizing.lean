import Outflow.Yaml.PlainScalar
import Outflow.Yaml.Quotation
import Outflow.Yaml.TagName

/-!
# Tokens of a document

* `Candidate`: a token that may turn out to begin a key;
* `Tokenizer`: a place in a document, with the open blocks and the tokens so far;
* `Tokenizer.fetch`: the next token;
* `tokensOf`: all tokens of a document.

A key in a line of its own or inside brackets has no mark before it.  It is known by the colon after it,
so every token with which a key can begin is remembered, one for each depth of brackets, until its line
ends.  A token that stands where a block wants a key has to be one.
-/

namespace Outflow.Yaml

open Text (Codes)

/-- A token that may turn out to begin a key. -/
structure Candidate where
  /-- The place of the token among all tokens. -/
  number : Nat
  /-- Whether the token has to begin a key. -/
  required : Bool
  index : Nat
  line : Nat
  column : Nat

/-- A place in a document, with the open blocks and the tokens so far. -/
structure Tokenizer where
  cursor : Cursor
  tokens : List Token
  /-- The number of open brackets. -/
  depth : Nat
  /-- The column of the innermost block, and those of the blocks around it. -/
  indent : Int
  outer : List Int
  /-- Whether a key may begin here. -/
  keyAllowed : Bool
  /-- The candidates by the depth of brackets. -/
  candidates : List (Nat × Candidate)

namespace Tokenizer

/-- The beginning of a document. -/
def start (text : Codes) : Tokenizer := ⟨.start text, [], 0, -1, [], true, []⟩

/-- Whether the place is inside brackets. -/
def inFlow (s : Tokenizer) : Bool := s.depth != 0

/-- Adds a token at the end. -/
def push (s : Tokenizer) (t : Token) : Tokenizer := { s with tokens := s.tokens ++ [t] }

/-- Inserts tokens at a place. -/
def insertAt (s : Tokenizer) (n : Nat) (ts : List Token) : Tokenizer :=
  { s with tokens := s.tokens.take n ++ ts ++ s.tokens.drop n }

/-- Adds a token of some characters. -/
def pushOver (s : Tokenizer) (length : Nat) (t : Token) : Tokenizer :=
  { s with cursor := s.cursor.advance length }.push t

/-- Skips blanks, comments and line breaks.  After a line break outside brackets a key may begin. -/
def skipSpace (s : Tokenizer) : Nat → Tokenizer
  | 0 => s
  | fuel + 1 =>
    let c := s.cursor.skipComment
    if isBreak c.head then
      let keyAllowed := s.keyAllowed || !s.inFlow
      { s with cursor := c.lineBreak.2, keyAllowed }.skipSpace fuel
    else { s with cursor := c }

/-- Goes on to the next token.  A byte order mark counts as nothing at the very beginning. -/
def toNextToken (s : Tokenizer) : Tokenizer :=
  let c := s.cursor
  let c := if c.index = 0 ∧ c.head = byteOrderMark then c.next else c
  { s with cursor := c }.skipSpace (c.rest.length + 1)

/-- Whether a candidate can no longer begin a key: its line has ended, or it is too far back. -/
def isStale (s : Tokenizer) (k : Candidate) : Bool :=
  k.line != s.cursor.line || 1024 < s.cursor.index - k.index

/-- Drops the stale candidates, none of which may be required. -/
def dropStale (s : Tokenizer) : Except Error Tokenizer :=
  if s.candidates.any fun k => s.isStale k.2 && k.2.required then .error .malformed
  else .ok { s with candidates := s.candidates.filter fun k => !s.isStale k.2 }

/-- Drops the candidate of the present depth without a condition. -/
def forget (s : Tokenizer) : Tokenizer :=
  { s with candidates := s.candidates.filter fun k => k.1 != s.depth }

/-- Drops the candidate of the present depth, which may not be required. -/
def dropCandidate (s : Tokenizer) : Except Error Tokenizer :=
  match s.candidates.lookup s.depth with
  | some k => if k.required then .error .malformed else .ok s.forget
  | none => .ok s

/-- Makes the next token a candidate, if a key may begin with it. -/
def addCandidate (s : Tokenizer) : Except Error Tokenizer :=
  if !s.keyAllowed then .ok s
  else do
    let s ← s.dropCandidate
    let c := s.cursor
    let required := !s.inFlow && decide (s.indent = c.column)
    let k : Candidate := ⟨s.tokens.length, required, c.index, c.line, c.column⟩
    return { s with candidates := s.candidates ++ [(s.depth, k)] }

/-- The number of tokens that will stay as they are. -/
def settled (s : Tokenizer) : Nat :=
  let live := s.candidates.filter fun k => !s.isStale k.2
  live.foldl (fun n k => min n k.2.number) s.tokens.length

/-- Ends the blocks whose column is greater than the given one. -/
def closeBlocks (column : Int) (s : Tokenizer) : List Int → Tokenizer
  | [] => s
  | o :: rest =>
    if column < s.indent then
      closeBlocks column ({ s with indent := o, outer := rest }.push .blockEnd) rest
    else s

/-- Ends the blocks whose column is greater than the given one, outside brackets. -/
def unwind (s : Tokenizer) (column : Int) : Tokenizer :=
  if s.inFlow then s else s.closeBlocks column s.outer

/-- Begins a block at a column, unless one that is not further left is open; the token that says so is
inserted at a place. -/
def openBlock (s : Tokenizer) (column place : Nat) (t : Token) : Tokenizer :=
  if s.indent < column then
    { s with indent := column, outer := s.indent :: s.outer }.insertAt place [t]
  else s

/-- The end of the document. -/
def endStream (s : Tokenizer) : Except Error Tokenizer := do
  let s ← (s.unwind (-1)).dropCandidate
  return { s with keyAllowed := false, candidates := [] }.push .streamEnd

/-- A directive. -/
def fetchDirective (s : Tokenizer) : Except Error Tokenizer := do
  let s ← (s.unwind (-1)).dropCandidate
  let (token, cursor) ← directive s.cursor
  return { s with keyAllowed := false, cursor }.push token

/-- A mark between documents. -/
def fetchSeparator (s : Tokenizer) (t : Token) : Except Error Tokenizer := do
  let s ← (s.unwind (-1)).dropCandidate
  return { s with keyAllowed := false }.pushOver 3 t

/-- An opening bracket. -/
def fetchOpening (s : Tokenizer) (t : Token) : Except Error Tokenizer := do
  let s ← s.addCandidate
  return { s with depth := s.depth + 1, keyAllowed := true }.pushOver 1 t

/-- A closing bracket, of which there are no more than opening ones. -/
def fetchClosing (s : Tokenizer) (t : Token) : Except Error Tokenizer := do
  let s ← s.dropCandidate
  match s.depth with
  | 0 => .error .malformed
  | depth + 1 => return { s with depth, keyAllowed := false }.pushOver 1 t

/-- A comma. -/
def fetchComma (s : Tokenizer) : Except Error Tokenizer := do
  let s ← s.dropCandidate
  return { s with keyAllowed := true }.pushOver 1 .comma

/-- Begins a block at the present place, where one may begin. -/
def openBlockHere (s : Tokenizer) (t : Token) : Except Error Tokenizer :=
  if s.inFlow then .ok s
  else if !s.keyAllowed then .error .malformed
  else .ok (s.openBlock s.cursor.column s.tokens.length t)

/-- The mark of an item. -/
def fetchItem (s : Tokenizer) : Except Error Tokenizer := do
  let s ← s.openBlockHere .blockItems
  let s ← { s with keyAllowed := true }.dropCandidate
  return s.pushOver 1 .item

/-- The mark of a key. -/
def fetchKey (s : Tokenizer) : Except Error Tokenizer := do
  let s ← s.openBlockHere .blockEntries
  let s ← { s with keyAllowed := !s.inFlow }.dropCandidate
  return s.pushOver 1 .key

/-- The mark of a value.  The candidate, if there is one, turns out to begin the key. -/
def fetchValue (s : Tokenizer) : Except Error Tokenizer :=
  match s.candidates.lookup s.depth with
  | some k =>
    let s := s.forget.insertAt k.number [.key]
    let s := if s.inFlow then s else s.openBlock k.column k.number .blockEntries
    .ok ({ s with keyAllowed := false }.pushOver 1 .value)
  | none => do
    let s ← s.openBlockHere .blockEntries
    return { s with keyAllowed := !s.inFlow }.pushOver 1 .value

/-- The name of a node, where it is given or where the node comes again. -/
def fetchName (s : Tokenizer) (t : Codes → Token) : Except Error Tokenizer := do
  let s ← s.addCandidate
  let (name, cursor) ← anchorName s.cursor.next
  return { s with keyAllowed := false, cursor }.push (t name)

/-- A tag. -/
def fetchTag (s : Tokenizer) : Except Error Tokenizer := do
  let s ← s.addCandidate
  let (token, cursor) ← tagToken s.cursor
  return { s with keyAllowed := false, cursor }.push token

/-- A block scalar. -/
def fetchBlockScalar (s : Tokenizer) : Except Error Tokenizer := do
  let s ← s.dropCandidate
  let (text, cursor) ← blockScalar s.indent s.cursor
  return { s with keyAllowed := true, cursor }.push (.scalar false text)

/-- A quoted scalar. -/
def fetchQuotation (s : Tokenizer) : Except Error Tokenizer := do
  let s ← s.addCandidate
  let (text, cursor) ← quotation s.cursor
  return { s with keyAllowed := false, cursor }.push (.scalar false text)

/-- A plain scalar. -/
def fetchPlain (s : Tokenizer) : Except Error Tokenizer := do
  let s ← s.addCandidate
  let (text, cursor, keyAllowed) := plainScalar s.inFlow (s.indent + 1) s.cursor
  return { s with keyAllowed, cursor }.push (.scalar true text)

/-- The token at a place where there is one. -/
def fetchHere (s : Tokenizer) : Except Error Tokenizer :=
  let c := s.cursor
  let is : Char → Bool := fun x => isChar x c.head
  let standsAlone := s.inFlow || endsWord (c.ahead 1)
  if c.column = 0 ∧ is '%' then s.fetchDirective
  else if c.column = 0 ∧ c.isThrice '-' then s.fetchSeparator .documentStart
  else if c.column = 0 ∧ c.isThrice '.' then s.fetchSeparator .documentEnd
  else if is '[' then s.fetchOpening .openItems
  else if is '\x7b' then s.fetchOpening .openEntries
  else if is ']' then s.fetchClosing .closeItems
  else if is '\x7d' then s.fetchClosing .closeEntries
  else if is ',' then s.fetchComma
  else if is '-' && endsWord (c.ahead 1) then s.fetchItem
  else if is '?' && standsAlone then s.fetchKey
  else if is ':' && standsAlone then s.fetchValue
  else if is '*' then s.fetchName .again
  else if is '&' then s.fetchName .anchor
  else if is '!' then s.fetchTag
  else if (is '|' || is '>') && !s.inFlow then s.fetchBlockScalar
  else if c.head = singleQuote ∨ c.head = doubleQuote then s.fetchQuotation
  else if beginsPlain s.inFlow c then s.fetchPlain
  else .error .malformed

/-- The next token, with the ends of blocks before it; the result says whether it is the last. -/
def fetch (s : Tokenizer) : Except Error (Tokenizer × Bool) := do
  let s ← s.toNextToken.dropStale
  let s := s.unwind s.cursor.column
  if s.cursor.head = endMark then return (← s.endStream, true)
  else return (← s.fetchHere, false)

/-- The tokens from a place on.  Where there is none, those before it that stay as they are. -/
def run (s : Tokenizer) : Nat → TokenList
  | 0 => ⟨s.tokens, some .malformed⟩
  | fuel + 1 =>
    match s.fetch with
    | .error e => ⟨s.tokens.take s.settled, some e⟩
    | .ok (s, true) => ⟨s.tokens, none⟩
    | .ok (s, false) => s.run fuel

end Tokenizer

/-- All tokens of a document. -/
def tokensOf (text : Codes) : TokenList := (Tokenizer.start text).run (text.length + 1)

end Outflow.Yaml
