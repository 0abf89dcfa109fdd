import Outflow.Yaml.Schema
import Outflow.Yaml.Token

/-!
# Nodes of a document

* `Builder`: reading tokens, with the nodes that they gave so far;
* `Builder.node`: a node with everything inside it;
* `Builder.stream`: a stream of at most one document;
* `Graph.ofTokens`: the nodes of a document, with the place of the outermost one if there is a document.

Where a collection leaves out an item, a key or a value, there is an empty scalar.
-/

namespace Outflow.Yaml

open Text (Codes codesOf)

/-- Tokens that are still to be read, and what was made of those before. -/
structure Build where
  tokens : List Token
  /-- Why there are no more tokens. -/
  fault : Option Error
  nodes : Graph
  /-- The named nodes. -/
  names : List (Codes × Nat)
  /-- What handles stand for. -/
  handles : List (Codes × Codes)

/-- Reading tokens. -/
abbrev Builder := StateT Build (Except Error)

namespace Builder

/-- There is no such document. -/
def fail {α : Type} : Builder α := throw .malformed

/-- The next token. -/
def peek : Builder Token := do
  let b ← get
  match b.tokens with
  | t :: _ => return t
  | [] => throw (b.fault.getD .malformed)

/-- Passes over the next token. -/
def skip : Builder Unit := modify fun b => { b with tokens := b.tokens.tail }

/-- Passes over the next token if it is the given one. -/
def accept (t : Token) : Builder Bool := do
  if (← peek) = t then
    skip
    return true
  else return false

/-- Whether the next token is one of some tokens. -/
def comesOneOf (ts : List Token) : Builder Bool := return ts.contains (← peek)

/-- A new node. -/
def add (tag : Tag) (content : Content) : Builder Nat := do
  let b ← get
  set { b with nodes := b.nodes.push ⟨tag, content⟩ }
  return b.nodes.size

/-- A new empty scalar. -/
def addEmpty : Builder Nat := add .null (.scalar [])

/-- Gives a node its name, if it has one. -/
def register (name : Option Codes) (place : Nat) : Builder Unit :=
  match name with
  | none => return ()
  | some name => modify fun b => { b with names := (name, place) :: b.names }

/-- Fails if a name is taken. -/
def checkName (name : Option Codes) : Builder Unit := do
  let b ← get
  match name.bind fun name => b.names.lookup name with
  | some _ => fail
  | none => return ()

/-- Sets the content of a node. -/
def fill (place : Nat) (content : Content) : Builder Unit :=
  modify fun b => { b with nodes := b.nodes.setContent place content }

/-- The name of a tag in full. -/
def fullTag (handle : Option Codes) (rest : Codes) : Builder Codes := do
  match handle with
  | none => return rest
  | some handle =>
    let b ← get
    match b.handles.lookup handle with
    | some expansion => return expansion ++ rest
    | none => fail

/-- The name and the tag before a node, in either order. -/
def properties : Builder (Option Codes × Option Codes) := do
  match ← peek with
  | .anchor name =>
    skip
    match ← peek with
    | .tag handle rest =>
      skip
      return (some name, some (← fullTag handle rest))
    | _ => return (some name, none)
  | .tag handle rest =>
    skip
    match ← peek with
    | .anchor name =>
      skip
      return (some name, some (← fullTag handle rest))
    | _ => return (none, some (← fullTag handle rest))
  | _ => return (none, none)

/-- The tag of a scalar: what it looks like if it is plain and has none, or if its tag leaves it open. -/
def scalarTag (tag : Option Codes) (plain : Bool) (text : Codes) : Tag :=
  match tag with
  | none => if plain then implicitTag text else .text
  | some name => if name = codesOf "!" then implicitTag text else .ofName name

/-- The tag of a collection. -/
def collectionTag (tag : Option Codes) (usual : Tag) : Tag :=
  match tag with
  | none => usual
  | some name => if name = codesOf "!" then usual else .ofName name

/-- A node that was named before. -/
def named (name : Codes) : Builder Nat := do
  let b ← get
  match b.names.lookup name with
  | some place => return place
  | none => fail

/-- A collection whose content is still to come, so that it can come again inside itself. -/
def addOpen (name : Option Codes) (tag : Tag) : Builder Nat := do
  let place ← add tag (.items [])
  register name place
  return place

/-- A scalar. -/
def addScalar (name : Option Codes) (tag : Tag) (text : Codes) : Builder Nat := do
  let place ← add tag (.scalar text)
  register name place
  return place

mutual

/-- A node with everything inside it; `block` says that it may be a block, and `flush` that it may be a
list whose items are not indented. -/
def node (block flush : Bool) : Nat → Builder Nat
  | 0 => fail
  | fuel + 1 => do
    match ← peek with
    | .again name =>
      skip
      named name
    | _ =>
      let (name, tag) ← properties
      content block flush name tag fuel

/-- The content of a node after its name and tag, of which there may be none if it has one of these. -/
def content (block flush : Bool) (name tag : Option Codes) : Nat → Builder Nat
  | 0 => fail
  | fuel + 1 => do
    let t ← peek
    if flush && t = .item then
      checkName name
      let place ← addOpen name (collectionTag tag .list)
      fill place (.items (← flushItems [] fuel))
      return place
    match t with
    | .scalar plain text =>
      skip
      checkName name
      addScalar name (scalarTag tag plain text) text
    | .openItems =>
      skip
      checkName name
      let place ← addOpen name (collectionTag tag .list)
      fill place (.items (← flowItems true [] fuel))
      return place
    | .openEntries =>
      skip
      checkName name
      let place ← addOpen name (collectionTag tag .map)
      fill place (.entries (← flowEntries true [] fuel))
      return place
    | t =>
      if block && t = .blockItems then
        skip
        checkName name
        let place ← addOpen name (collectionTag tag .list)
        fill place (.items (← blockItems [] fuel))
        return place
      else if block && t = .blockEntries then
        skip
        checkName name
        let place ← addOpen name (collectionTag tag .map)
        fill place (.entries (← blockEntries [] fuel))
        return place
      else if name.isSome || tag.isSome then
        checkName name
        addScalar name (scalarTag tag true []) []
      else fail

/-- A node, or an empty scalar before certain tokens. -/
def optionalNode (block flush : Bool) (before : List Token) : Nat → Builder Nat
  | 0 => fail
  | fuel + 1 => do
    if ← comesOneOf before then addEmpty else node block flush fuel

/-- The items of an indented list, after those got so far. -/
def blockItems (got : List Nat) : Nat → Builder (List Nat)
  | 0 => fail
  | fuel + 1 => do
    if ← accept .item then
      let place ← optionalNode true false [.item, .blockEnd] fuel
      blockItems (got ++ [place]) fuel
    else if ← accept .blockEnd then return got
    else fail

/-- The items of a list that is not indented, after those got so far. -/
def flushItems (got : List Nat) : Nat → Builder (List Nat)
  | 0 => fail
  | fuel + 1 => do
    if ← accept .item then
      let place ← optionalNode true false [.item, .key, .value, .blockEnd] fuel
      flushItems (got ++ [place]) fuel
    else return got

/-- The entries of a block, after those got so far. -/
def blockEntries (got : List (Nat × Nat)) : Nat → Builder (List (Nat × Nat))
  | 0 => fail
  | fuel + 1 => do
    if ← accept .key then
      let key ← optionalNode true true [.key, .value, .blockEnd] fuel
      let value ← if ← accept .value then optionalNode true true [.key, .value, .blockEnd] fuel
        else addEmpty
      blockEntries (got ++ [(key, value)]) fuel
    else if ← accept .blockEnd then return got
    else fail

/-- A key and a value between brackets, after the mark of the key. -/
def flowPair (closing : Token) : Nat → Builder (Nat × Nat)
  | 0 => fail
  | fuel + 1 => do
    let key ← optionalNode false false [.value, .comma, closing] fuel
    let value ← if ← accept .value then optionalNode false false [.comma, closing] fuel else addEmpty
    return (key, value)

/-- The items between brackets, after those got so far.  A key with a value is a mapping of its own. -/
def flowItems (first : Bool) (got : List Nat) : Nat → Builder (List Nat)
  | 0 => fail
  | fuel + 1 => do
    if ← accept .closeItems then return got
    if !first then
      if !(← accept .comma) then fail
    if ← accept .key then
      let place ← addOpen none .map
      let entry ← flowPair .closeItems fuel
      fill place (.entries [entry])
      flowItems false (got ++ [place]) fuel
    else if ← accept .closeItems then return got
    else
      let place ← node false false fuel
      flowItems false (got ++ [place]) fuel

/-- The entries between braces, after those got so far.  A key may stand alone. -/
def flowEntries (first : Bool) (got : List (Nat × Nat)) : Nat → Builder (List (Nat × Nat))
  | 0 => fail
  | fuel + 1 => do
    if ← accept .closeEntries then return got
    if !first then
      if !(← accept .comma) then fail
    if ← accept .key then
      let entry ← flowPair .closeEntries fuel
      flowEntries false (got ++ [entry]) fuel
    else if ← accept .closeEntries then return got
    else
      let key ← node false false fuel
      let value ← addEmpty
      flowEntries false (got ++ [(key, value)]) fuel

end

/-- The handles that are always defined. -/
def usualHandles : List (Codes × Codes) := [
  (codesOf "!", codesOf "!"), (codesOf "!!", codesOf Tag.scope)]

/-- Directives, after those that name a version or not and define some handles. -/
def directives (versioned : Bool) (handles : List (Codes × Codes)) : Nat → Builder Unit
  | 0 => fail
  | fuel + 1 => do
    match ← peek with
    | .version major =>
      if versioned || major ≠ 1 then fail
      skip
      directives true handles fuel
    | .handle name expansion =>
      if (handles.lookup name).isSome then fail
      skip
      directives versioned (handles ++ [(name, expansion)]) fuel
    | .otherDirective =>
      skip
      directives versioned handles fuel
    | _ => modify fun b => { b with handles := handles ++ usualHandles }

/-- Whether a token is a directive. -/
def isDirective : Token → Bool
  | .version _ | .handle .. | .otherDirective => true
  | _ => false

/-- Passes over marks of ends of documents. -/
def skipEnds : Nat → Builder Unit
  | 0 => return ()
  | fuel + 1 => do if ← accept .documentEnd then skipEnds fuel

/-- A document that begins with a mark, perhaps after directives. -/
def markedDocument (fuel : Nat) : Builder Nat := do
  directives false [] fuel
  if !(← accept .documentStart) then fail
  let t ← peek
  if isDirective t || t = .documentStart || t = .documentEnd || t = .streamEnd then addEmpty
  else node true false fuel

/-- A document that begins at once. -/
def bareDocument (fuel : Nat) : Builder Nat := do
  modify fun b => { b with handles := usualHandles }
  node true false fuel

/-- A stream of at most one document. -/
def stream (fuel : Nat) : Builder (Option Nat) := do
  let t ← peek
  if t = .streamEnd then return none
  let place ← if isDirective t || t = .documentStart then markedDocument fuel else bareDocument fuel
  skipEnds fuel
  if (← peek) = .streamEnd then return some place else fail

end Builder

/-- The nodes of a document, with the place of the outermost one if there is a document. -/
def Graph.ofTokens (ts : TokenList) : Except Error (Graph × Option Nat) := do
  let start : Build := ⟨ts.tokens, ts.fault, #[], [], Builder.usualHandles⟩
  let (root, b) ← (Builder.stream (4 * ts.tokens.length + 8)).run start
  return (b.nodes, root)

end Outflow.Yaml
