import Outflow.Text.Utf8
import Outflow.Yaml.Grammar
import Outflow.Yaml.Merging
import Outflow.Yaml.Scalar
import Outflow.Yaml.Tokenizing

/-!
# Documents

* `Document`: the nodes of a document with what each of them is worth;
* `Document.read`: a text as a document;
* `Document.field?`: the value under a name in the outermost mapping.

Nodes are valued level by level from the outermost one, so that a node may stand inside itself.  The key
of a mapping has to be a scalar, and of two entries with the same key the later one counts.
-/

namespace Outflow.Yaml

open Text (Codes codesOf)

/-- What a node is worth: a value, or a collection of what other nodes are worth. -/
inductive Worth
  | value (v : Value)
  | list
  | pairs
  | map
  | set

/-- The nodes of a document, what those reached so far are worth, and the collections to go into. -/
structure Valuation where
  graph : Graph
  worths : Array (Option Worth)
  waiting : List Nat

namespace Valuation

/-- What the node at a place is worth, if it was reached. -/
def worthAt (s : Valuation) (place : Nat) : Option Worth := (s.worths[place]?).join

/-- Sets what the node at a place is worth. -/
def setWorth (s : Valuation) (place : Nat) (w : Worth) : Valuation :=
  { s with worths := s.worths.modify place fun _ => some w }

/-- Sets what a collection is worth, which is to be gone into. -/
def setOpen (s : Valuation) (place : Nat) (w : Worth) : Valuation :=
  { s.setWorth place w with waiting := s.waiting ++ [place] }

/-- The text of a scalar, or of the value that stands for a whole mapping. -/
def textAt (g : Graph) (place : Nat) : Nat → Except Error Codes
  | 0 => .error .malformed
  | fuel + 1 =>
    match g.contentAt place with
    | .scalar text => .ok text
    | .items _ => .error .malformed
    | .entries es =>
      match es.find? fun e => g.tagAt e.1 == .value with
      | some e => textAt g e.2 fuel
      | none => .error .malformed

/-- Whether the node at a place is a mapping. -/
def isMapping (g : Graph) (place : Nat) : Bool :=
  match g.contentAt place with
  | .entries _ => true
  | _ => false

/-- The value of a node with the tag of a scalar. -/
def scalarAt (g : Graph) (place : Nat) : Except Error Value := do
  let text ← textAt g place (g.size + 1)
  if g.tagAt place = .moment ∧ isMapping g place then throw .momentOfEntries
  scalarValue (g.tagAt place) text

/-- Reaches a node. -/
def reach (s : Valuation) (place : Nat) : Except Error Valuation :=
  match s.worthAt place with
  | some _ => .ok s
  | none =>
    match s.graph.tagAt place with
    | .list => .ok (s.setOpen place .list)
    | .pairs => .ok (s.setOpen place .pairs)
    | .map => .ok (s.setOpen place .map)
    | .set => .ok (s.setOpen place .set)
    | _ => (scalarAt s.graph place).map fun v => s.setWorth place (.value v)

/-- Whether a node is worth a value that can be a key. -/
def isKey (s : Valuation) (place : Nat) : Bool :=
  match s.worthAt place with
  | some (.value v) => v.isKey
  | _ => false

/-- Reaches the nodes of an entry, the key of which has to be one. -/
def reachEntry (s : Valuation) (e : Nat × Nat) : Except Error Valuation := do
  let s ← s.reach e.1
  if s.isKey e.1 then s.reach e.2 else .error .malformed

/-- Reaches the nodes of an item that has one entry. -/
def reachPair (s : Valuation) (place : Nat) : Except Error Valuation :=
  match s.graph.contentAt place with
  | .entries [e] => do (← s.reach e.1).reach e.2
  | _ => .error .malformed

/-- Goes into a mapping or a set. -/
def enterEntries (s : Valuation) (place : Nat) : Except Error Valuation :=
  match s.graph.contentAt place with
  | .entries _ => do
    let graph ← s.graph.flatten place
    (graph.entriesAt place).foldlM reachEntry { s with graph }
  | _ => .error .malformed

/-- Goes into a list. -/
def enterItems (s : Valuation) (place : Nat) (visit : Valuation → Nat → Except Error Valuation) :
    Except Error Valuation :=
  match s.graph.contentAt place with
  | .items places => places.foldlM visit s
  | _ => .error .malformed

/-- Goes into a collection. -/
def enter (s : Valuation) (place : Nat) : Except Error Valuation :=
  match s.worthAt place with
  | some .list => s.enterItems place reach
  | some .pairs => s.enterItems place reachPair
  | some .map | some .set => s.enterEntries place
  | _ => .ok s

/-- Goes into the collections, those first that were reached first. -/
def run (s : Valuation) : Nat → Except Error Valuation
  | 0 => .ok s
  | fuel + 1 =>
    match s.waiting with
    | [] => .ok s
    | place :: rest => do
      let s ← { s with waiting := rest }.enter place
      s.run fuel

end Valuation

/-- A document: its nodes, what they are worth, and the outermost one, if there is one. -/
structure Document where
  graph : Graph
  worths : Array (Option Worth)
  root : Option Nat

namespace Document

/-- The document of nodes of which one is the outermost. -/
def ofGraph (graph : Graph) (root : Option Nat) : Except Error Document :=
  match root with
  | none => .ok ⟨graph, #[], none⟩
  | some place => do
    let s : Valuation := ⟨graph, Array.replicate graph.size none, []⟩
    let s ← (← s.reach place).run (graph.size + 1)
    return ⟨s.graph, s.worths, root⟩

/-- A text as a document. -/
def read (text : Codes) : Except Error Document := do
  let text := unifyBreaks text
  if text.all isAllowed then
    let (graph, root) ← Graph.ofTokens (tokensOf text)
    ofGraph graph root
  else .error .malformed

/-- What the node at a place is worth. -/
def worthAt (d : Document) (place : Nat) : Worth := ((d.worths[place]?).join).getD (.value .null)

mutual

/-- The value of a node inside the nodes of `path`. -/
def valueFrom (d : Document) (path : List Nat) (place : Nat) : Nat → Value
  | 0 => .null
  | fuel + 1 =>
    let inside := place :: path
    match d.worthAt place, d.graph.contentAt place with
    | .value v, _ => v
    | .list, .items places =>
      if path.contains place then .again .list else .list (valuesFrom d inside places fuel)
    | .pairs, .items places =>
      if path.contains place then .again .list
      else .pairs (entriesFrom d inside (places.flatMap d.graph.entriesAt) fuel)
    | .map, .entries es =>
      if path.contains place then .again .map
      else .map (Value.distinct (entriesFrom d inside es fuel))
    | .set, .entries es =>
      .set ((Value.distinct (entriesFrom d inside es fuel)).map Prod.fst)
    | _, _ => .null

/-- The values of nodes. -/
def valuesFrom (d : Document) (path : List Nat) (places : List Nat) : Nat → List Value
  | 0 => []
  | fuel + 1 => places.map fun p => valueFrom d path p fuel

/-- The values of entries. -/
def entriesFrom (d : Document) (path : List Nat) (es : List (Nat × Nat)) : Nat → List (Value × Value)
  | 0 => []
  | fuel + 1 => es.map fun e => (valueFrom d path e.1 fuel, valueFrom d path e.2 fuel)

end

/-- The value of the node at a place. -/
def valueAt (d : Document) (place : Nat) : Value := d.valueFrom [] place (2 * d.graph.size + 2)

/-- The entries of the outermost node, if it is a mapping. -/
def entries (d : Document) : List (Nat × Nat) :=
  match d.root with
  | none => []
  | some place =>
    match d.worthAt place with
    | .map => d.graph.entriesAt place
    | _ => []

/-- Whether a node is worth a certain text. -/
def isText (d : Document) (text : Codes) (place : Nat) : Bool :=
  match d.worthAt place with
  | .value (.text cs) => cs == text
  | _ => false

/-- The value under a name in the outermost mapping. -/
def field? (d : Document) (name : String) : Option Value :=
  (d.entries.reverse.find? fun e => d.isText (codesOf name) e.1).map fun e => d.valueAt e.2

end Document

end Outflow.Yaml
