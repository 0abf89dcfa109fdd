import Outflow.Basic

/-!
# Nodes

A document is a graph of nodes: a node that was named can come again, even inside itself.

* `Tag`, `Tag.ofName`: what a node says it is;
* `Node`, `Graph`: nodes, known by their places.
-/

namespace Outflow.Yaml

open Text (Codes codesOf)

/-- What a node says it is. -/
inductive Tag
  | null
  | bool
  | int
  | double
  | bytes
  | moment
  | text
  | list
  /-- A list of mappings of one entry each, whose keys may repeat. -/
  | pairs
  | map
  | set
  /-- The key of a mapping whose entries are taken over. -/
  | merge
  /-- The key of the value that stands for a whole mapping. -/
  | value
  | unknown
  deriving DecidableEq

/-- The beginning of the names of the known tags. -/
def Tag.scope : String := "tag:yaml.org,2002:"

/-- The known tags by the rest of their names. -/
def Tag.table : List (String × Tag) := [
  ("null", .null), ("bool", .bool), ("int", .int), ("float", .double), ("binary", .bytes),
  ("timestamp", .moment), ("str", .text), ("seq", .list), ("omap", .pairs), ("pairs", .pairs),
  ("map", .map), ("set", .set), ("merge", .merge), ("value", .value)]

/-- The tag with a name. -/
def Tag.ofName (name : Codes) : Tag :=
  match Tag.table.find? fun e => codesOf (Tag.scope ++ e.1) == name with
  | some e => e.2
  | none => .unknown

/-- What a node holds: a text, or the places of other nodes. -/
inductive Content
  | scalar (text : Codes)
  | items (places : List Nat)
  | entries (places : List (Nat × Nat))

/-- A node. -/
structure Node where
  tag : Tag
  content : Content

/-- Nodes by their places. -/
abbrev Graph := Array Node

namespace Graph

/-- The tag of the node at a place. -/
def tagAt (g : Graph) (place : Nat) : Tag := ((g[place]?).map Node.tag).getD .unknown

/-- The content of the node at a place. -/
def contentAt (g : Graph) (place : Nat) : Content := ((g[place]?).map Node.content).getD (.scalar [])

/-- The entries of the node at a place. -/
def entriesAt (g : Graph) (place : Nat) : List (Nat × Nat) :=
  match g.contentAt place with
  | .entries es => es
  | _ => []

/-- Replaces the content of the node at a place. -/
def setContent (g : Graph) (place : Nat) (content : Content) : Graph :=
  g.modify place fun n => { n with content }

/-- Replaces the tag of the node at a place. -/
def setTag (g : Graph) (place : Nat) (tag : Tag) : Graph := g.modify place fun n => { n with tag }

end Graph

end Outflow.Yaml
