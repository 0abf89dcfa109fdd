import Outflow.Yaml.Error
import Outflow.Yaml.Graph

/-!
# Merging

A mapping can take over the entries of others, under a key that says so.

* `Graph.merges`: the number of such keys;
* `Graph.flatten`: the graph after a mapping has taken over what it asks for.

Entries that are taken over stand before the mapping's own, so that the own ones count; of several
mappings the first counts.
-/

namespace Outflow.Yaml

namespace Graph

/-- Whether an entry asks for the entries of others. -/
def isMerge (g : Graph) (e : Nat × Nat) : Bool := g.tagAt e.1 == .merge

/-- The number of entries of a node that ask for the entries of others. -/
def mergesOf (g : Graph) (n : Node) : Nat :=
  match n.content with
  | .entries es => (es.filter g.isMerge).length
  | _ => 0

/-- The number of entries that ask for the entries of others. -/
def merges (g : Graph) : Nat := (g.toList.map g.mergesOf).foldr (· + ·) 0

/-- Makes the key that stands for a whole mapping a plain text, in all entries. -/
def plainKeys (g : Graph) (es : List (Nat × Nat)) : Graph :=
  es.foldl (fun g e => if g.tagAt e.1 = .value then g.setTag e.1 .text else g) g

/-- Takes the first entry that asks for the entries of others out of a node; the result is the node that
it asks. -/
def takeMerge (g : Graph) (place : Nat) : Option (Graph × Nat) :=
  let es := g.entriesAt place
  let before := es.takeWhile fun e => !g.isMerge e
  match es.drop before.length with
  | [] => none
  | e :: rest => some (g.setContent place (.entries (before ++ rest)), e.2)

mutual

/-- The graph after the node at a place has taken over what it asks for, with `taken` so far. -/
def flattenFrom (g : Graph) (place : Nat) (taken : List (Nat × Nat)) : Nat → Except Error Graph
  | 0 => .error .malformed
  | fuel + 1 =>
    match g.takeMerge place with
    | none =>
      let own := g.entriesAt place
      .ok ((g.plainKeys own).setContent place (.entries (taken ++ own)))
    | some (g, source) => do
      let (g, gained) ← gather g source fuel
      flattenFrom g place (taken ++ gained) fuel

/-- The graph after the node that is asked has taken over what it asks for, and the entries that it has
to give: its own, or those of all its items. -/
def gather (g : Graph) (source : Nat) : Nat → Except Error (Graph × List (Nat × Nat))
  | 0 => .error .malformed
  | fuel + 1 =>
    match g.contentAt source with
    | .scalar _ => .error .malformed
    | .entries _ => do
      let g ← flattenFrom g source [] fuel
      return (g, g.entriesAt source)
    | .items places => gatherAll g places [] fuel

/-- The entries of all items, the last item first, before those got so far. -/
def gatherAll (g : Graph) (places : List Nat) (got : List (Nat × Nat)) :
    Nat → Except Error (Graph × List (Nat × Nat))
  | 0 => .error .malformed
  | fuel + 1 =>
    match places with
    | [] => .ok (g, got)
    | p :: rest =>
      match g.contentAt p with
      | .entries _ => do
        let g ← flattenFrom g p [] fuel
        gatherAll g rest (g.entriesAt p ++ got) fuel
      | _ => .error .malformed

end

/-- The number of items of all lists. -/
def itemCount (g : Graph) : Nat :=
  (g.toList.map fun n => match n.content with | .items ps => ps.length | _ => 0).foldr (· + ·) 0

/-- The graph after the mapping at a place has taken over what it asks for. -/
def flatten (g : Graph) (place : Nat) : Except Error Graph :=
  g.flattenFrom place [] ((g.merges + 1) * (g.itemCount + 4))

end Graph

end Outflow.Yaml
