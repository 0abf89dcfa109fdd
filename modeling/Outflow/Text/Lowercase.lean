import Outflow.Text.CaseTable

/-!
# Lower case

* `lowerCode`: the lower-case form of one code point, regardless of its neighbours;
* `endsWord`: whether a capital sigma at a place ends a word and so becomes a final sigma;
* `lower`: the lower-case form of a text.

Only U+0130 has a form of two code points, and only the capital sigma looks at its neighbours: it is
final after a cased code point and before none, marks and the like being passed over on both sides.
-/

namespace Outflow.Text

/-- Whether a code point has case. -/
def isCased (c : Nat) : Bool := inRanges casedRanges c

/-- Whether a code point is passed over in looking for a cased one. -/
def isIgnorable (c : Nat) : Bool := inRanges ignorableRanges c

/-- The lower-case form of a code point by the runs that hold it. -/
def lowerByRuns : List CaseRun → Nat → Nat
  | [], c => c
  | r :: rest, c => if r.covers c then (c + r.offset).toNat else lowerByRuns rest c

/-- The lower-case form of a code point on its own. -/
def lowerCode (c : Nat) : Codes := if c = 0x130 then [0x69, 0x307] else [lowerByRuns lowerRuns c]

/-- Whether the first code point that is not passed over is cased. -/
def meetsCased (cs : Codes) : Bool := ((cs.dropWhile isIgnorable).head?.map isCased).getD false

/-- Whether a capital sigma between these neighbours ends a word; `before` runs backwards. -/
def endsWord (before after : Codes) : Bool := meetsCased before && !meetsCased after

/-- The lower-case form of the rest of a text, of which `before` was passed, last code point first. -/
def lowerFrom (before : Codes) : Codes → Codes
  | [] => []
  | c :: rest =>
    (if c = 0x3A3 then [if endsWord before rest then 0x3C2 else 0x3C3] else lowerCode c)
      ++ lowerFrom (c :: before) rest

/-- The lower-case form of a text. -/
def lower (cs : Codes) : Codes := lowerFrom [] cs

end Outflow.Text
