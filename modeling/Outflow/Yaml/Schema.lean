import Outflow.Yaml.Graph
import Outflow.Yaml.Stamp

/-!
# Tags of plain scalars

A plain scalar that does not say what it is, is what its text looks like: nothing, a truth value, a
number, a point in time, or else a text.

* `looksBool`, `looksDouble`, `looksInt`, `looksMoment`, `looksNull`: the texts of each kind;
* `implicitTag`: the tag of a plain scalar.

A single line feed at the end of a text is passed over, and empty text alone is nothing.
-/

namespace Outflow.Yaml

open Text (Codes codesOf)

/-- Whether a text is one of some words. -/
def isWord (words : List String) (cs : Codes) : Bool := words.any fun w => codesOf w == cs

/-- The texts of truth values. -/
def looksBool : Codes → Bool := isWord [
  "yes", "Yes", "YES", "no", "No", "NO", "true", "True", "TRUE", "false", "False", "FALSE", "on", "On",
  "ON", "off", "Off", "OFF"]

/-- The texts of nothing, apart from the empty one. -/
def looksNull : Codes → Bool := isWord ["~", "null", "Null", "NULL"]

/-- A text without a sign at its beginning. -/
def withoutSign (cs : Codes) : Codes := (Number.splitSign cs).2

/-- Whether a code point is a digit or an underscore. -/
def isDigitMark (c : Nat) : Bool := isDigit c || isChar '_' c

/-- Whether a code point can be the first of two digits of a number below sixty. -/
def isTens (c : Nat) : Bool := 48 ≤ c && c ≤ 53

/-- The numbers below sixty, each after a colon, at the beginning of a text are passed over. -/
def dropSixtieths : Nat → Codes → Codes
  | 0, cs => cs
  | fuel + 1, cs =>
    match cs with
    | 58 :: a :: rest =>
      if isTens a && (rest.head?.map isDigit).getD false then dropSixtieths fuel rest.tail
      else if isDigit a then dropSixtieths fuel rest
      else cs
    | cs => cs

/-- Whether a text is empty, or the exponent of a number with its sign. -/
def isExponent : Codes → Bool
  | [] => true
  | e :: sign :: digits => isOneOf "eE" e && isOneOf "+-" sign && !digits.isEmpty && digits.all isDigit
  | _ => false

/-- Whether a text is a point with digits after it, and perhaps an exponent. -/
def looksPointed : Codes → Bool
  | 46 :: d :: rest => isDigit d && isExponent (rest.dropWhile isDigitMark)
  | _ => false

/-- Whether a text without sign is a number with a point after its digits, or after sixtieths. -/
def looksWhole : Codes → Bool
  | [] => false
  | d :: rest =>
    let afterDigits := rest.dropWhile isDigitMark
    let afterSixtieths := dropSixtieths afterDigits.length afterDigits
    match afterSixtieths with
    | 46 :: tail =>
      let tail := tail.dropWhile isDigitMark
      isDigit d && (if afterSixtieths.length = afterDigits.length then isExponent tail else tail.isEmpty)
    | _ => false

/-- The texts of numbers with a point. -/
def looksDouble (cs : Codes) : Bool :=
  looksWhole (withoutSign cs) || looksPointed cs || isWord [".inf", ".Inf", ".INF"] (withoutSign cs)
    || isWord [".nan", ".NaN", ".NAN"] cs

/-- Whether there are code points, and all satisfy a condition or are underscores. -/
def allMarked (p : Nat → Bool) (cs : Codes) : Bool := !cs.isEmpty && cs.all fun c => p c || isChar '_' c

/-- The texts of integers: binary, hexadecimal, octal, decimal, or in sixtieths. -/
def looksInt (cs : Codes) : Bool :=
  match withoutSign cs with
  | [48] => true
  | 48 :: 98 :: rest => allMarked (isOneOf "01") rest
  | 48 :: 120 :: rest => allMarked (fun c => (hexValue? c).isSome) rest
  | 48 :: rest => allMarked (isOneOf "01234567") rest
  | d :: rest =>
    let afterDigits := rest.dropWhile isDigitMark
    isDigit d && (dropSixtieths afterDigits.length afterDigits).isEmpty
  | [] => false

/-- The texts of points in time.  A day alone needs two digits for month and day. -/
def looksMoment (cs : Codes) : Bool :=
  match Stamp.read? cs with
  | some s => s.clock.isSome || s.padded
  | none => false

/-- A text without the line feed at its end. -/
def withoutFinalBreak (cs : Codes) : Codes := if cs.getLast? = some 0xA then cs.dropLast else cs

/-- The tag of a text that is not empty and has no line feed at its end. -/
def tagOfWord (cs : Codes) : Tag :=
  if looksBool cs then .bool
  else if looksDouble cs then .double
  else if looksInt cs then .int
  else if isWord ["<<"] cs then .merge
  else if looksNull cs then .null
  else if looksMoment cs then .moment
  else if isWord ["="] cs then .value
  else if isWord ["!", "&", "*"] cs then .unknown
  else .text

/-- The tag of a plain scalar. -/
def implicitTag (cs : Codes) : Tag := if cs.isEmpty then .null else tagOfWord (withoutFinalBreak cs)

end Outflow.Yaml
