import Outflow.Text.Lowercase
import Outflow.Yaml.Base64
import Outflow.Yaml.Graph
import Outflow.Yaml.Stamp

/-!
# Values of scalars

* `integerOf`, `doubleOf`, `boolOf`, `bytesOf`, `momentOf`: the values of texts that say what they are;
* `scalarValue`: the value of a text under a tag.

Underscores between digits count for nothing, and a number with colons is written in base 60.
-/

namespace Outflow.Yaml

open Text (Codes codesOf lower)

/-- The parts of a text between colons. -/
def colonParts : Codes → List Codes
  | [] => [[]]
  | c :: rest =>
    match colonParts rest with
    | [] => [[c]]
    | part :: parts => if isChar ':' c then [] :: part :: parts else (c :: part) :: parts

/-- An integer in a base. -/
def numeral (base : Nat) (cs : Codes) : Except Error Int :=
  match Number.readInteger base cs with
  | .ok n => .ok n
  | .error reason => .error (.numeral base cs reason)

/-- An integer in base 60 by its parts. -/
def sixtieths (parts : List Codes) : Except Error Int := do
  let digits ← parts.mapM (numeral 10)
  return digits.foldl (fun n d => n * 60 + d) 0

/-- An integer without sign: binary, hexadecimal, octal, in base 60, or decimal. -/
def unsignedInteger (cs : Codes) : Except Error Int :=
  match cs with
  | [] => .error .emptyNumber
  | [48] => .ok 0
  | 48 :: 98 :: rest => numeral 2 rest
  | 48 :: 120 :: rest => numeral 16 rest
  | 48 :: _ => numeral 8 cs
  | _ => if cs.any (isChar ':') then sixtieths (colonParts cs) else numeral 10 cs

/-- The integer of a text. -/
def integerOf (cs : Codes) : Except Error Int := do
  let cs := Number.withoutUnderscores cs
  if cs.isEmpty then throw .emptyNumber
  let (negative, body) := Number.splitSign cs
  let n ← unsignedInteger body
  return if negative then -n else n

/-- A decimal fraction. -/
def fraction (cs : Codes) : Except Error Double :=
  match Number.readDouble? cs with
  | some x => .ok x
  | none => .error (.fraction cs)

/-- The sum of the digits of a number in base 60, the last of which has the weight `60 ^ place`. -/
def sixtiethsSum (total : Double) (place : Nat) : List Double → Except Error Double
  | [] => .ok total
  | d :: rest =>
    match Double.ofNat (Nat.pow 60 place) with
    | .infinite _ => .error .placeTooLarge
    | weight => sixtiethsSum (total.add (d.mul weight)) (place + 1) rest

/-- A number without sign: an infinity, no number, in base 60, or a decimal fraction. -/
def unsignedDouble (cs : Codes) : Except Error Double :=
  if cs = codesOf ".inf" then .ok (.infinite false)
  else if cs = codesOf ".nan" then .ok .nan
  else if cs.any (isChar ':') then do
    let digits ← (colonParts cs).mapM fraction
    sixtiethsSum (.zero false) 0 digits.reverse
  else fraction cs

/-- The floating point number of a text. -/
def doubleOf (cs : Codes) : Except Error Double := do
  let cs := lower (Number.withoutUnderscores cs)
  if cs.isEmpty then throw .emptyNumber
  let (negative, body) := Number.splitSign cs
  let x ← unsignedDouble body
  return if negative then x.neg else x

/-- The words of truth values. -/
def boolWords : List (String × Bool) := [
  ("yes", true), ("no", false), ("true", true), ("false", false), ("on", true), ("off", false)]

/-- The truth value of a text, in any letter case. -/
def boolOf (cs : Codes) : Except Error Bool :=
  let word := lower cs
  match boolWords.find? fun e => codesOf e.1 == word with
  | some e => .ok e.2
  | none => .error (.truth word)

/-- The bytes of a text in base 64. -/
def bytesOf (cs : Codes) : Except Error Bytes :=
  if cs.any (127 < ·) then .error .malformed
  else match decodeBase64? cs with
    | some bytes => .ok bytes
    | none => .error .malformed

/-- The date or moment of a text. -/
def momentOf (cs : Codes) : Except Error Value :=
  let cs := if cs.getLast? = some 0xA then cs.dropLast else cs
  match Stamp.read? cs with
  | some s => s.value
  | none => .error .noMoment

/-- The value of a text under a tag; only tags of scalars make a value of it. -/
def scalarValue (tag : Tag) (cs : Codes) : Except Error Value :=
  match tag with
  | .null => .ok .null
  | .bool => (boolOf cs).map .bool
  | .int => (integerOf cs).map .int
  | .double => (doubleOf cs).map .double
  | .bytes => (bytesOf cs).map .bytes
  | .moment => momentOf cs
  | .text => .ok (.text cs)
  | _ => .error .malformed

end Outflow.Yaml
