import Outflow.Basic

/-!
# Characters of documents

* `endMark`: what stands after the last character;
* `isAllowed`: the characters that a document may hold;
* `isBreak`, `isSpacing`, `endsLine`, `endsWord`, `endsField`, `isNameCode`: the classes that decide where
  tokens end;
* `unifyBreaks`: line breaks of two kinds written in one way;
* `foldBreaks`: what line breaks inside a folded scalar stand for.
-/

namespace Outflow.Yaml

open Text (Codes inRanges)

/-- What stands after the last character; no document holds it. -/
def endMark : Nat := 0

/-- Whether a code point is the given character. -/
def isChar (x : Char) (c : Nat) : Bool := c == x.toNat

/-- Whether a code point is one of the characters of a string. -/
def isOneOf (s : String) (c : Nat) : Bool := s.toList.any fun x => x.toNat == c

/-- Whether a document may hold a code point. -/
def isAllowed (c : Nat) : Bool :=
  inRanges [(0x9, 0xA), (0xD, 0xD), (0x20, 0x7E), (0x85, 0x85), (0xA0, 0xD7FF), (0xE000, 0xFFFD),
    (0x10000, 0x10FFFF)] c

/-- Whether a code point breaks a line. -/
def isBreak (c : Nat) : Bool := c == 0xA || c == 0x85 || c == 0x2028 || c == 0x2029

/-- Whether a code point is a blank or a tab. -/
def isSpacing (c : Nat) : Bool := c == 32 || c == 9

/-- Whether a line ends before a code point. -/
def endsLine (c : Nat) : Bool := c == endMark || isBreak c

/-- Whether a word ends before a code point. -/
def endsWord (c : Nat) : Bool := endsLine c || isSpacing c

/-- Whether a field of a directive or of a header ends before a code point; a tab does not end it. -/
def endsField (c : Nat) : Bool := endsLine c || c == 32

/-- Whether a code point is an ASCII digit. -/
def isDigit (c : Nat) : Bool := 48 ≤ c && c ≤ 57

/-- Whether a code point is an ASCII digit or letter, a hyphen or an underscore. -/
def isNameCode (c : Nat) : Bool :=
  isDigit c || (65 ≤ c && c ≤ 90) || (97 ≤ c && c ≤ 122) || isOneOf "-_" c

/-- The value of a hexadecimal digit. -/
def hexValue? (c : Nat) : Option Nat :=
  if isDigit c then some (c - 48)
  else if 65 ≤ c && c ≤ 70 then some (c - 55)
  else if 97 ≤ c && c ≤ 102 then some (c - 87)
  else none

/-- The value of hexadecimal digits. -/
def hexNumber (cs : Codes) : Nat := cs.foldl (fun n c => n * 16 + (hexValue? c).getD 0) 0

/-- A text in which a carriage return, alone or before a line feed, is written as a line feed. -/
def unifyBreaks : Codes → Codes
  | [] => []
  | 13 :: 10 :: rest => 10 :: unifyBreaks rest
  | c :: rest => (if c = 13 then 10 else c) :: unifyBreaks rest

/-- What a line break and those after it stand for: a single plain one for a blank, and the first of
several plain ones for nothing. -/
def foldBreaks (first others : Codes) : Codes :=
  (if first ≠ [0xA] then first else if others.isEmpty then [32] else []) ++ others

end Outflow.Yaml
