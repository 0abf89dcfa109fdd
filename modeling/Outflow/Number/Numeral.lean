import Outflow.Number.Double
import Outflow.Text.Quoted

/-!
# Numbers written out

* `Text.digitValue?`, `Text.isBlank`: the decimal digits of every script, and the blanks around a number;
* `plainScript`: a text with the digits and blanks of every script written in ASCII;
* `readInteger`: an integer in some base, with a sign, a base mark and single underscores between digits;
* `readDouble?`: a decimal fraction with an exponent, or the name of an infinity or a not-a-number;
* `writeInteger?`: the decimal digits of an integer.

Decimal numerals are limited to `digitLimit` digits in both directions.  Every script of Unicode 14 has its
ten decimal digits in a row, so a table of the zeros is enough.
-/

namespace Outflow

namespace Text

/-- The digit zero of every script. -/
def digitZeros : List Nat := [
  48, 1632, 1776, 1984, 2406, 2534, 2662, 2790, 2918, 3046, 3174, 3302,
  3430, 3558, 3664, 3792, 3872, 4160, 4240, 6112, 6160, 6470, 6608, 6784,
  6800, 6992, 7088, 7232, 7248, 42528, 43216, 43264, 43472, 43504, 43600, 44016,
  65296, 66720, 68912, 69734, 69872, 69942, 70096, 70384, 70736, 70864, 71248, 71360,
  71472, 71904, 72016, 72784, 73040, 73120, 92768, 92864, 93008, 120782, 120792, 120802,
  120812, 120822, 123200, 123632, 125264, 130032]

/-- The value of a decimal digit of any script. -/
def digitValue? (c : Nat) : Option Nat :=
  (digitZeros.find? fun z => z ≤ c && c < z + 10).map fun z => c - z

/-- The white space of Unicode 14 beyond ASCII. -/
def wideBlanks : List Nat := [
  133, 160, 5760, 8192, 8193, 8194, 8195, 8196, 8197, 8198, 8199, 8200, 8201, 8202, 8232, 8233, 8239,
  8287, 12288]

/-- The white space around a number: space, the controls from tab to carriage return, and the wide
blanks.  The information separators U+001C to U+001F do not count. -/
def isBlank (c : Nat) : Bool := c == 32 || (9 ≤ c && c ≤ 13) || wideBlanks.contains c

end Text

namespace Number

open Text

/-- The greatest number of digits of a numeral whose base is no power of two. -/
def digitLimit : Nat := 4300

/-- A text with the digits and blanks of every script written in ASCII; other code points beyond ASCII
become a question mark. -/
def plainScript (cs : Codes) : Codes :=
  if cs.all (· < 128) then cs
  else cs.map fun c =>
    if c < 127 then c
    else if isBlank c then 32
    else match digitValue? c with
      | some d => 48 + d
      | none => 63

/-- A text without the ASCII blanks around it. -/
def trimBlanks (cs : Codes) : Codes :=
  let isAsciiBlank : Nat → Bool := fun c => c == 32 || (9 ≤ c && c ≤ 13)
  ((cs.dropWhile isAsciiBlank).reverse.dropWhile isAsciiBlank).reverse

/-- Why a text is no integer. -/
inductive NumeralError
  | malformed
  | tooLong (digits : Nat)
  deriving DecidableEq

/-- The value of an ASCII digit or letter as a digit. -/
def asciiDigit? (c : Nat) : Option Nat :=
  if 48 ≤ c && c ≤ 57 then some (c - 48)
  else if 97 ≤ c && c ≤ 122 then some (c - 87)
  else if 65 ≤ c && c ≤ 90 then some (c - 55)
  else none

/-- Whether a code point is a digit in a base. -/
def isDigitIn (base c : Nat) : Bool := ((asciiDigit? c).map fun d => decide (d < base)).getD false

/-- Whether every underscore stands between two digits; `lone` says that one may not come next. -/
def underscoresSeparate : Bool → Codes → Bool
  | lone, [] => !lone
  | lone, c :: rest => if c = 95 then !lone && underscoresSeparate true rest else underscoresSeparate false rest

/-- A text without its underscores. -/
def withoutUnderscores (cs : Codes) : Codes := cs.filter (· != 95)

/-- The value of digits in a base. -/
def digitsValue (base : Nat) (cs : Codes) : Nat :=
  cs.foldl (fun n c => n * base + (asciiDigit? c).getD 0) 0

/-- The letters that may follow a zero to mark a base. -/
def baseMarks : Nat → List Nat
  | 2 => [98, 66]
  | 8 => [111, 79]
  | 16 => [120, 88]
  | _ => []

/-- Drops a base mark, and one underscore after it. -/
def dropBaseMark (base : Nat) : Codes → Codes
  | 48 :: m :: rest =>
    if (baseMarks base).contains m then (match rest with | 95 :: rest => rest | rest => rest)
    else 48 :: m :: rest
  | cs => cs

/-- The sign of a numeral, and what follows it. -/
def splitSign : Codes → Bool × Codes
  | 43 :: rest => (false, rest)
  | 45 :: rest => (true, rest)
  | cs => (false, cs)

/-- An integer in a base, written in ASCII. -/
def readAscii (base : Nat) (cs : Codes) : Except NumeralError Int :=
  let (negative, rest) := splitSign (trimBlanks cs)
  let rest := dropBaseMark base rest
  let isBody : Nat → Bool := fun c => c == 95 || isDigitIn base c
  let body := rest.takeWhile isBody
  let digits := withoutUnderscores body
  if body.isEmpty || !underscoresSeparate true body then .error .malformed
  else if (baseMarks base).isEmpty && digitLimit < digits.length then .error (.tooLong digits.length)
  else if !(rest.dropWhile isBody).isEmpty then .error .malformed
  else
    let n : Int := digitsValue base digits
    .ok (if negative then -n else n)

/-- An integer in a base, with digits of any script. -/
def readInteger (base : Nat) (cs : Codes) : Except NumeralError Int := readAscii base (plainScript cs)

/-- The wording of a refused numeral. -/
def NumeralError.message (base : Nat) (given : Codes) : NumeralError → String
  | .malformed => "invalid literal for int() with base " ++ toString base ++ ": "
      ++ String.ofList ((quoted given).toList.take 200)
  | .tooLong digits => "Exceeds the limit (4300 digits) for integer string conversion: value has "
      ++ toString digits ++ " digits; use sys.set_int_max_str_digits() to increase the limit"

/-- The decimal digits of an integer, if they are not too many. -/
def writeInteger? (n : Int) : Option String :=
  let digits := Nat.toDigits 10 n.natAbs
  if digitLimit < digits.length then none
  else some (String.ofList (if n < 0 then '-' :: digits else digits))

/-- The wording of an integer with too many digits. -/
def tooManyDigitsMessage : String :=
  "Exceeds the limit (4300 digits) for integer string conversion; "
    ++ "use sys.set_int_max_str_digits() to increase the limit"

/-- Whether a code point is an ASCII decimal digit. -/
def isDecimal (c : Nat) : Bool := 48 ≤ c && c ≤ 57

/-- The exponent at the end of a fraction: nothing, or a mark, a sign and digits. -/
def readExponent? : Codes → Option Int
  | [] => some 0
  | c :: rest =>
    if c = 101 || c = 69 then
      let (negative, digits) := splitSign rest
      if digits.isEmpty || !digits.all isDecimal then none
      else
        let n : Int := digitsValue 10 digits
        some (if negative then -n else n)
    else none

/-- The number nearest to `digits · 10 ^ exponent`; the far ends of the range are answered at once. -/
def nearestDecimal (negative : Bool) (digits : Codes) (exponent : Int) : Double :=
  let n := digitsValue 10 digits
  let place : Int := (Nat.toDigits 10 n).length + exponent
  if n = 0 || place < -330 then .zero negative
  else if 310 < place then .infinite negative
  else if 0 ≤ exponent then .nearest negative (n * Nat.pow 10 exponent.toNat) 1
  else .nearest negative n (Nat.pow 10 (-exponent).toNat)

/-- The names of numbers that have no digits. -/
def namedDouble? (negative : Bool) (cs : Codes) : Option Double :=
  let folded := cs.map fun c => if 65 ≤ c && c ≤ 90 then c + 32 else c
  if folded = codesOf "inf" || folded = codesOf "infinity" then some (.infinite negative)
  else if folded = codesOf "nan" then some .nan
  else none

/-- A decimal fraction with digits of any script. -/
def readDouble? (cs : Codes) : Option Double :=
  let (negative, rest) := splitSign (trimBlanks (plainScript cs))
  match namedDouble? negative rest with
  | some x => some x
  | none =>
    let whole := rest.takeWhile isDecimal
    let afterWhole := rest.dropWhile isDecimal
    let (fraction, tail) := match afterWhole with
      | 46 :: more => (more.takeWhile isDecimal, more.dropWhile isDecimal)
      | more => ([], more)
    if whole.isEmpty && fraction.isEmpty then none
    else (readExponent? tail).map fun e =>
      nearestDecimal negative (whole ++ fraction) (e - fraction.length)

end Number

end Outflow
