/-!
# Binary floating point

Numbers of 53 significant bits with exponents from -1074, the infinities, and one not-a-number, in
exact integer arithmetic.

* `Double`: `mantissa · 2 ^ exponent` with a sign, so that both zeros are kept apart;
* `Double.nearest`: the number nearest to a quotient, a tie going to the even mantissa;
* `Double.neg`, `add`, `mul`, `ofNat`, `truncate?`;
* `Double.sameNumber`: equality as numbers, which a not-a-number has with nothing.
-/

namespace Outflow

/-- A number with 53 significant bits. -/
inductive Double
  | finite (negative : Bool) (mantissa : Nat) (exponent : Int)
  | infinite (negative : Bool)
  | nan
  deriving DecidableEq

namespace Double

/-- The least exponent. -/
def leastExponent : Int := -1074

/-- The largest exponent of a finite number. -/
def greatestExponent : Int := 971

/-- Zero with a sign. -/
def zero (negative : Bool) : Double := .finite negative 0 leastExponent

/-- The quotient rounded to an integer, a half going to the even one. -/
def roundDiv (num den : Nat) : Nat :=
  let q := num / den
  let twice := 2 * (num % den)
  if twice < den then q else if den < twice then q + 1 else q + q % 2

/-- The quotient of `num / den` and `2 ^ e`, rounded. -/
def scaled (num den : Nat) (e : Int) : Nat :=
  if 0 ≤ e then roundDiv num (den <<< e.toNat) else roundDiv (num <<< (-e).toNat) den

/-- The exponent that gives a positive quotient 53 significant bits, or the least one. -/
def fittingExponent (num den : Nat) : Int :=
  let e : Int := (num.log2 : Int) - (den.log2 : Int) - 52
  -- The quotient is at least `2 ^ (e + 51)` and below `2 ^ (e + 53)`.
  let small : Bool :=
    if 0 ≤ e + 52 then num < den <<< (e + 52).toNat else num <<< (-(e + 52)).toNat < den
  max leastExponent (if small then e - 1 else e)

/-- The number nearest to `num / den`, with a sign. -/
def nearest (negative : Bool) (num den : Nat) : Double :=
  if num = 0 then zero negative
  else
    let e := fittingExponent num den
    let m := scaled num den e
    let (m, e) := if m = 1 <<< 53 then (1 <<< 52, e + 1) else (m, e)
    if e > greatestExponent then .infinite negative
    else if m = 0 then zero negative
    else .finite negative m e

/-- The number nearest to a natural number. -/
def ofNat (n : Nat) : Double := nearest false n 1

/-- The number of the opposite sign. -/
def neg : Double → Double
  | .finite s m e => .finite (!s) m e
  | .infinite s => .infinite (!s)
  | .nan => .nan

/-- The number `m · 2 ^ e` as a multiple of `2 ^ least`, for `least ≤ e`. -/
def aligned (negative : Bool) (m : Nat) (e least : Int) : Int :=
  let n : Int := m <<< (e - least).toNat
  if negative then -n else n

/-- The number nearest to `n · 2 ^ e`. -/
def ofAligned (n : Int) (e : Int) : Double :=
  if 0 ≤ e then nearest (n < 0) (n.natAbs <<< e.toNat) 1 else nearest (n < 0) n.natAbs (1 <<< (-e).toNat)

/-- The sum, rounded; a zero sum is negative only if both numbers are. -/
def add : Double → Double → Double
  | .nan, _ | _, .nan => .nan
  | .infinite s, .infinite t => if s = t then .infinite s else .nan
  | .infinite s, _ | _, .infinite s => .infinite s
  | .finite s m e, .finite t n f =>
    let least := min e f
    let sum := aligned s m e least + aligned t n f least
    if sum = 0 then zero (s && t) else ofAligned sum least

/-- The product, rounded. -/
def mul : Double → Double → Double
  | .nan, _ | _, .nan => .nan
  | .infinite s, .infinite t => .infinite (s != t)
  | .infinite s, .finite t n _ | .finite t n _, .infinite s =>
    if n = 0 then .nan else .infinite (s != t)
  | .finite s m e, .finite t n f =>
    let sign := s != t
    if m * n = 0 then zero sign
    else if 0 ≤ e + f then nearest sign ((m * n) <<< (e + f).toNat) 1
    else nearest sign (m * n) (1 <<< (-(e + f)).toNat)

/-- The integer part of a finite number. -/
def truncate? : Double → Option Int
  | .finite s m e =>
    let n : Nat := if 0 ≤ e then m <<< e.toNat else m >>> (-e).toNat
    some (if s then -(n : Int) else n)
  | _ => none

/-- The value of a finite number over `2 ^ 1074`. -/
def units? : Double → Option Int
  | .finite s m e => some (aligned s m e leastExponent)
  | _ => none

/-- Whether two numbers are equal as numbers. -/
def sameNumber : Double → Double → Bool
  | .nan, _ | _, .nan => false
  | .infinite s, .infinite t => s == t
  | x, y => match x.units?, y.units? with
    | some a, some b => a == b
    | _, _ => false

/-- Whether a number equals an integer. -/
def sameInteger (x : Double) (n : Int) : Bool :=
  match x.units? with
  | some a => a == aligned (n < 0) n.natAbs 0 leastExponent
  | none => false

end Double

end Outflow
