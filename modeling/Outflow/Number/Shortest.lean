import Outflow.Number.Double

/-!
# Shortest decimals

The decimal of fewest digits that reads back as a given number, and of those the nearest.

* `Interval`, `Double.interval`: the reals that round to a number;
* `candidates`: the two neighbours of a number on the grid of decimals with a given last place;
* `shortest`: the first grid, from coarse to fine, with a neighbour in the interval.

If any point of a grid lies in the interval, so does one of the two neighbours.
-/

namespace Outflow.Number

/-- The decimal `digits · 10 ^ exponent`. -/
structure Decimal where
  digits : Nat
  exponent : Int
  deriving DecidableEq

/-- The reals between `low / unit` and `high / unit` around `mid / unit`; the ends belong to it when
`closed`. -/
structure Interval where
  low : Nat
  mid : Nat
  high : Nat
  unit : Nat
  closed : Bool

/-- The reals that round to `m · 2 ^ e`.  Below a power of two the numbers lie twice as close. -/
def interval (m : Nat) (e : Int) : Interval :=
  let low := if m = 1 <<< 52 && e ≠ Double.leastExponent then 4 * m - 1 else 4 * m - 2
  let shift : Int := e - 2
  if 0 ≤ shift then
    ⟨low <<< shift.toNat, (4 * m) <<< shift.toNat, (4 * m + 2) <<< shift.toNat, 1, m % 2 = 0⟩
  else ⟨low, 4 * m, 4 * m + 2, 1 <<< (-shift).toNat, m % 2 = 0⟩

/-- The quotient of `n / unit` and `10 ^ k` as a numerator and a denominator. -/
def scaledBy (n unit : Nat) (k : Int) : Nat × Nat :=
  if 0 ≤ k then (n, unit * Nat.pow 10 k.toNat) else (n * Nat.pow 10 (-k).toNat, unit)

/-- Whether `c · 10 ^ k` lies in the interval. -/
def Interval.holds (i : Interval) (c : Nat) (k : Int) : Bool :=
  let (num, den) := scaledBy 1 1 (-k)
  -- `c · num / den` against `low / unit` and `high / unit`
  let x := c * num * i.unit
  let lo := i.low * den
  let hi := i.high * den
  if i.closed then lo ≤ x && x ≤ hi else lo < x && x < hi

/-- The number of decimal digits of a positive number. -/
def digitCount (n : Nat) : Nat := (Nat.toDigits 10 n).length

/-- The place of the first digit of `num / den`: `10 ^ e ≤ num / den < 10 ^ (e + 1)`. -/
def leadingPlace (num den : Nat) : Int :=
  let e : Int := (digitCount num : Int) - (digitCount den : Int)
  let (a, b) := scaledBy num den e
  if b ≤ a then e else e - 1

/-- The neighbour in the interval of the number on the grid `10 ^ k`; of two the nearer, of two
equally near the even one. -/
def candidate? (i : Interval) (k : Int) : Option Nat :=
  let (num, den) := scaledBy i.mid i.unit k
  let c := num / den
  match i.holds c k, i.holds (c + 1) k with
  | false, false => none
  | true, false => some c
  | false, true => some (c + 1)
  | true, true =>
    let twice := 2 * (num % den)
    if twice < den then some c else if den < twice then some (c + 1) else some (c + c % 2)

/-- Tries grids of `fuel` places from `10 ^ k` to ever finer ones. -/
def searchGrids (i : Interval) (k : Int) : Nat → Option Decimal
  | 0 => none
  | fuel + 1 =>
    match candidate? i k with
    | some c => some ⟨c, k⟩
    | none => searchGrids i (k - 1) fuel

/-- The shortest decimal that reads back as `m · 2 ^ e`; seventeen digits are always enough. -/
def shortest (m : Nat) (e : Int) : Decimal :=
  let i := interval m e
  (searchGrids i (leadingPlace i.mid i.unit) 17).getD ⟨0, 0⟩

/-- The digits of a decimal without zeros at its end, and the place of the first of them. -/
def Decimal.scientific (d : Decimal) : List Char × Int :=
  let digits := Nat.toDigits 10 d.digits
  let kept := (digits.reverse.dropWhile (· == '0')).reverse
  (if kept.isEmpty then ['0'] else kept, d.exponent + digits.length - 1)

/-- How the text of a number is laid out. -/
structure Layout where
  /-- The places of the first digit that are written without an exponent. -/
  leastPositional : Int
  greatestPositional : Int
  /-- The least number of digits of an exponent. -/
  exponentDigits : Nat

/-- Without an exponent from 0.0001 to below 10 ^ 16, and with two digits of exponent beyond. -/
def Layout.standard : Layout := ⟨-4, 15, 2⟩

/-- Zeros before a number up to a width. -/
def padded (width n : Nat) : List Char :=
  let digits := Nat.toDigits 10 n
  List.replicate (width - digits.length) '0' ++ digits

/-- Digits with a point after the first `whole` of them, and at least one digit on either side. -/
def positional (digits : List Char) (place : Int) : List Char :=
  if place < 0 then
    ['0', '.'] ++ List.replicate (-place - 1).toNat '0' ++ digits
  else
    let whole := place.toNat + 1
    let fraction := digits.drop whole
    digits.take whole ++ List.replicate (whole - digits.length) '0' ++ ['.']
      ++ (if fraction.isEmpty then ['0'] else fraction)

/-- Digits with a point after the first of them, and an exponent. -/
def withExponent (l : Layout) (digits : List Char) (place : Int) : List Char :=
  let tail := digits.drop 1
  digits.take 1 ++ (if tail.isEmpty then [] else '.' :: tail)
    ++ ['e', if place < 0 then '-' else '+'] ++ padded l.exponentDigits place.natAbs

/-- The text of a positive decimal. -/
def Layout.write (l : Layout) (d : Decimal) : List Char :=
  let (digits, place) := d.scientific
  if l.leastPositional ≤ place && place ≤ l.greatestPositional then positional digits place
  else withExponent l digits place

end Outflow.Number

namespace Outflow

/-- The text of a number: the fewest digits that read back. -/
def Double.text : Double → String
  | .nan => "nan"
  | .infinite s => if s then "-inf" else "inf"
  | .finite s m e =>
    let digits := if m = 0 then ['0', '.', '0'] else Number.Layout.standard.write (Number.shortest m e)
    String.ofList (if s then '-' :: digits else digits)

end Outflow
