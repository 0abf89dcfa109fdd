import Outflow.Yaml.Character
import Outflow.Yaml.Error

/-!
# Points in time as they are written

* `Stamp`: a day, and perhaps a time with a fraction of a second and a zone;
* `Stamp.read?`: a text as a point in time;
* `Stamp.value`: the date or moment that is meant, if there is one.
-/

namespace Outflow.Yaml

open Text (Codes)

/-- A zone: universal time, or an offset in hours and minutes. -/
inductive Zone
  | universal
  | offset (west : Bool) (hours minutes : Nat)

/-- A time of day; the fraction of the second is given by its digits. -/
structure Clock where
  hour : Nat
  minute : Nat
  second : Nat
  fraction : Codes
  zone : Option Zone

/-- A point in time. -/
structure Stamp where
  year : Nat
  month : Nat
  day : Nat
  clock : Option Clock
  /-- Whether month and day have two digits. -/
  padded : Bool

namespace Stamp

/-- The value of decimal digits. -/
def number (digits : Codes) : Nat := Number.digitsValue 10 digits

/-- As many digits as there are, up to `most`, but no fewer than `least`. -/
def digits? (least most : Nat) (cs : Codes) : Option (Codes × Codes) :=
  let run := (cs.takeWhile isDigit).take most
  if run.length < least then none else some (run, cs.drop run.length)

/-- A character, and what follows it. -/
def mark? (x : Char) : Codes → Option Codes
  | [] => none
  | c :: rest => if isChar x c then some rest else none

/-- The minutes of an offset after a colon, if there is one. -/
def zoneMinutes? (cs : Codes) : Option (Nat × Codes) :=
  match mark? ':' cs with
  | none => some (0, cs)
  | some rest => (digits? 2 2 rest).map fun (m, rest) => (number m, rest)

/-- The zone at the end, if there is one, after spacing. -/
def zone? (cs : Codes) : Option (Option Zone) :=
  if cs.isEmpty then some none
  else match cs.dropWhile isSpacing with
    | [] => none
    | c :: rest =>
      if isChar 'Z' c then (if rest.isEmpty then some (some .universal) else none)
      else if isOneOf "+-" c then do
        let (h, rest) ← digits? 1 2 rest
        let (m, rest) ← zoneMinutes? rest
        if rest.isEmpty then some (some (.offset (isChar '-' c) (number h) m)) else none
      else none

/-- The fraction of a second, after its point. -/
def fraction (cs : Codes) : Codes × Codes :=
  match mark? '.' cs with
  | none => ([], cs)
  | some rest => (rest.takeWhile isDigit, rest.dropWhile isDigit)

/-- What stands between day and time: a letter or spacing. -/
def separator? : Codes → Option Codes
  | [] => none
  | c :: rest =>
    if isOneOf "Tt" c then some rest
    else if isSpacing c then some (rest.dropWhile isSpacing)
    else none

/-- The time after the day, to the end. -/
def clock? (cs : Codes) : Option Clock := do
  let rest ← separator? cs
  let (h, rest) ← digits? 1 2 rest
  let rest ← mark? ':' rest
  let (m, rest) ← digits? 2 2 rest
  let rest ← mark? ':' rest
  let (s, rest) ← digits? 2 2 rest
  let (f, rest) := fraction rest
  let zone ← zone? rest
  return ⟨number h, number m, number s, f, zone⟩

/-- A text as a point in time. -/
def read? (cs : Codes) : Option Stamp := do
  let (y, rest) ← digits? 4 4 cs
  let rest ← mark? '-' rest
  let (m, rest) ← digits? 1 2 rest
  let rest ← mark? '-' rest
  let (d, rest) ← digits? 1 2 rest
  let padded := m.length == 2 && d.length == 2
  if rest.isEmpty then return ⟨number y, number m, number d, none, padded⟩
  let clock ← clock? rest
  return ⟨number y, number m, number d, some clock, padded⟩

/-- The first six digits of a fraction as microseconds. -/
def microseconds (fraction : Codes) : Nat :=
  number (fraction.take 6) * Nat.pow 10 (6 - (fraction.take 6).length)

/-- The seconds of a zone east of universal time. -/
def Zone.seconds : Zone → Int
  | .universal => 0
  | .offset west hours minutes =>
    let n : Int := hours * 3600 + minutes * 60
    if west then -n else n

/-- The date or moment that is meant. -/
def value (s : Stamp) : Except Error Value :=
  match s.clock with
  | none =>
    match Calendar.Date.create? s.year s.month s.day with
    | .ok d => .ok (.date d)
    | .error e => .error (.calendar e)
  | some c =>
    match Calendar.Moment.create? s.year s.month s.day c.hour c.minute c.second
        (microseconds c.fraction) (c.zone.map Zone.seconds) with
    | .ok m => .ok (.moment m)
    | .error e => .error (.calendar e)

end Stamp

end Outflow.Yaml
