import Outflow.Calendar.Date

/-!
# Times of day

* `Moment`: a day with a time, and the offset from universal time if it is known;
* `Moment.create?`: the moment with these numbers, or the first that is out of range;
* `Moment.text`, `Moment.same`: the text with a blank between day and time, and equality of instants.
-/

namespace Outflow.Calendar

/-- A day with a time; the offset from universal time is in seconds. -/
structure Moment where
  date : Date
  hour : Nat
  minute : Nat
  second : Nat
  microsecond : Nat
  offset : Option Int
  deriving DecidableEq

/-- The moment with these numbers.  The offset is judged before the date and the time. -/
def Moment.create? (year month day hour minute second microsecond : Nat) (offset : Option Int) :
    Except RangeError Moment :=
  match offset with
  | some o => if 86400 ≤ o.natAbs then .error (.offset o) else build
  | none => build
where
  /-- The moment, once the offset is accepted. -/
  build : Except RangeError Moment :=
    match Date.create? year month day with
    | .error e => .error e
    | .ok d =>
      if 23 < hour then .error .hour
      else if 59 < minute then .error .minute
      else if 59 < second then .error .second
      else .ok ⟨d, hour, minute, second, microsecond, offset⟩

/-- An offset with its sign. -/
def offsetText (seconds : Int) : String :=
  let n := seconds.natAbs
  (if seconds < 0 then "-" else "+") ++ zeroPadded 2 (n / 3600) ++ ":" ++ zeroPadded 2 (n / 60 % 60)
    ++ (if n % 60 = 0 then "" else ":" ++ zeroPadded 2 (n % 60))

/-- The day, a blank and the time, with microseconds and the offset where there are any. -/
def Moment.text (m : Moment) : String :=
  m.date.text ++ " " ++ zeroPadded 2 m.hour ++ ":" ++ zeroPadded 2 m.minute ++ ":"
    ++ zeroPadded 2 m.second
    ++ (if m.microsecond = 0 then "" else "." ++ zeroPadded 6 m.microsecond)
    ++ (m.offset.map offsetText).getD ""

/-- The microseconds from the first day of year 1, by the clock that shows the moment. -/
def Moment.clock (m : Moment) : Int :=
  (((m.date.ordinal * 24 + m.hour) * 60 + m.minute) * 60 + m.second) * 1000000 + m.microsecond

/-- Whether two moments are the same instant; a moment without an offset is none with one. -/
def Moment.same (a b : Moment) : Bool :=
  match a.offset, b.offset with
  | none, none => a.clock == b.clock
  | some x, some y => a.clock - x * 1000000 == b.clock - y * 1000000
  | _, _ => false

end Outflow.Calendar
