import Outflow.Calendar.Moment
import Outflow.Number.Numeral
import Outflow.Value

/-!
# Errors of documents

* `Yaml.Error`: why a document has no value;
* `Yaml.Error.label`, `Yaml.Error.message`: the name of an error's class and its wording.

All ways not to be a document are one error.  The other errors are those of scalars that say what they
are and are not: a number without digits, a day that does not exist.
-/

namespace Outflow.Yaml

open Text (Codes quoted)

/-- Why a document has no value. -/
inductive Error
  /-- The text is no document, or has parts that make no value together. -/
  | malformed
  /-- An escape by a number that is no code point. -/
  | code (number : Nat)
  /-- A text is no integer in a base. -/
  | numeral (base : Nat) (given : Codes) (reason : Number.NumeralError)
  /-- A text is no decimal fraction. -/
  | fraction (given : Codes)
  /-- A number in base 60 has so many places that one of them is beyond every double. -/
  | placeTooLarge
  /-- A number is empty. -/
  | emptyNumber
  /-- A text is no truth value; it is given in lower case. -/
  | truth (given : Codes)
  /-- There is no such day or time of day. -/
  | calendar (reason : Calendar.RangeError)
  /-- A text is no point in time. -/
  | noMoment
  /-- A point in time is no text at all. -/
  | momentOfEntries
  deriving DecidableEq

/-- The greatest number that an escape may give and still be refused as a code point. -/
def greatestEscape : Nat := 0x7FFFFFFF

/-- The wording of numbers that make no date or time. -/
def calendarMessage : Calendar.RangeError → String
  | .year given => "year " ++ toString given ++ " is out of range"
  | .month => "month must be in 1..12"
  | .day => "day is out of range for month"
  | .hour => "hour must be in 0..23"
  | .minute => "minute must be in 0..59"
  | .second => "second must be in 0..59"
  | .offset seconds =>
    "offset must be a timedelta strictly between -timedelta(hours=24) and timedelta(hours=24), not "
      ++ Value.showSpan seconds ++ "."

/-- The class of an error, as it is reported. -/
def Error.label : Error → String
  | .malformed => "YAMLError"
  | .code n => if n ≤ greatestEscape then "ValueError" else "OverflowError"
  | .placeTooLarge => "OverflowError"
  | .emptyNumber => "IndexError"
  | .truth _ => "KeyError"
  | .noMoment => "AttributeError"
  | .momentOfEntries => "TypeError"
  | .numeral .. | .fraction _ | .calendar _ => "ValueError"

/-- The wording of an error; a malformed document has none. -/
def Error.message : Error → String
  | .malformed => ""
  | .code n => if n ≤ greatestEscape then "chr() arg not in range(0x110000)"
    else "Python int too large to convert to C int"
  | .numeral base given reason => reason.message base given
  | .fraction given => "could not convert string to float: " ++ quoted given
  | .placeTooLarge => "int too large to convert to float"
  | .emptyNumber => "string index out of range"
  | .truth given => quoted given
  | .calendar reason => calendarMessage reason
  | .noMoment => "'NoneType' object has no attribute 'groupdict'"
  | .momentOfEntries => "expected string or bytes-like object, got 'list'"

end Outflow.Yaml
