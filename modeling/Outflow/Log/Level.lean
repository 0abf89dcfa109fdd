import Outflow.Basic

/-!
# Severities and levels

* `Text.upper`: the upper-case form of a text, as far as it is ASCII;
* `Severity`: how grave a record is, with its number and name;
* `Level.ofName`: the number from which records are written, for the name of a level.

A level is named in any letter case, and a name that is no level stands for that of information.  Two
names are taken by other settings of logs and are refused.  The names are looked up in upper case and are
ASCII, so it is enough to know which code points have an upper-case form made of ASCII letters: the small
Latin letters, the sharp s, the dotless i, the long s and the Latin ligatures.  Every other code point is
kept, and keeps a text from being such a name.
-/

namespace Outflow

namespace Text

/-- The upper-case form of a code point, if that is ASCII; otherwise the code point. -/
def upperCode (c : Nat) : Codes :=
  if 97 ≤ c && c ≤ 122 then [c - 32]
  else if c = 0xDF then [83, 83]
  else if c = 0x131 then [73]
  else if c = 0x17F then [83]
  else if c = 0xFB00 then [70, 70]
  else if c = 0xFB01 then [70, 73]
  else if c = 0xFB02 then [70, 76]
  else if c = 0xFB03 then [70, 70, 73]
  else if c = 0xFB04 then [70, 70, 76]
  else if c = 0xFB05 || c = 0xFB06 then [83, 84]
  else [c]

/-- The upper-case form of a text, for comparison with names in ASCII. -/
def upper (cs : Codes) : Codes := cs.flatMap upperCode

end Text

namespace Log

open Text (Codes codesOf upper)

/-- How grave a record is. -/
inductive Severity
  | debug
  | info
  | warning
  | error
  | critical
  deriving DecidableEq

/-- The number of a severity. -/
def Severity.number : Severity → Nat
  | .debug => 10
  | .info => 20
  | .warning => 30
  | .error => 40
  | .critical => 50

/-- The name of a severity. -/
def Severity.name : Severity → String
  | .debug => "debug"
  | .info => "info"
  | .warning => "warning"
  | .error => "error"
  | .critical => "critical"

/-- The severity with a name. -/
def Severity.ofName? (s : String) : Option Severity :=
  [.debug, .info, .warning, .error, .critical].find? fun v => v.name == s

/-- Why the name of a level was refused. -/
inductive LevelError
  /-- The name of the basic line format. -/
  | lineFormat
  /-- The name of the table of format styles. -/
  | styleTable
  deriving DecidableEq

/-- The wording of a refused level. -/
def LevelError.message : LevelError → String
  | .lineFormat => "Unknown level: '%(levelname)s:%(name)s:%(message)s'"
  | .styleTable => "Level not an integer or a valid string: "
      ++ "\x7b'%': (<class 'logging.PercentStyle'>, '%(levelname)s:%(name)s:%(message)s'), "
      ++ "'\x7b': (<class 'logging.StrFormatStyle'>, '\x7blevelname\x7d:\x7bname\x7d:\x7bmessage\x7d'), "
      ++ "'$': (<class 'logging.StringTemplateStyle'>, "
      ++ "'$\x7blevelname\x7d:$\x7bname\x7d:$\x7bmessage\x7d')\x7d"

namespace Level

/-- The levels by their names in upper case. -/
def table : List (String × Nat) := [
  ("DEBUG", 10), ("INFO", 20), ("WARN", 30), ("WARNING", 30), ("ERROR", 40), ("CRITICAL", 50),
  ("FATAL", 50), ("NOTSET", 0)]

/-- The level of a name in upper case. -/
def lookup? (name : Codes) : Option Nat :=
  (table.find? fun entry => codesOf entry.1 == name).map Prod.snd

/-- The number from which records are written. -/
def ofName (name : Codes) : Except LevelError Nat :=
  let upper := upper name
  if upper = codesOf "BASIC_FORMAT" then .error .lineFormat
  else if upper = codesOf "_STYLES" then .error .styleTable
  else .ok ((lookup? upper).getD 20)

end Level

end Log

end Outflow
