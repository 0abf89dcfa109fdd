import Outflow.Basic
import Outflow.Routing.Basic
import Outflow.Yaml.Document

/-!
# Routings from a file and the environment

* `Routing.LoadError`: why no routing results, with the name of an error's class and its wording;
* `Routing.Given`: the values that are given;
* `Routing.integer?`, `Routing.capacityOf`: the capacity that a value gives;
* `Routing.load`: the routing of a file and the environment.

A variable of the environment counts before the file, and the file before the default.  A file that is no
mapping says nothing.
-/

namespace Outflow.Routing

open Text (Codes codesOf)

/-- Why a file and the environment give no routing. -/
inductive LoadError
  /-- The file is not UTF-8. -/
  | encoding (error : Text.Utf8.Malformed)
  | document (error : Yaml.Error)
  /-- The capacity is infinite. -/
  | infiniteCapacity
  /-- The capacity is no integer; the value is as it is shown. -/
  | noInteger (shown : String)
  /-- A value has too many digits to be shown. -/
  | unshowable
  | invalid (error : Invalid)
  deriving DecidableEq

/-- The class of an error, as it is reported. -/
def LoadError.label : LoadError → String
  | .encoding _ => "UnicodeDecodeError"
  | .document e => e.label
  | .infiniteCapacity => "OverflowError"
  | .noInteger _ | .unshowable | .invalid _ => "ValueError"

/-- The wording of an error. -/
def LoadError.message : LoadError → String
  | .encoding e => e.message
  | .document e => e.message
  | .infiniteCapacity => "cannot convert float infinity to integer"
  | .noInteger shown => "Invalid integer for pipe_capacity: " ++ shown ++ "."
  | .unshowable => Number.tooManyDigitsMessage
  | .invalid e => e.message

/-- The values that are given, each or none. -/
structure Given where
  stdout : Option Value
  stderr : Option Value
  capacity : Option Value

/-- The values that a document gives. -/
def Given.ofDocument (d : Yaml.Document) : Given :=
  ⟨d.field? "stdout", d.field? "stderr", d.field? "pipe_capacity"⟩

/-- The values that a file gives, if there is one. -/
def Given.ofFile : Option Bytes → Except LoadError Given
  | none => .ok ⟨none, none, none⟩
  | some bytes =>
    match Text.Utf8.decode bytes with
    | .error e => .error (.encoding e)
    | .ok text =>
      match Yaml.Document.read text with
      | .error e => .error (.document e)
      | .ok d => .ok (.ofDocument d)

/-- The values after the variables of the environment have been put in place of those given. -/
def Given.override (g : Given) (env : Environment) : Given :=
  let choose : String → Option Value → Option Value := fun name v =>
    ((env.get? name).map Value.text).or v
  ⟨choose "GHCIWATCH_STDOUT" g.stdout, choose "GHCIWATCH_STDERR" g.stderr,
    choose "GHCIWATCH_PIPE_CAPACITY" g.capacity⟩

/-- The integer that a numeral gives, if it is one. -/
def ofNumeral (r : Except Number.NumeralError Int) : Option Int :=
  match r with
  | .ok n => some n
  | .error _ => none

/-- The integer that a value gives: a number without its fraction, a truth value as zero or one, or a
numeral. -/
def integer? : Value → Option Int
  | .int n => some n
  | .bool b => some (if b then 1 else 0)
  | .double x => x.truncate?
  | .text cs => ofNumeral (Number.readInteger 10 cs)
  | .bytes bs => ofNumeral (Number.readAscii 10 (bs.map UInt8.toNat))
  | _ => none

/-- The capacity that a value gives. -/
def capacityOf (v : Value) : Except LoadError Int :=
  match v with
  | .double (.infinite _) => .error .infiniteCapacity
  | v =>
    match integer? v, v.show? with
    | some n, _ => .ok n
    | none, some shown => .error (.noInteger shown)
    | none, none => .error .unshowable

/-- The name of a destination that a value gives.  Nothing is the destination of that name. -/
def nameOf : Value → Except LoadError Codes
  | .null => .ok (codesOf "null")
  | v =>
    match v.spell? with
    | some cs => .ok cs
    | none => .error .unshowable

/-- What a value gives, if there is one, or else the default. -/
def orElse {α : Type} (v : Option Value) (read : Value → Except LoadError α) (usual : α) :
    Except LoadError α :=
  match v with
  | some v => read v
  | none => .ok usual

/-- What the values ask for.  The capacity is read first. -/
def Given.asked (g : Given) : Except LoadError Asked := do
  let usual := Asked.default
  let capacity ← orElse g.capacity capacityOf usual.capacity
  let out ← orElse g.stdout nameOf usual.stdout
  let err ← orElse g.stderr nameOf usual.stderr
  return ⟨out, err, capacity⟩

/-- The routing of a file, if there is one, and the environment. -/
def load (env : Environment) (file : Option Bytes) : Except LoadError Routing := do
  let given ← Given.ofFile file
  let asked ← (given.override env).asked
  match ofAsked asked with
  | .ok r => return r
  | .error e => .error (.invalid e)

end Outflow.Routing
