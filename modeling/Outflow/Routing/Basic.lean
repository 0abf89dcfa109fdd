import Outflow.Number.Numeral
import Outflow.Outlet

/-!
# Routings

A routing says where the output and the error stream of a program go, and how much a pipe holds that
captures them.

* `Routing`, `Routing.Asked`: a routing, and what is asked for;
* `Routing.ofAsked`: the routing that is asked for, or the first thing that is wrong with it;
* `Routing.outlets`, `Routing.capturePipe`: what a routing gives rise to.

A routing names its destinations in lower case.  A pipe cannot be named.
-/

namespace Outflow

open Text (Codes codesOf lower quoted)

/-- Where the output and the error stream of a program go, and the capacity of a capturing pipe. -/
structure Routing where
  stdout : Destination
  stderr : Destination
  capacity : Nat
  deriving DecidableEq

namespace Routing

/-- What is asked for; the default takes the place of what is not. -/
structure Asked where
  stdout : Codes
  stderr : Codes
  capacity : Int
  deriving DecidableEq

/-- The default: each stream goes to the stream of its own name, and a pipe holds 64 kibibytes. -/
def Asked.default : Asked := ⟨codesOf "stdout", codesOf "stderr", 65536⟩

/-- What can be wrong with a routing. -/
inductive Invalid
  /-- A stream is to go to a destination that cannot be named so; the name is in lower case. -/
  | destination (stream : StreamName) (name : Codes)
  | capacity (value : Int)
  deriving DecidableEq

/-- The destinations that a routing can name, in the order of their names. -/
def nameable : List Destination := [.null, .stderr, .stdout]

/-- The names of the nameable destinations. -/
def nameableList : String :=
  "[" ++ String.intercalate ", " (nameable.map fun d => Text.quotedText d.name) ++ "]"

/-- The wording of what is wrong; a capacity of too many digits cannot even be shown. -/
def Invalid.message : Invalid → String
  | .destination stream name => "Invalid " ++ stream.name ++ " destination: " ++ quoted name
      ++ ". Expected one of " ++ nameableList ++ "."
  | .capacity value =>
    match Number.writeInteger? value with
    | some digits => "pipe_capacity=" ++ digits ++ " must be positive."
    | none => Number.tooManyDigitsMessage

/-- The destination that a stream is to go to, in any letter case. -/
def destination (stream : StreamName) (given : Codes) : Except Invalid Destination :=
  let name := lower given
  match nameable.find? fun d => codesOf d.name == name with
  | some d => .ok d
  | none => .error (.destination stream name)

/-- The capacity that is asked for. -/
def positive (capacity : Int) : Except Invalid Nat :=
  if capacity ≤ 0 then .error (.capacity capacity) else .ok capacity.toNat

/-- The routing that is asked for, or the first thing that is wrong with it. -/
def ofAsked (a : Asked) : Except Invalid Routing := do
  let out ← destination .stdout a.stdout
  let err ← destination .stderr a.stderr
  let capacity ← positive a.capacity
  return ⟨out, err, capacity⟩

/-- The outlets for the two streams, by the names of their destinations. -/
def outlets (r : Routing) : Except Destination.NameError (Outlet × Outlet) := do
  let out ← Outlet.ofName (codesOf r.stdout.name)
  let err ← Outlet.ofName (codesOf r.stderr.name)
  return (out, err)

/-- A new pipe for capturing output. -/
def capturePipe (r : Routing) : Option Pipe := Pipe.create? r.capacity

theorem destination_mem {stream : StreamName} {given : Codes} {d : Destination}
    (h : destination stream given = .ok d) : d ∈ nameable := by
  unfold destination at h
  dsimp only at h
  split at h
  · rename_i e he
    cases h
    exact List.mem_of_find?_eq_some he
  · cases h

theorem positive_eq_ok_iff {capacity : Int} {n : Nat} :
    positive capacity = .ok n ↔ 0 < n ∧ (n : Int) = capacity := by
  unfold positive
  split
  · simp only [reduceCtorEq, false_iff]
    omega
  · simp only [Except.ok.injEq]
    omega

theorem capturePipe_of_pos {r : Routing} (h : 0 < r.capacity) :
    r.capturePipe = some (.empty r.capacity) := by
  have hr : ¬ (r.capacity : Int) ≤ 0 := by omega
  rw [capturePipe, Pipe.create?, if_neg hr, Int.toNat_natCast]

end Routing

end Outflow
