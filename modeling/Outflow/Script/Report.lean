import Outflow.Script.Step

/-!
# Reports on a script

* `Script.Failure`: how a step can fail;
* `Script.Result`: what a step returns;
* `Script.Report`: the result of a step, and how everything stands after it.
-/

namespace Outflow.Script

/-- How a step can fail. -/
inductive Failure
  | unknownMember (name : String)
  /-- A member, or a value of another kind, lacks what was asked of it. -/
  | lacks (kind part : String)
  | capacity (value : Int)
  /-- An outlet for nothing was given a backing, or any other one was given none. -/
  | backing (destination given : String)
  | streamName (given : String)
  | destinationName (error : Destination.NameError)
  | routing (error : Routing.Invalid)
  | setup (error : Log.SetupError)
  | fault (f : Fault)
  deriving DecidableEq

/-- The wording of a failure. -/
def Failure.message : Failure → String
  | .unknownMember name => Text.quotedText name
  | .lacks kind part => "'" ++ kind ++ "' object has no attribute '" ++ part ++ "'"
  | .capacity value => Pipe.capacityMessage value
  | .backing destination given => destination ++ " writer can't hold backend " ++ given
  | .streamName given => StreamName.unknownMessage given
  | .destinationName e => e.message
  | .routing e => e.message
  | .setup e => e.message
  | .fault f => f.message

/-- What a step returns. -/
inductive Result
  | nothing
  | flag (value : Bool)
  | words (text : String)
  /-- A clone, and whether it shares the backing. -/
  | cloned (words : String) (sharesBacking : Bool)
  /-- Whether the journal had been turned on already, and whether it is on. -/
  | configured (already now : Bool)
  | streams (out err : List Stream)
  | handlers (count : Nat) (own : Option String)
  /-- Every log file by its path from the root, with its text. -/
  | files (listing : List (Text.Codes × String))

/-- What is known after a step. -/
structure Report where
  result : Except Failure Result
  /-- The tasks that ended since the last report, in the order in which they ended. -/
  ended : List (String × Outcome)
  /-- The notices since the last report. -/
  notices : List Notice
  /-- The unfinished tasks, in the order in which they were made. -/
  pending : List String
  /-- All pipes. -/
  pipes : List (String × Pipe)
  /-- The outlets and gates that are held. -/
  locked : List String

end Outflow.Script
