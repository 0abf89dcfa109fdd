import Outflow.Text.Quoted

/-!
# Requests and outcomes

Pipes, process streams and outlets are all asked for the same three things, and a call on any of them
returns an answer or fails.

* `Sink.Request`: write some bytes, hand on what is held back, end the output;
* `Sink.Request.verb`: the name of a request in events;
* `Fault`: the ways in which a call can fail;
* `Fault.isSystem`: the faults that count as failures of the system and are reported as events;
* `Fault.label`, `Fault.message`: the name of a fault's class and its wording;
* `Answer`, `Outcome`: what a call returns.
-/

namespace Outflow

open Text (Codes quoted)

namespace Sink

/-- A request to a byte sink. -/
inductive Request
  | write (data : Bytes)
  | flush
  | shutdown
  deriving DecidableEq

/-- The name of a request. -/
def Request.verb : Request → String
  | .write _ => "write"
  | .flush => "flush"
  | .shutdown => "shutdown"

end Sink

/-- A way to fail. -/
inductive Fault
  /-- A write on a pipe whose read end is closed. -/
  | readerClosed
  /-- A write on a pipe whose write end was shut down. -/
  | writerShutDown
  /-- A system error of a process stream: its class, its number if it has one, and its text. -/
  | system (label : String) (number : Option Int) (text : String)
  /-- A process stream refuses to work at all. -/
  | unusable (text : String)
  /-- An outlet took none of the bytes that were left. -/
  | stalled (destination : String) (left : Nat)
  /-- An outlet whose destination is none of the known ones. -/
  | unhandled (destination : Codes)
  /-- No line is left. -/
  | endOfLines
  /-- The call was cancelled. -/
  | cancelled
  deriving DecidableEq

/-- Whether a fault is a failure of the system. -/
def Fault.isSystem : Fault → Bool
  | .readerClosed | .writerShutDown | .system .. | .stalled .. => true
  | _ => false

/-- The class of a system error that is made with a number and no class of its own. -/
def systemLabel : Int → String
  | 1 => "PermissionError"
  | 2 => "FileNotFoundError"
  | 3 => "ProcessLookupError"
  | 4 => "InterruptedError"
  | 10 => "ChildProcessError"
  | 11 => "BlockingIOError"
  | 13 => "PermissionError"
  | 17 => "FileExistsError"
  | 20 => "NotADirectoryError"
  | 21 => "IsADirectoryError"
  | 32 => "BrokenPipeError"
  | 103 => "ConnectionAbortedError"
  | 104 => "ConnectionResetError"
  | 108 => "BrokenPipeError"
  | 110 => "TimeoutError"
  | 111 => "ConnectionRefusedError"
  | 114 => "BlockingIOError"
  | 115 => "BlockingIOError"
  | _ => "OSError"

/-- A system error with a number, of the class that the number has. -/
def Fault.ofNumber (n : Int) (text : String) : Fault := .system (systemLabel n) (some n) text

/-- The class of a fault, as events and reports name it. -/
def Fault.label : Fault → String
  | .readerClosed | .writerShutDown => "BrokenPipeError"
  | .system label _ _ => label
  | .stalled .. => "OSError"
  | .unusable _ => "ValueError"
  | .unhandled _ => "AssertionError"
  | .endOfLines => "StopAsyncIteration"
  | .cancelled => "CancelledError"

/-- The wording of a fault. -/
def Fault.message : Fault → String
  | .readerClosed => "pipe reader is closed"
  | .writerShutDown => "write after pipe shutdown"
  | .system _ (some n) text => "[Errno " ++ toString n ++ "] " ++ text
  | .system _ none text => text
  | .unusable text => text
  | .stalled destination left =>
    destination ++ " writer accepted 0 of " ++ toString left ++ " bytes"
  | .unhandled destination => "unhandled writer kind: " ++ quoted destination
  | .endOfLines | .cancelled => ""

/-- What a call returns when it does not fail. -/
inductive Answer
  | nothing
  | flag (value : Bool)
  | count (value : Nat)
  | bytes (value : Bytes)
  | lines (value : List Bytes)
  deriving DecidableEq

/-- How a call ends. -/
abbrev Outcome := Except Fault Answer

end Outflow
