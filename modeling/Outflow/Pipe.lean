import Outflow.Outcome

/-!
# Bounded byte pipes

A pipe is a buffer of at most `capacity` bytes between a write end and a read end, either of which can
be closed.  A request to one of its ends is put off until its condition holds and then served at once.

* `Pipe`, `Pipe.create?`;
* `Pipe.Request`, `Pipe.admits`: the requests and when each can be served;
* `Pipe.room`, `Pipe.take`: how many bytes fit, and removing bytes from the front;
* `Pipe.serve`: the pipe after a request, whether those who wait for it are woken, and the reply.

Writing accepts as many bytes as fit.  Reading to the end takes everything that comes until the write
end is shut down; a line ends with its newline, or where the buffer is full or the output ends.
-/

namespace Outflow

/-- A bounded buffer with the state of its two ends. -/
structure Pipe where
  buffer : Bytes
  capacity : Nat
  writeClosed : Bool
  readClosed : Bool
  deriving DecidableEq

namespace Pipe

/-- An open, empty pipe. -/
def empty (capacity : Nat) : Pipe := ⟨[], capacity, false, false⟩

/-- A new pipe, if the capacity is positive. -/
def create? (capacity : Int) : Option Pipe :=
  if capacity ≤ 0 then none else some (empty capacity.toNat)

/-- The wording of a refused capacity. -/
def capacityMessage (capacity : Int) : String :=
  "pipe capacity must be positive, got " ++ toString capacity

/-- Whether writes can no longer succeed. -/
def isClosing (p : Pipe) : Bool := p.writeClosed || p.readClosed

/-- Whether the output has ended and nothing is left to read. -/
def atEof (p : Pipe) : Bool := p.writeClosed && p.buffer.isEmpty

/-- A request to one of the ends of a pipe. -/
inductive Request
  | write (data : Bytes)
  | flush
  | shutdown
  /-- Read at least one and at most `limit` bytes. -/
  | read (limit : Nat)
  /-- Read to the end of the output, after the bytes got so far. -/
  | drain (got : Bytes)
  | readLine
  | close
  deriving DecidableEq

/-- A request to a sink as a request to the write end. -/
def Request.ofSink : Sink.Request → Request
  | .write data => .write data
  | .flush => .flush
  | .shutdown => .shutdown

/-- Whether there is something to read, or an end of the pipe is closed. -/
def readable (p : Pipe) : Bool := !p.buffer.isEmpty || p.writeClosed || p.readClosed

/-- The condition under which a request is served. -/
def admits (p : Pipe) : Request → Bool
  | .write data => p.writeClosed || p.readClosed || p.buffer.length < p.capacity || data.isEmpty
  | .read _ | .drain _ => p.readable
  | .readLine =>
    p.buffer.contains newline || p.capacity ≤ p.buffer.length || p.writeClosed || p.readClosed
  | .flush | .shutdown | .close => true

/-- The number of further bytes that fit. -/
def room (p : Pipe) : Nat := p.capacity - p.buffer.length

/-- How a request is met: put off with the request that is left, or answered. -/
inductive Reply
  | wait (again : Request)
  | done (outcome : Outcome)

/-- A pipe after a request, whether those who wait for the pipe are woken, and the reply. -/
structure Served where
  pipe : Pipe
  wakes : Bool
  reply : Reply

/-- Removes `n` bytes from the front.  Nothing is removed, and nobody is woken, once the read end is
closed or when `n` is zero. -/
def take (p : Pipe) (n : Nat) : Bytes × Pipe × Bool :=
  if p.readClosed || n = 0 then ([], p, false)
  else (p.buffer.take n, { p with buffer := p.buffer.drop n }, true)

/-- The write that an open or closed pipe makes of `data`. -/
def accept (p : Pipe) (data : Bytes) : Served :=
  if p.readClosed then ⟨p, false, .done (.error .readerClosed)⟩
  else if p.writeClosed then ⟨p, false, .done (.error .writerShutDown)⟩
  else
    let n := min data.length p.room
    ⟨{ p with buffer := p.buffer ++ data.take n }, n != 0, .done (.ok (.count n))⟩

/-- Reading to the end when something can be done: what is buffered is added to `got`.  With the read
end closed the bytes got so far count only if the output had ended too. -/
def drained (p : Pipe) (got : Bytes) : Served :=
  if p.readClosed then
    ⟨p, false, .done (.ok (.bytes (if p.atEof then got else [])))⟩
  else
    let (chunk, p', wakes) := p.take p.buffer.length
    if p.writeClosed then ⟨p', wakes, .done (.ok (.bytes (got ++ chunk)))⟩
    else ⟨p', wakes, .wait (.drain (got ++ chunk))⟩

/-- A request that the pipe admits. -/
def perform (p : Pipe) : Request → Served
  | .write data => p.accept data
  | .flush => ⟨p, false, .done (.ok .nothing)⟩
  | .shutdown => ⟨{ p with writeClosed := true }, true, .done (.ok .nothing)⟩
  | .read limit =>
    let (chunk, p', wakes) := p.take limit
    ⟨p', wakes, .done (.ok (.bytes chunk))⟩
  | .drain got => p.drained got
  | .readLine =>
    let (chunk, p', wakes) := p.take (throughNewline p.buffer)
    ⟨p', wakes, .done (.ok (.bytes chunk))⟩
  | .close => ⟨{ p with readClosed := true, buffer := [] }, true, .done (.ok .nothing)⟩

/-- The pipe meets a request: put off while it is not admitted, and performed when it is. -/
def serve (p : Pipe) (r : Request) : Served :=
  if p.admits r then p.perform r else ⟨p, false, .wait r⟩

theorem serve_of_admits {p : Pipe} {r : Request} (h : p.admits r = true) :
    p.serve r = p.perform r := by simp [serve, h]

theorem serve_of_not_admits {p : Pipe} {r : Request} (h : p.admits r = false) :
    p.serve r = ⟨p, false, .wait r⟩ := by simp [serve, h]

/-- The word for a flag in descriptions. -/
def flagWord (b : Bool) : String := if b then "True" else "False"

/-- The state of a pipe in words. -/
def describe (p : Pipe) : String :=
  "_PipeState(buffered=" ++ toString p.buffer.length ++ ", capacity=" ++ toString p.capacity
    ++ ", write_closed=" ++ flagWord p.writeClosed ++ ", read_closed=" ++ flagWord p.readClosed ++ ")"

end Pipe

end Outflow
