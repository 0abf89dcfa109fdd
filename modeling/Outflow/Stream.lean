import Outflow.Outcome
import Outflow.Text.Utf8

/-!
# Process streams

A process stream has three layers: `text` held back as characters, `buffered` bytes, and the `sink`
that bytes finally reach.  A stream without a byte layer keeps everything as text.  A stream may take
only a few bytes at a time, hide how many it took, or fail at any of its layers.

* `Stream.Traits`, `Stream`: how a stream behaves, and its layers with the calls made on it;
* `Stream.Traits.portion`: what one byte write takes;
* `Stream.writeText`, `flushText`, `writeBytes`, `flushBytes`: the four primitive calls;
* `Stream.perform`: a request to the stream as a byte sink;
* `Stream.output`: everything written, in order.

Bytes go below text that is still held back, so the text is flushed before any byte is written.
-/

namespace Outflow

open Text

/-- How bytes are read as characters. -/
inductive Encoding
  | ascii
  | latin1
  | utf8
  deriving DecidableEq

/-- Reads bytes as characters, with U+FFFD for what cannot be read. -/
def Encoding.read : Encoding → Bytes → Codes
  | .ascii, bs => bs.map fun b => if b < 0x80 then b.toNat else 0xFFFD
  | .latin1, bs => bs.map UInt8.toNat
  | .utf8, bs => Utf8.decodeLossy bs

namespace Stream

/-- How a process stream behaves. -/
structure Traits where
  /-- The stream has no byte layer. -/
  textOnly : Bool
  /-- How a stream without a byte layer reads bytes, if it says so. -/
  encoding : Option Encoding
  /-- The most bytes that one write takes, if there is a limit. -/
  accept : Option Nat
  /-- A byte write does not say how much it took.  It may have taken everything, or some of it, or, as one
  that would have to wait, nothing. -/
  silent : Bool
  /-- The fault of a byte write after `writeFaultAfter` successful ones, or of every text write on a
  stream without a byte layer. -/
  writeFault : Option Fault
  writeFaultAfter : Nat
  flushFault : Option Fault
  flushBytesFault : Option Fault

/-- A stream that takes everything and never fails. -/
def Traits.plain : Traits := ⟨false, none, none, false, none, 0, none, none⟩

/-- What one byte write takes of some bytes. -/
def Traits.portion (t : Traits) (data : Bytes) : Bytes :=
  match t.accept with
  | some k => data.take k
  | none => data

/-- A primitive call on a stream. -/
inductive Call
  | writeText (characters : Nat)
  | flushText
  | writeBytes (offered : Nat)
  | flushBytes
  deriving DecidableEq

/-- The wording of a call. -/
def Call.describe : Call → String
  | .writeText n => "write " ++ toString n
  | .flushText => "flush"
  | .writeBytes n => "buffer.write " ++ toString n
  | .flushBytes => "buffer.flush"

end Stream

/-- A process stream: its behaviour, its three layers, the byte writes that succeeded, and the calls
made on it so far. -/
structure Stream where
  traits : Stream.Traits
  text : String
  buffered : Bytes
  sink : Bytes
  writes : Nat
  calls : List Stream.Call

namespace Stream

/-- A stream on which nothing was written. -/
def fresh (traits : Traits) : Stream := ⟨traits, "", [], [], 0, []⟩

/-- Everything written to the stream, in order. -/
def output (s : Stream) : Bytes := s.sink ++ s.buffered ++ Utf8.encode s.text

/-- Records a call. -/
def record (s : Stream) (c : Call) : Stream := { s with calls := s.calls ++ [c] }

/-- Writes characters to the text layer. -/
def writeText (s : Stream) (text : String) : Stream × Except Fault Unit :=
  let s := s.record (.writeText text.length)
  match s.traits.textOnly, s.traits.writeFault with
  | true, some f => (s, .error f)
  | _, _ => ({ s with text := s.text ++ text }, .ok ())

/-- Hands the text layer on to the byte layer, if there is one. -/
def flushText (s : Stream) : Stream × Except Fault Unit :=
  let s := s.record .flushText
  match s.traits.flushFault with
  | some f => (s, .error f)
  | none =>
    if s.traits.textOnly then (s, .ok ())
    else ({ s with text := "", buffered := s.buffered ++ Utf8.encode s.text }, .ok ())

/-- Writes bytes to the byte layer; the result is the number taken, if the stream tells it. -/
def writeBytes (s : Stream) (data : Bytes) : Stream × Except Fault (Option Nat) :=
  let s := s.record (.writeBytes data.length)
  match s.traits.writeFault, decide (s.traits.writeFaultAfter ≤ s.writes) with
  | some f, true => (s, .error f)
  | _, _ =>
    let portion := s.traits.portion data
    ({ s with buffered := s.buffered ++ portion, writes := s.writes + 1 },
      .ok (if s.traits.silent then none else some portion.length))

/-- Hands the byte layer on to the sink. -/
def flushBytes (s : Stream) : Stream × Except Fault Unit :=
  let s := s.record .flushBytes
  match s.traits.flushBytesFault with
  | some f => (s, .error f)
  | none => ({ s with buffered := [], sink := s.sink ++ s.buffered }, .ok ())

/-- Writes bytes as characters to a stream without a byte layer; it takes them all. -/
def writeAsText (s : Stream) (data : Bytes) : Stream × Outcome :=
  let encoding := s.traits.encoding.getD .utf8
  match s.writeText (Codes.toText (encoding.read data)) with
  | (s, .error f) => (s, .error f)
  | (s, .ok ()) => (s, .ok (.count data.length))

/-- Writes bytes below the text that is held back.  A write that does not say how much it took counts as one
that took everything. -/
def writeBelowText (s : Stream) (data : Bytes) : Stream × Outcome :=
  match s.flushText with
  | (s, .error f) => (s, .error f)
  | (s, .ok ()) =>
    match s.writeBytes data with
    | (s, .error f) => (s, .error f)
    | (s, .ok (some n)) => (s, .ok (.count n))
    | (s, .ok none) => (s, .ok (.count data.length))

/-- Hands on all that the layers hold back. -/
def flush (s : Stream) : Stream × Outcome :=
  match s.flushText with
  | (s, .error f) => (s, .error f)
  | (s, .ok ()) =>
    if s.traits.textOnly then (s, .ok .nothing)
    else match s.flushBytes with
      | (s, .error f) => (s, .error f)
      | (s, .ok ()) => (s, .ok .nothing)

/-- A request to the stream as a byte sink.  Nothing is done for an empty write, and the stream
outlives its users: ending the output only flushes. -/
def perform (s : Stream) : Sink.Request → Stream × Outcome
  | .write [] => (s, .ok (.count 0))
  | .write data => if s.traits.textOnly then s.writeAsText data else s.writeBelowText data
  | .flush | .shutdown => s.flush

end Stream

end Outflow
