import Outflow.Basic

/-!
# UTF-8

* `encode`: a string as bytes;
* `Chunk`, `nextChunk`: what stands at the front of a byte string, a code point or a maximal
  ill-formed part with the reason;
* `decode`: all code points, or the first ill-formed part with its place;
* `decodeLossy`: every ill-formed part replaced by U+FFFD.
-/

namespace Outflow.Text.Utf8

/-- A string in UTF-8. -/
def encode (s : String) : Bytes := s.toUTF8.toList

/-- Why a part is not UTF-8. -/
inductive Reason
  | badStart
  | badContinuation
  | truncated
  deriving DecidableEq

/-- The wording of a reason. -/
def Reason.message : Reason → String
  | .badStart => "invalid start byte"
  | .badContinuation => "invalid continuation byte"
  | .truncated => "unexpected end of data"

/-- The front of a byte string: a code point in `length` bytes, or `length` bytes of an ill-formed part. -/
inductive Chunk
  | good (code : Nat) (length : Nat)
  | bad (reason : Reason) (length : Nat)

/-- Whether a byte continues a sequence. -/
def isContinuation (b : UInt8) : Bool := 0x80 ≤ b && b < 0xC0

/-- The six bits of a continuation byte. -/
def tailBits (b : UInt8) : Nat := b.toNat - 0x80

/-- The number of bytes that a first byte announces, and the range of its second byte, which keeps out
overlong forms, surrogates and numbers above U+10FFFF. -/
def announced (b : UInt8) : Option (Nat × UInt8 × UInt8) :=
  if b < 0xC2 then none
  else if b < 0xE0 then some (2, 0x80, 0xBF)
  else if b = 0xE0 then some (3, 0xA0, 0xBF)
  else if b = 0xED then some (3, 0x80, 0x9F)
  else if b < 0xF0 then some (3, 0x80, 0xBF)
  else if b = 0xF0 then some (4, 0x90, 0xBF)
  else if b < 0xF4 then some (4, 0x80, 0xBF)
  else if b = 0xF4 then some (4, 0x80, 0x8F)
  else none

/-- What stands at the front of a byte string that begins with `b`. -/
def nextChunk (b : UInt8) (rest : Bytes) : Chunk :=
  if b < 0x80 then .good b.toNat 1
  else match announced b with
    | none => .bad .badStart 1
    | some (size, lo, hi) =>
      match rest with
      | [] => .bad .truncated 1
      | b₂ :: rest₂ =>
        if !(lo ≤ b₂ && b₂ ≤ hi) then .bad .badContinuation 1
        else if size = 2 then .good ((b.toNat - 0xC0) * 64 + tailBits b₂) 2
        else match rest₂ with
          | [] => .bad .truncated 2
          | b₃ :: rest₃ =>
            if !isContinuation b₃ then .bad .badContinuation 2
            else if size = 3 then
              .good ((b.toNat - 0xE0) * 4096 + tailBits b₂ * 64 + tailBits b₃) 3
            else match rest₃ with
              | [] => .bad .truncated 3
              | b₄ :: _ =>
                if !isContinuation b₄ then .bad .badContinuation 3
                else .good ((b.toNat - 0xF0) * 262144 + tailBits b₂ * 4096 + tailBits b₃ * 64
                  + tailBits b₄) 4

/-- Why and where a byte string is not UTF-8: the reason, the place and bytes of the ill-formed part. -/
structure Malformed where
  reason : Reason
  position : Nat
  bytes : Bytes
  deriving DecidableEq

/-- Two hexadecimal digits of a byte. -/
def byteHex (b : UInt8) : String :=
  let digit : Nat → Char := fun n => if n < 10 then Char.ofNat (48 + n) else Char.ofNat (87 + n)
  String.ofList [digit (b.toNat / 16), digit (b.toNat % 16)]

/-- The wording of an ill-formed part: one byte is shown, several are given by their places. -/
def Malformed.message (m : Malformed) : String :=
  match m.bytes with
  | [b] => "'utf-8' codec can't decode byte 0x" ++ byteHex b ++ " in position " ++ toString m.position
      ++ ": " ++ m.reason.message
  | bs => "'utf-8' codec can't decode bytes in position " ++ toString m.position ++ "-"
      ++ toString (m.position + bs.length - 1) ++ ": " ++ m.reason.message

/-- Passes over `skip` bytes of a sequence already read, then reads on from place `position`. -/
def decodeFrom (position skip : Nat) : Bytes → Except Malformed Codes
  | [] => .ok []
  | b :: rest =>
    match skip with
    | skip + 1 => decodeFrom (position + 1) skip rest
    | 0 =>
      match nextChunk b rest with
      | .good code length => (decodeFrom (position + 1) (length - 1) rest).map (code :: ·)
      | .bad reason length => .error ⟨reason, position, (b :: rest).take length⟩

/-- The code points of a byte string, if it is UTF-8. -/
def decode (bs : Bytes) : Except Malformed Codes := decodeFrom 0 0 bs

/-- Passes over `skip` bytes, then reads on, with U+FFFD for every maximal ill-formed part. -/
def lossyFrom (skip : Nat) : Bytes → Codes
  | [] => []
  | b :: rest =>
    match skip with
    | skip + 1 => lossyFrom skip rest
    | 0 =>
      match nextChunk b rest with
      | .good code length => code :: lossyFrom (length - 1) rest
      | .bad _ length => 0xFFFD :: lossyFrom (length - 1) rest

/-- The code points of a byte string, with U+FFFD for every maximal ill-formed part. -/
def decodeLossy (bs : Bytes) : Codes := lossyFrom 0 bs

end Outflow.Text.Utf8
