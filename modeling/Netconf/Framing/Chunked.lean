import Netconf.Framing.Basic

/-! Messages cut into chunks. Each chunk is a line feed, a number sign, its size in decimal, a line
feed and so many bytes; a line feed, two number signs and a line feed follow the last one. An
interrupted read is made again inside a chunk only. -/
namespace Netconf.Framing

/-- The place within a frame at which a reader stands. -/
inductive Place where
  /-- Before a chunk, or, if it is the first place, before a message. -/
  | newline (isFirst : Bool)
  | numberSign
  | sizeStart
  /-- Behind some digits of a size. -/
  | size (digits value : Nat)
  /-- Inside a chunk of which so many bytes are left. -/
  | data (left : Nat)
  /-- Behind two number signs. -/
  | lastNewline
deriving DecidableEq, Repr

/-- What a byte leads to. -/
inductive Move where
  | to (place : Place)
  | finish
  | fail (e : FramingError)
deriving DecidableEq, Repr

/-- The largest size of a chunk. -/
def maxChunkSize : Nat := Text.maxWord32

/-- The largest number of digits of a size. -/
def maxChunkDigits : Nat := 10

/-- The place after a chunk's head has been read, unless the chunk is too large. -/
def enterChunk (limit sofar size : Nat) : Move :=
  if maxChunkSize < size then .fail (.badChunk (.sizeOutOfRange size))
  else if limit < sofar + size then .fail (.tooLarge limit)
  else .to (.data size)

/-- The step that a byte makes, where the payload so far has the given size. -/
def Place.step (limit sofar : Nat) (b : UInt8) : Place → Move
  | newline _ => if b = 0x0A then .to numberSign else .fail (.badChunk (.expectedNewline b))
  | numberSign => if b = 0x23 then .to sizeStart else .fail (.badChunk (.expected 0x23 b))
  | sizeStart =>
    if b = 0x23 then .to lastNewline
    else if 0x31 ≤ b ∧ b ≤ 0x39 then .to (size 1 (b.toNat - 0x30))
    else .fail (.badChunk (.badSizeStart b))
  | size digits value =>
    if b = 0x0A then enterChunk limit sofar value
    else if 0x30 ≤ b ∧ b ≤ 0x39 then
      if digits < maxChunkDigits then .to (size (digits + 1) (value * 10 + (b.toNat - 0x30)))
      else .fail (.badChunk .sizeTooLong)
    else .fail (.badChunk (.badSizeByte b))
  | data left => if left ≤ 1 then .to (newline false) else .to (data (left - 1))
  | lastNewline =>
    if b = 0x0A then if sofar = 0 then .fail (.badChunk .noChunks) else .finish
    else .fail (.badChunk (.expected 0x0A b))

/-- Whether a byte read at a place belongs to the payload. -/
def Place.isData : Place → Bool
  | data _ => true
  | _ => false

/-- What the end of the stream means at a place. -/
def Place.atEnd : Place → FramingError
  | newline true => .closed
  | _ => .truncated

/-- What a failing read means at a place: inside a chunk, an unexpected end cuts the message off. -/
def Place.atFault (f : Fault) : Place → FramingError
  | data _ => if f = .unexpectedEnd then .truncated else .fault f
  | _ => .fault f

/-- Reads a chunked message on from a place, with the payload so far last byte first and its
size. -/
def readChunks (limit : Nat) (place : Place) (sofar : Nat) (read : Bytes) :
    Incoming → Outcome × Incoming
  | .silent => (.blocked, .silent)
  | .closed => (.failure place.atEnd, .closed)
  | .fault f rest =>
    if place.isData ∧ f = .interrupted then readChunks limit place sofar read rest
    else (.failure (place.atFault f), rest)
  | .byte b rest =>
    match place.step limit sofar b with
    | .fail e => (.failure e, rest)
    | .finish => (.message read.reverse, rest)
    | .to next =>
      if place.isData then readChunks limit next (sofar + 1) (b :: read) rest
      else readChunks limit next sofar read rest

end Netconf.Framing
