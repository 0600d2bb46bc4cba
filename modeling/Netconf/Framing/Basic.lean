import Netconf.Text.Numeral
import Netconf.Transport.Incoming

/-! How messages are told apart on a stream of bytes: by a mark behind each message, or by cutting
it into chunks that announce their sizes. Here are the forms of framed messages and what reading
one can come to. -/
namespace Netconf

/-- The two ways to frame messages. -/
inductive Framing where
  | endOfMessage
  | chunked
deriving DecidableEq, Repr, Inhabited

/-- What is wrong with the frame of a chunked message. -/
inductive ChunkError where
  | expectedNewline (got : UInt8)
  | expected (wanted got : UInt8)
  | badSizeStart (got : UInt8)
  | badSizeByte (got : UInt8)
  | sizeTooLong
  | sizeOutOfRange (size : Nat)
  | noChunks
deriving DecidableEq, Repr

/-- A byte in hexadecimal with its customary mark. -/
def byteText (b : UInt8) : String :=
  String.ofList ['0', 'x', Text.hexChar (b.toNat / 16), Text.hexChar b.toNat]

/-- The fault in words. -/
def ChunkError.message : ChunkError → String
  | .expectedNewline got => "expected newline, got " ++ byteText got
  | .expected wanted got => "expected " ++ byteText wanted ++ ", got " ++ byteText got
  | .badSizeStart got => "bad chunk size start " ++ byteText got
  | .badSizeByte got => "bad chunk size byte " ++ byteText got
  | .sizeTooLong => "chunk size too long"
  | .sizeOutOfRange size => "chunk size " ++ Text.decimal size ++ " out of range"
  | .noChunks => "message without chunks"

/-- Why no message could be read. -/
inductive FramingError where
  /-- The stream ended between messages. -/
  | closed
  | truncated
  | badChunk (cause : ChunkError)
  | tooLarge (limit : Nat)
  | fault (f : Fault)
deriving DecidableEq, Repr

/-- The cause in words. -/
def FramingError.message : FramingError → String
  | .closed => "peer closed the connection"
  | .truncated => "peer closed the connection inside a message"
  | .badChunk cause => "invalid chunk framing: " ++ cause.message
  | .tooLarge limit => "message exceeds " ++ Text.decimal limit ++ " bytes"
  | .fault f => "framing i/o failure: " ++ f.message

namespace Framing

/-- What the reading of a message comes to. -/
inductive Outcome where
  | message (payload : Bytes)
  | failure (e : FramingError)
  /-- The peer is silent in the middle of a message. -/
  | blocked
deriving DecidableEq, Repr, Inhabited

/-- The mark behind every message: two closing brackets and a greater-than sign, twice. -/
def marker : Bytes := [0x5D, 0x5D, 0x3E, 0x5D, 0x5D, 0x3E]

/-- The limit on messages unless another one is set: 16 MiB. -/
def defaultLimit : Nat := 16777216

/-- The head of a chunk. -/
def chunkHead (size : Nat) : Bytes :=
  0x0A :: 0x23 :: (Text.decimalChars size).map (fun c => UInt8.ofNat c.toNat) ++ [0x0A]

/-- What follows the last chunk. -/
def chunkEnd : Bytes := [0x0A, 0x23, 0x23, 0x0A]

/-- A message in its frame. A chunked message is one chunk, or none where it is empty. -/
def encode (framing : Framing) (payload : Bytes) : Bytes :=
  match framing with
  | endOfMessage => payload ++ marker
  | chunked => (if payload.isEmpty then [] else chunkHead payload.length ++ payload) ++ chunkEnd

end Framing
end Netconf
