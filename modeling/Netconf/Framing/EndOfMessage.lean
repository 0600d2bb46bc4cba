import Netconf.Framing.Basic
import Netconf.Text.Blank

/-! Messages with a mark behind them. Whether a message is complete, or longer than allowed, is
looked at after each greater-than sign and at the end of the stream. An interrupted read is made
again. -/
namespace Netconf.Framing

/-- The marker, last byte first. -/
def reversedMarker : Bytes := marker.reverse

/-- The state of a stream that ends with some bytes of a message read. -/
def atEnd (limit size : Nat) (read : Bytes) : FramingError :=
  if limit < size then .tooLarge limit
  else if read.all Text.isBlankByte then .closed
  else .truncated

/-- Reads a message up to its mark, with the bytes read so far last byte first and their number. -/
def readMarked (limit : Nat) (size : Nat) (read : Bytes) : Incoming → Outcome × Incoming
  | .silent => (.blocked, .silent)
  | .closed => (.failure (atEnd limit size read), .closed)
  | .fault .interrupted rest => readMarked limit size read rest
  | .fault f rest => (.failure (.fault f), rest)
  | .byte b rest =>
    if b = 0x3E then
      if reversedMarker.isPrefixOf (b :: read) then
        (.message ((b :: read).drop marker.length).reverse, rest)
      else if limit < size + 1 then (.failure (.tooLarge limit), rest)
      else readMarked limit (size + 1) (b :: read) rest
    else readMarked limit (size + 1) (b :: read) rest

end Netconf.Framing
