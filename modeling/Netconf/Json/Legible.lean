import Netconf.Json.Parser
import Netconf.Text.Utf8

/-! Reading JSON from bytes. A string that is passed over may hold any bytes. What is no UTF-8
stands for no text, just like half a surrogate pair, and can be written as one. -/
namespace Netconf.Json

/-- An escape that stands for no character: half a surrogate pair, last byte first. -/
def strayBytes : Bytes := (Bytes.ofString "\\ud800").reverse

/-- The number of bytes that belong to a character behind its first one, if these are all there. -/
def tailLength? (b : UInt8) (bytes : Bytes) : Option Nat :=
  ((Text.tailBounds? b).filter fun bounds => (Text.tailFault? 0 1 bounds bytes).isNone).map
    List.length

/-- The bytes with an escape in place of each that belongs to no character. `skipped` bytes belong
to a character that has been looked at; `done` are the bytes so far, last first. Behind a backslash
there is no place for an escape. -/
def mend? (escaped : Bool) (skipped : Nat) (done : Bytes) : Bytes → Option Bytes
  | [] => some done.reverse
  | b :: bytes =>
    match skipped, tailLength? b bytes with
    | n + 1, _ => mend? false n (b :: done) bytes
    | 0, some tail => mend? (b == 0x5C && !escaped) tail (b :: done) bytes
    | 0, none => if escaped then none else mend? false 0 (strayBytes ++ done) bytes

/-- The value of bytes, which hold nothing else but white space. -/
def parseBytes? (bytes : Bytes) : Option Value :=
  ((mend? false 0 [] bytes).bind Bytes.toString?).bind parse?

end Netconf.Json
