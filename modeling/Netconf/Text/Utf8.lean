import Netconf.Bytes
import Netconf.Text.Numeral

/-! Where a string of bytes ceases to be UTF-8. -/
namespace Netconf.Text

/-- The first bytes that are no UTF-8: where they start, and how many of them cannot begin any
character. A character that only lacks its end has no such number. -/
structure Utf8Fault where
  start : Nat
  length : Option Nat
deriving DecidableEq, Repr

/-- The fault in words. -/
def Utf8Fault.message (f : Utf8Fault) : String :=
  match f.length with
  | some n =>
    "invalid utf-8 sequence of " ++ decimal n ++ " bytes from index " ++ decimal f.start
  | none => "incomplete utf-8 byte sequence from index " ++ decimal f.start

/-- The bounds of the bytes behind the first byte of a character. -/
def tailBounds? (b : UInt8) : Option (List (UInt8 × UInt8)) :=
  let any := (0x80, 0xBF)
  if b < 0x80 then some []
  else if b < 0xC2 then none
  else if b < 0xE0 then some [any]
  else if b = 0xE0 then some [(0xA0, 0xBF), any]
  else if b = 0xED then some [(0x80, 0x9F), any]
  else if b < 0xF0 then some [any, any]
  else if b = 0xF0 then some [(0x90, 0xBF), any, any]
  else if b < 0xF4 then some [any, any, any]
  else if b = 0xF4 then some [(0x80, 0x8F), any, any]
  else none

/-- Looks for a fault behind a first byte; `length` bytes of the character have been seen, and the
character starts `start` bytes from the beginning. -/
def tailFault? (start length : Nat) : List (UInt8 × UInt8) → Bytes → Option Utf8Fault
  | [], _ => none
  | _ :: _, [] => some { start, length := none }
  | (low, high) :: bounds, b :: bytes =>
    if low ≤ b ∧ b ≤ high then tailFault? start (length + 1) bounds bytes
    else some { start, length := some length }

/-- Looks for the first fault, `start` bytes from the beginning on; `skipped` bytes belong to a
character that has been looked at. -/
def utf8FaultFrom? (start skipped : Nat) : Bytes → Option Utf8Fault
  | [] => none
  | b :: bytes =>
    match skipped with
    | n + 1 => utf8FaultFrom? (start + 1) n bytes
    | 0 =>
      match tailBounds? b with
      | none => some { start, length := some 1 }
      | some bounds =>
        (tailFault? start 1 bounds bytes).or (utf8FaultFrom? (start + 1) bounds.length bytes)

/-- The first fault of a string of bytes. -/
def utf8Fault? (bytes : Bytes) : Option Utf8Fault := utf8FaultFrom? 0 0 bytes

end Netconf.Text
