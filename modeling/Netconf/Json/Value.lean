import Netconf.Json.Double
import Netconf.Text.Numeral

/-! JSON values. A number keeps as many of its digits as 64 bits hold, and whether it was written as
a whole number; the members of an object keep their order and may repeat. -/
namespace Netconf.Json

/-- A number: the digits as a whole number, times a power of ten. -/
structure Number where
  negative : Bool := false
  digits : Nat
  exponent : Int := 0
  /-- Whether it was written without fraction and exponent, and with no more digits than are
  kept. -/
  integral : Bool := true
deriving DecidableEq, Repr, Inhabited

namespace Number

/-- Whether the number is a whole number of 64 bits, negative or not. All others are doubles, and a
negative zero is one of them. -/
def isWhole (n : Number) : Bool :=
  n.integral &&
    (if n.negative then n.digits != 0 && n.digits ≤ Nat.pow 2 63 else n.digits ≤ Text.maxWord64)

/-- The number as a count, where it is written as one. -/
def natural? (n : Number) : Option Nat :=
  if n.isWhole && !n.negative then some n.digits else none

/-- The double that the number is read as, its sign aside: the digits are rounded first, and then
what the power of ten makes of them. There is none where that is infinite. -/
def double? (n : Number) : Option Double := (Double.ofNat n.digits).timesPower? n.exponent

/-- Whether the number is within the range of double precision. -/
def inRange (n : Number) : Bool := n.isWhole || n.double?.isSome

end Number

/-- A JSON value. -/
inductive Value where
  | null
  | bool (b : Bool)
  | number (n : Number)
  | string (s : String)
  | array (items : List Value)
  | object (members : List (String × Value))
  /-- A string with half a surrogate pair, or an object with such a key. It stands for no text, and
  can only be passed over. -/
  | garbled
deriving Repr, Inhabited

namespace Value

/-- A count as a value. -/
def ofNat (n : Nat) : Value := .number { digits := n }

/-- The string of some characters, if there are none that it cannot hold. -/
def ofChars : Option (List Char) → Value
  | some cs => .string (String.ofList cs)
  | none => .garbled

/-- A text that may be missing. -/
def ofOption (f : α → Value) : Option α → Value
  | none => .null
  | some a => f a

mutual

/-- The number of arrays and objects that lie inside each other, at most. -/
def depth : Value → Nat
  | array items => depthOfItems items + 1
  | object members => depthOfMembers members + 1
  | _ => 0

def depthOfItems : List Value → Nat
  | [] => 0
  | v :: vs => max v.depth (depthOfItems vs)

def depthOfMembers : List (String × Value) → Nat
  | [] => 0
  | (_, v) :: ms => max v.depth (depthOfMembers ms)

end

mutual

/-- Whether all numbers are within the range of double precision, and nothing is garbled. -/
def isReadable : Value → Bool
  | number n => n.inRange
  | array items => itemsReadable items
  | object members => membersReadable members
  | garbled => false
  | _ => true

def itemsReadable : List Value → Bool
  | [] => true
  | v :: vs => v.isReadable && itemsReadable vs

def membersReadable : List (String × Value) → Bool
  | [] => true
  | (_, v) :: ms => v.isReadable && membersReadable ms

end

/-- Arrays and objects lie inside each other at most so deep where a value is taken over whole. -/
def maxDepth : Nat := 127

/-- Whether a value can be taken over whole, with everything inside it. -/
def isModest (v : Value) : Bool := v.depth ≤ maxDepth && v.isReadable

end Value
end Netconf.Json
