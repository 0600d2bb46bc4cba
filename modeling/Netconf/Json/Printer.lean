import Netconf.Json.Value
import Netconf.Text.Numeral

/-! The text of JSON values, either without any white space or on lines of their own. -/
namespace Netconf.Json

/-- How a character is written inside a string. -/
def escape (c : Char) : List Char :=
  if c = '"' then ['\\', '"']
  else if c = '\\' then ['\\', '\\']
  else if c = '\n' then ['\\', 'n']
  else if c = '\r' then ['\\', 'r']
  else if c = '\t' then ['\\', 't']
  else if c.toNat = 8 then ['\\', 'b']
  else if c.toNat = 12 then ['\\', 'f']
  else if c.toNat < 32 then
    ['\\', 'u', '0', '0', Text.hexChar (c.toNat / 16), Text.hexChar c.toNat]
  else [c]

/-- A string between its quotes. -/
def stringChars (s : String) : List Char := '"' :: s.toList.flatMap escape ++ ['"']

/-- A string that stands for no text: half a surrogate pair. -/
def garbledChars : List Char := ['"', '\\', 'u', 'd', '8', '0', '0', '"']

/-- The text of a number, exponents and fractions in one exponent. -/
def Number.chars (n : Number) : List Char :=
  (if n.negative then ['-'] else []) ++ Text.decimalChars n.digits ++
    (if n.integral then []
     else 'e' :: (if n.exponent < 0 then ['-'] else []) ++ Text.decimalChars n.exponent.natAbs)

namespace Value

mutual

/-- The text of a value without white space. -/
def chars : Value → List Char
  | null => "null".toList
  | bool b => if b then "true".toList else "false".toList
  | number n => n.chars
  | string s => stringChars s
  | array items => '[' :: itemChars items ++ [']']
  | object members => '{' :: memberChars members ++ ['}']
  | garbled => garbledChars

/-- The items of an array with commas between them. -/
def itemChars : List Value → List Char
  | [] => []
  | [v] => v.chars
  | v :: vs => v.chars ++ ',' :: itemChars vs

/-- The members of an object with commas between them. -/
def memberChars : List (String × Value) → List Char
  | [] => []
  | [(k, v)] => stringChars k ++ ':' :: v.chars
  | (k, v) :: ms => stringChars k ++ ':' :: v.chars ++ ',' :: memberChars ms

end

/-- The text of a value without white space. -/
def render (v : Value) : String := String.ofList v.chars

/-- A line end and the indentation of a depth. -/
def newLine (depth : Nat) : List Char := '\n' :: List.replicate (2 * depth) ' '

mutual

/-- The text of a value at a depth, each item on a line of its own. -/
def prettyChars (depth : Nat) : Value → List Char
  | array [] => ['[', ']']
  | array items => '[' :: prettyItems (depth + 1) items ++ newLine depth ++ [']']
  | object [] => ['{', '}']
  | object members => '{' :: prettyMembers (depth + 1) members ++ newLine depth ++ ['}']
  | null => "null".toList
  | bool b => if b then "true".toList else "false".toList
  | number n => n.chars
  | string s => stringChars s
  | garbled => garbledChars

def prettyItems (depth : Nat) : List Value → List Char
  | [] => []
  | [v] => newLine depth ++ prettyChars depth v
  | v :: vs => newLine depth ++ prettyChars depth v ++ ',' :: prettyItems depth vs

def prettyMembers (depth : Nat) : List (String × Value) → List Char
  | [] => []
  | [(k, v)] => newLine depth ++ stringChars k ++ ':' :: ' ' :: prettyChars depth v
  | (k, v) :: ms =>
    newLine depth ++ stringChars k ++ ':' :: ' ' :: prettyChars depth v ++ ',' ::
      prettyMembers depth ms

end

/-- The text of a value with each item on a line of its own, indented by two blanks a level. -/
def pretty (v : Value) : String := String.ofList (prettyChars 0 v)

end Value
end Netconf.Json
