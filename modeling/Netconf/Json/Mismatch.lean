import Netconf.Json.Shortest
import Netconf.Text.Visible

/-! What is wrong with a value that does not have the shape it should have. A value is looked at
from its start to its end, and the first fault counts. -/
namespace Netconf.Json

/-- A fault of a value. -/
inductive Mismatch where
  | type (found expected : String)
  | value (found expected : String)
  | length (found : Nat) (expected : String)
  | missingField (name : String)
  | duplicateField (name : String)
  | unknownVariant (name : String) (known : List String)
deriving DecidableEq, Repr

/-- A name between marks. -/
def marked (name : String) : String := "`" ++ name ++ "`"

/-- A choice of names. -/
def choice : List String → String
  | [] => "there are no variants"
  | [a] => "expected " ++ marked a
  | [a, b] => "expected " ++ marked a ++ " or " ++ marked b
  | names => "expected one of " ++ ", ".intercalate (names.map marked)

/-- The fault in words. -/
def Mismatch.message : Mismatch → String
  | .type found expected => "invalid type: " ++ found ++ ", expected " ++ expected
  | .value found expected => "invalid value: " ++ found ++ ", expected " ++ expected
  | .length found expected => "invalid length " ++ Text.decimal found ++ ", expected " ++ expected
  | .missingField name => "missing field " ++ marked name
  | .duplicateField name => "duplicate field " ++ marked name
  | .unknownVariant name known => "unknown variant " ++ marked name ++ ", " ++ choice known

/-- How a character is shown inside quotes: a sign of its own, itself, or its number. -/
def shownChar (c : Char) : List Char :=
  if c = '"' then ['\\', '"']
  else if c = '\\' then ['\\', '\\']
  else if c = '\n' then ['\\', 'n']
  else if c = '\r' then ['\\', 'r']
  else if c = '\t' then ['\\', 't']
  else if c.toNat = 0 then ['\\', '0']
  else if Text.isVisible c then [c]
  else '\\' :: 'u' :: '\x7b' :: Nat.toDigits 16 c.toNat ++ ['\x7d']

/-- A text between quotes, with signs for what would not show. -/
def shown (s : String) : String :=
  String.ofList ('"' :: s.toList.flatMap shownChar ++ ['"'])

/-- A number as its kind and its text. -/
def Number.describe (n : Number) : String :=
  if n.isWhole then
    "integer " ++ marked ((if n.negative then "-" else "") ++ Text.decimal n.digits)
  else "floating point " ++ marked (String.ofList n.shortestChars)

/-- What a value is, in words. -/
def Value.describe : Value → String
  | null => "null"
  | bool b => "boolean " ++ marked (if b then "true" else "false")
  | number n => n.describe
  | string s => "string " ++ shown s
  | garbled => "string"
  | array _ => "sequence"
  | object _ => "map"

/-- A look at a value for its first fault. -/
abbrev Check := Value → Except Mismatch Unit

namespace Check

/-- Anything but what is expected. -/
def wrong (expected : String) : Check := fun v => .error (.type v.describe expected)

/-- A text. -/
def text : Check
  | .string _ => .ok ()
  | v => wrong "a string" v

/-- A value that may be null. -/
def orNull (check : Check) : Check
  | .null => .ok ()
  | v => check v

/-- A list of values of one kind. -/
def list (check : Check) : Check
  | .array items => items.forM check
  | v => wrong "a sequence" v

/-- A count of 32 bits. -/
def count : Check
  | .number n =>
    if n.isWhole then
      if !n.negative && n.digits ≤ Text.maxWord32 then .ok ()
      else .error (.value n.describe "u32")
    else wrong "u32" (.number n)
  | v => wrong "u32" v

/-- One of several cases; `inside` looks at what the case says, if it says anything. -/
def variant (known : List String) (inside : String → Option Value → Except Mismatch Unit) : Check :=
  let named (name : String) (v : Option Value) : Except Mismatch Unit :=
    if name ∈ known then inside name v else .error (.unknownVariant name known)
  fun
  | .string name => named name none
  | .object [(name, v)] => named name (some v)
  | .object _ => .error (.value "map" "map with a single key")
  | v => wrong "string or map" v

/-- One of several cases that say nothing more. -/
def label (known : List String) : Check :=
  variant known fun _ => fun
    | none => .ok ()
    | some .null => .ok ()
    | some (.object []) => .ok ()
    | some v => wrong "unit" v

/-- A field of a record. -/
structure Field where
  name : String
  required : Bool := true
  check : Check

/-- A number of things. -/
def numbered (n : Nat) (thing : String) : String :=
  Text.decimal n ++ " " ++ thing ++ (if n = 1 then "" else "s")

/-- The fields as members of an object, in the order in which they come; `seen` are the names of
those before them. Fields that are missing are found last. -/
def members (fields : List Field) (seen : List String) :
    List (String × Value) → Except Mismatch Unit
  | [] =>
    match fields.find? fun f => f.required && !seen.contains f.name with
    | some f => .error (.missingField f.name)
    | none => .ok ()
  | (name, v) :: rest =>
    match fields.find? (·.name == name) with
    | none => members fields seen rest
    | some f =>
      if name ∈ seen then .error (.duplicateField name)
      else f.check v >>= fun _ => members fields (name :: seen) rest

/-- The fields as items of an array, in their own order; `before` items have been looked at. -/
def items (what : String) (total before : Nat) : List Field → List Value → Except Mismatch Unit
  | [], [] => .ok ()
  | [], rest =>
    .error (.length (before + rest.length) (numbered before "element" ++ " in sequence"))
  | f :: fields, [] =>
    if f.required then .error (.length before (what ++ " with " ++ numbered total "element"))
    else items what total before fields []
  | f :: fields, v :: rest =>
    f.check v >>= fun _ => items what total (before + 1) fields rest

/-- A record, as an object or as an array. -/
def record (what : String) (fields : List Field) : Check
  | .object ms => members fields [] ms
  | .array vs => items what fields.length 0 fields vs
  | v => wrong what v

end Check
end Netconf.Json
