import Netconf.Json.Value

/-! Reading values of fixed shape. A record is an object, whose members come in any order and may
have strangers among them, or an array that lists the fields in their order. One of several shapes
is told by a tag: a member of the object, or the first item of the array. -/
namespace Netconf.Json

/-- How values are read: one by one from the text, or out of a whole that was taken over first. The
second way admits an empty object where nothing is to be said. -/
inductive Mode where
  | direct
  | whole
deriving DecidableEq, Repr, Inhabited

/-- The fields of a record, those not given being missing. -/
structure Record where
  fields : List (String × Value)
  positional : Bool
deriving Repr, Inhabited

namespace Record

/-- The fields of the given names. A name may occur once; an array may not be longer than the
names. -/
def ofValue? (names : List String) : Value → Option Record
  | .object members =>
    let known := members.filter fun m => names.contains m.1
    if (names.all fun n => (known.filter (·.1 == n)).length ≤ 1) then
      some { fields := known, positional := false }
    else none
  | .array items =>
    if items.length ≤ names.length then some { fields := names.zip items, positional := true }
    else none
  | _ => none

/-- The value of a field. -/
def find? (r : Record) (name : String) : Option Value :=
  (r.fields.find? (·.1 == name)).map (·.2)

/-- A field that must be there. -/
def required? (r : Record) (name : String) (read : Value → Option α) : Option α :=
  (r.find? name).bind read

/-- A field that may be null, or missing from an object. -/
def optional? (r : Record) (name : String) (read : Value → Option α) : Option (Option α) :=
  match r.find? name with
  | none => if r.positional then none else some none
  | some .null => some none
  | some v => (read v).map some

/-- A field that may be null or missing. -/
def nullable? (r : Record) (name : String) (read : Value → Option α) : Option (Option α) :=
  match r.find? name with
  | none => some none
  | some .null => some none
  | some v => (read v).map some

/-- A field that has a value of its own where it is missing. -/
def defaulted? (r : Record) (name : String) (otherwise : α) (read : Value → Option α) :
    Option α :=
  match r.find? name with
  | none => some otherwise
  | some v => read v

end Record

/-- A text. -/
def text? : Value → Option String
  | .string s => some s
  | _ => none

/-- A count up to a bound. -/
def count? (most : Nat) : Value → Option Nat
  | .number n => (n.natural?).filter (· ≤ most)
  | _ => none

/-- A word of 64 bits. -/
def word? (v : Value) : Option UInt64 := (count? Text.maxWord64 v).map UInt64.ofNat

/-- A list of values of one kind. -/
def list? (read : Value → Option α) : Value → Option (List α)
  | .array items => items.mapM read
  | _ => none

/-- The name of one of several cases that say nothing more: the name itself, or an object with the
name as its only key and nothing behind it. -/
def label? (mode : Mode) : Value → Option String
  | .string s => some s
  | .object [(s, .null)] => some s
  | .object [(s, .object [])] => if mode = .whole then some s else none
  | _ => none

/-- The case whose written name a value gives. -/
def case? (mode : Mode) (cases : List α) (name : α → String) (v : Value) : Option α :=
  (label? mode v).bind fun s => cases.find? (name · == s)

/-- The tag of a value and what is left without it. The value is taken over whole. -/
def tagged? (tag : String) (v : Value) : Option (String × Value) :=
  if v.isModest then
    match v with
    | .object members =>
      match members.filter (·.1 == tag) with
      | [(_, .string t)] => some (t, .object (members.filter (·.1 != tag)))
      | _ => none
    | .array (.string t :: items) => some (t, .array items)
    | _ => none
  else none

/-- What is left beside a tag that says everything: any members, or no items. -/
def nothing? : Value → Option Unit
  | .object _ => some ()
  | .array [] => some ()
  | _ => none

end Netconf.Json
