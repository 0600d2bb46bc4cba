import Netconf.Text.Numeral
import Netconf.Xml.Name

/-! References: a character by its number or by one of five names, or an entity that the document
type declaration defines. -/
namespace Netconf.Xml

/-- What a reference stands for. -/
inductive Reference where
  | character (c : Char)
  | entity (name : String)
deriving DecidableEq, Repr

namespace Reference

/-- The characters with names of their own. -/
def named? (name : String) : Option Char :=
  match name with
  | "lt" => some '<'
  | "gt" => some '>'
  | "amp" => some '&'
  | "apos" => some '\''
  | "quot" => some '"'
  | _ => none

/-- The character of a number, where the document may hold it. -/
def numbered? (version : Version) (digits : List Char) : Option Char :=
  let number := match digits with
    | 'x' :: hex => Text.unsigned 16 Text.maxWord32 hex
    | _ => Text.unsigned 10 Text.maxWord32 digits
  match number with
  | .error _ => none
  | .ok n => if n.isValidChar ∧ version.isChar (Char.ofNat n) then some (Char.ofNat n) else none

/-- What the name between ampersand and semicolon refers to. -/
def ofChars (version : Version) (name : List Char) : Except Malformed Reference :=
  match name with
  | [] => .error .badReference
  | '#' :: digits =>
    match numbered? version digits with
    | some c => .ok (.character c)
    | none => .error .badReference
  | _ =>
    match named? (String.ofList name) with
    | some c => .ok (.character c)
    | none => .ok (.entity (String.ofList name))

/-- A reference with another token, from behind its ampersand up to its semicolon. -/
def step (version : Version) (name : Spelling) (t : Token) :
    Except Malformed (Progress Spelling Reference) :=
  match t with
  | .character c =>
    if (c == '#' && name.chars.isEmpty) || name.admits c then (name.push c).map .more
    else .error .badReference
  | .semicolon => (ofChars version name.letters).map .done
  | _ => .error .badReference

end Reference

/-- Entities with their replacement texts; the names of parameter entities start with a percent
sign. -/
abbrev Entities := List (String × String)

namespace Entities

/-- The replacement text of an entity. -/
def find? (es : Entities) (name : String) : Option String :=
  (List.find? (·.1 == name) es).map (·.2)

/-- Defines an entity, unless it is defined already. -/
def define (es : Entities) (name text : String) : Entities :=
  if (find? es name).isSome then es else es ++ [(name, text)]

/-- The text of a reference that is replaced where it stands. -/
def replace (es : Entities) : Reference → Except Malformed (List Char)
  | .character c => .ok [c]
  | .entity name =>
    match es.find? name with
    | some text => .ok text.toList
    | none => .error (.undefinedEntity name)

end Entities
end Netconf.Xml
