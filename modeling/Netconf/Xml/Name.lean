import Netconf.Xml.Malformed
import Netconf.Xml.Token

/-! Names. A name is spelled out character by character; a qualified one has a local part and,
before a colon, an optional prefix. -/
namespace Netconf.Xml

/-- A name as it is written in a tag. -/
structure QName where
  pfx : Option String := none
  base : String
deriving DecidableEq, Repr, Inhabited

namespace QName

/-- The name with its prefix, as it is written. -/
def text (n : QName) : String :=
  match n.pfx with
  | some p => p ++ ":" ++ n.base
  | none => n.base

/-- The name that characters spell: with at most one colon, which has something on both sides. -/
def ofChars? (cs : List Char) : Option QName :=
  match cs with
  | [] => none
  | c :: _ =>
    if isNameStart c then
      match cs.span (· != ':') with
      | (base, []) => some { base := String.ofList base }
      | (pfx, _ :: base) =>
        if base.isEmpty || base.contains ':' then none
        else some { pfx := some (String.ofList pfx), base := String.ofList base }
    else none

end QName

/-- What a token brings: more is to come, or something is complete. -/
inductive Progress (σ α : Type) where
  | more (state : σ)
  | done (result : α)
deriving Repr

/-- A name that is being spelled: its characters so far, last first, and their length in bytes. -/
structure Spelling where
  chars : List Char := []
  bytes : Nat := 0
  /-- Whether a colon is among them, so that no other may come. -/
  colon : Bool := false
deriving DecidableEq, Repr, Inhabited

namespace Spelling

/-- A name that is longer than this takes no more characters. -/
def maxBytes : Nat := 262144

/-- The name with another character. -/
def add (s : Spelling) (c : Char) : Spelling :=
  { s with chars := c :: s.chars, bytes := s.bytes + c.utf8Size }

/-- The name with another character, unless it is too long. -/
def push (s : Spelling) (c : Char) : Except Malformed Spelling :=
  if maxBytes < s.bytes then .error .nameTooLong else .ok (s.add c)

/-- The name so far, its first character first. -/
def letters (s : Spelling) : List Char := s.chars.reverse

/-- The name so far as a text. -/
def text (s : Spelling) : String := String.ofList s.letters

/-- Whether a character can stand at this place of a name; colons count as letters. -/
def admits (s : Spelling) (c : Char) : Bool :=
  if s.chars.isEmpty then c == ':' || isNameStart c else isNameChar c

/-- The qualified name that has been spelled. -/
def name? (s : Spelling) : Option QName := QName.ofChars? s.letters

/-- A qualified name that is complete as it is. -/
def complete (s : Spelling) : Except Malformed (Progress Spelling QName) :=
  match s.name? with
  | some name => .ok (.done name)
  | none => .error .badName

/-- A qualified name with the character of another token. The name is complete at white space and
at a token of its end. -/
def qualified (s : Spelling) (ends : Token → Bool) (t : Token) :
    Except Malformed (Progress Spelling QName) :=
  match t with
  | .character ':' =>
    if s.chars.isEmpty || s.colon then .error .badName
    else .ok (.more { s.add ':' with colon := true })
  | .character c =>
    if isSpace c then s.complete
    else if s.admits c then (s.push c).map .more
    else .error .badName
  | t => if ends t then s.complete else .error .badName

end Spelling
end Netconf.Xml
