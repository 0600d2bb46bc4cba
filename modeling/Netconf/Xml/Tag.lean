import Netconf.Xml.Reference
import Netconf.Xml.Scope

/-! Start tags and end tags as they are written: names not yet resolved, attribute values with their
references replaced. Tags are read token by token. -/
namespace Netconf.Xml

/-- A start tag; a self-closing one is its own end tag. -/
structure StartTag where
  name : QName
  attributes : List (QName × String) := []
  selfClosing : Bool := false
deriving DecidableEq, Repr, Inhabited

/-- A tag, complete. -/
inductive Tag where
  | start (tag : StartTag)
  | finish (name : QName)
deriving DecidableEq, Repr

/-- What the reading of markup depends on: the declared version and the defined entities. -/
structure Dialect where
  version : Version := .v10
  entities : Entities := []
deriving Repr, Inhabited

/-- A quoted value that is being read. -/
structure ValuePart where
  /-- The quote that opened the value and will close it. -/
  mark : Option Char := none
  /-- The characters so far, last first. -/
  chars : List Char := []
  /-- The name of a reference that is being read. -/
  reference : Option Spelling := none
deriving DecidableEq, Repr, Inhabited

namespace ValuePart

/-- The value with some more characters. -/
def append (v : ValuePart) (cs : List Char) : ValuePart := { v with chars := cs.reverse ++ v.chars }

/-- The value with a quote: the first opens it, the next of its kind closes it. -/
def quoted (v : ValuePart) (mark : Char) : Progress ValuePart String :=
  match v.mark with
  | none => .more { v with mark := some mark }
  | some m => if m = mark then .done (String.ofList v.chars.reverse) else .more (v.append [mark])

/-- A value with another token inside its quotes. Markup stands for itself, except that no tag and
no instruction may begin. -/
def inside (d : Dialect) (v : ValuePart) (t : Token) : Except Malformed ValuePart :=
  match t with
  | .ampersand => .ok { v with reference := some {} }
  | .tagStart => .error (.unexpected "tag in a value")
  | .instructionStart => .error (.unexpected "instruction in a value")
  | .character c =>
    if d.version.isLiteral c then .ok (v.append [c]) else .error .illegalCharacter
  | t => .ok (v.append t.spelling.toList)

/-- A value with another token. White space may stand before its opening quote. -/
def step (d : Dialect) (v : ValuePart) (t : Token) :
    Except Malformed (Progress ValuePart String) :=
  match v.reference with
  | some name =>
    match Reference.step d.version name t with
    | .error e => .error e
    | .ok (.more name) => .ok (.more { v with reference := some name })
    | .ok (.done r) =>
      (d.entities.replace r).map fun text => .more ({ v with reference := none }.append text)
  | none =>
    match t with
    | .quote mark => .ok (v.quoted mark)
    | t =>
      if v.mark.isSome then (v.inside d t).map .more
      else match t with
        | .character c =>
          if isSpace c then .ok (.more v) else .error (.unexpected "value without quotes")
        | _ => .error (.unexpected "value without quotes")

end ValuePart

/-- Where the reading of a tag stands. The attributes of a tag that is not complete are in order,
last first. -/
inductive TagPart where
  | startName (name : Spelling)
  /-- Behind white space, where an attribute may begin. -/
  | gap (tag : StartTag)
  | attributeName (tag : StartTag) (name : Spelling)
  | beforeSign (tag : StartTag) (name : QName)
  | value (tag : StartTag) (name : QName) (value : ValuePart)
  | afterValue (tag : StartTag)
  | finishName (name : Spelling)
  | afterFinishName (name : QName)
deriving DecidableEq, Repr, Inhabited

namespace StartTag

/-- The tag with its attributes in their order. -/
def complete (tag : StartTag) (selfClosing : Bool) : Tag :=
  .start { tag with attributes := tag.attributes.reverse, selfClosing }

/-- No two attributes that bind nothing may have the same name. -/
def admits (tag : StartTag) (name : QName) : Bool :=
  name.binds?.isSome || tag.attributes.all (·.1 != name)

end StartTag

namespace TagPart

/-- The names of elements have no reserved prefix. -/
def checkPrefix (name : QName) : Except Malformed Unit :=
  if name.pfx = some "xml" ∨ name.pfx = some "xmlns" then .error .reservedPrefix else .ok ()

/-- Whether a token ends the name of a start tag. -/
def endsStart (t : Token) : Bool := t = .tagEnd || t = .emptyTagEnd

/-- A start tag with a token behind white space or behind a value. White space must come before
every attribute. -/
def between (tag : StartTag) (spaced : Bool) (t : Token) :
    Except Malformed (Progress TagPart Tag) :=
  match t with
  | .tagEnd => .ok (.done (tag.complete false))
  | .emptyTagEnd => .ok (.done (tag.complete true))
  | .character c =>
    if isSpace c then .ok (.more (.gap tag))
    else if spaced && isNameStart c then .ok (.more (.attributeName tag (Spelling.add {} c)))
    else .error (.unexpected "character in a start tag")
  | _ => .error (.unexpected "mark in a start tag")

/-- The part of a start tag behind its name. -/
def afterStartName (name : QName) (t : Token) : Except Malformed (Progress TagPart Tag) :=
  match checkPrefix name with
  | .error e => .error e
  | .ok _ => between { name } false t

/-- An end tag with a token behind its name. -/
def afterFinish (name : QName) (t : Token) : Except Malformed (Progress TagPart Tag) :=
  match t with
  | .tagEnd => .ok (.done (.finish name))
  | .character c =>
    if isSpace c then .ok (.more (.afterFinishName name))
    else .error (.unexpected "character in an end tag")
  | _ => .error (.unexpected "mark in an end tag")

/-- A start tag with a token behind an attribute's name. -/
def sign (tag : StartTag) (name : QName) (t : Token) :
    Except Malformed (Progress TagPart Tag) :=
  match t with
  | .equals => .ok (.more (.value tag name {}))
  | .character c =>
    if isSpace c then .ok (.more (.beforeSign tag name))
    else .error (.unexpected "attribute without value")
  | _ => .error (.unexpected "attribute without value")

/-- A tag with another token. -/
def step (d : Dialect) (p : TagPart) (t : Token) : Except Malformed (Progress TagPart Tag) :=
  match p with
  | .startName name =>
    match name.qualified endsStart t with
    | .error e => .error e
    | .ok (.more name) => .ok (.more (.startName name))
    | .ok (.done name) => afterStartName name t
  | .gap tag => between tag true t
  | .attributeName tag name =>
    match name.qualified (· = .equals) t with
    | .error e => .error e
    | .ok (.more name) => .ok (.more (.attributeName tag name))
    | .ok (.done name) =>
      if tag.admits name then sign tag name t else .error (.duplicateAttribute name.text)
  | .beforeSign tag name => sign tag name t
  | .value tag name v =>
    match v.step d t with
    | .error e => .error e
    | .ok (.more v) => .ok (.more (.value tag name v))
    | .ok (.done text) =>
      .ok (.more (.afterValue { tag with attributes := (name, text) :: tag.attributes }))
  | .afterValue tag => between tag false t
  | .finishName name =>
    match name.qualified (· = .tagEnd) t with
    | .error e => .error e
    | .ok (.more name) => .ok (.more (.finishName name))
    | .ok (.done name) => (checkPrefix name).bind fun _ => afterFinish name t
  | .afterFinishName name => afterFinish name t

end TagPart
end Netconf.Xml
