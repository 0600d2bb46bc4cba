import Netconf.Xml.Doctype
import Netconf.Xml.Instruction
import Netconf.Xml.Source

/-! A reading of a document in progress: the elements that are open, the root found so far, and
the character data seen since the last tag. Character data that is all white space is dropped;
comments and character data sections do not interrupt it, tags and processing instructions do. -/
namespace Netconf.Xml

/-- An element whose end tag has not been read. Its children are kept last first. -/
structure Frame where
  name : QName
  scope : Scope
  space : Option String
  attributes : List Attribute
  children : List Element := []
  text : String := ""
deriving Repr, Inhabited

/-- Character data since the last tag, last character first. -/
structure Run where
  chars : List Char := []
  blank : Bool := true
deriving DecidableEq, Repr, Inhabited

namespace Run

/-- The run with some more characters. -/
def append (run : Run) (cs : List Char) : Run :=
  { chars := cs.reverse ++ run.chars, blank := run.blank && cs.all isSpace }

/-- The run after a reference to an entity. A run that starts with one is not blank, whatever the
entity's text is. -/
def afterEntity (run : Run) : Run := { run with blank := run.blank && !run.chars.isEmpty }

/-- What a run adds to the text of its element. -/
def text (run : Run) : String := if run.blank then "" else String.ofList run.chars.reverse

end Run

/-- How far a document has come. -/
inductive Stage where
  /-- Nothing of it has been read. -/
  | start
  /-- A document type declaration may still come. -/
  | prologue
  | body
deriving DecidableEq, Repr, Inhabited

/-- The piece of markup that a reading stands in. -/
inductive Place where
  /-- Text, or the space between pieces of markup. -/
  | content
  | comment
  /-- A character data section. -/
  | data
  | reference (name : Spelling)
  | tag (part : TagPart)
  | instruction (part : InstructionPart)
  | declaration (part : DeclarationPart)
  | doctype (place : Doctype.Place)
deriving DecidableEq, Repr, Inhabited

/-- The state of a reading. -/
structure Reading where
  dialect : Dialect := {}
  lexis : Lexis := {}
  place : Place := .content
  stage : Stage := .start
  /-- The encoding that the declaration names. -/
  encoding : Option String := none
  /-- The open elements, innermost first. -/
  stack : List Frame := []
  root : Option Element := none
  pending : Run := {}
deriving Repr, Inhabited

namespace Frame

/-- The element that a frame becomes at its end tag. -/
def close (f : Frame) : Element :=
  { name := f.name.base, space := f.space, attributes := f.attributes,
    children := f.children.reverse, text := f.text }

/-- So many attributes may a tag have, those aside that bind prefixes. -/
def maxAttributes : Nat := 65536

/-- The frame that a start tag opens within a scope. -/
def ofTag (tag : StartTag) (outer : Option Scope) : Except Malformed Frame := do
  let own := bindings tag.attributes
  own.forM fun b => checkBinding b.1 b.2
  let scope : Scope := own ++ outer.getD Scope.outermost
  let space ← scope.resolve tag.name
  let plain := plainAttributes tag.attributes
  if maxAttributes < plain.length then throw .tooManyAttributes
  plain.forM fun a =>
    match a.1.pfx with
    | none => .ok ()
    | some p => if (scope.find? p).isSome then .ok () else .error (.unboundPrefix a.1.text)
  return { name := tag.name, scope, space,
           attributes := declarations own outer ++ plain.map fun a => ⟨a.1.text, a.2⟩ }

end Frame

namespace Reading

/-- The scope that an element is read in. -/
def scope (r : Reading) : Scope :=
  match r.stack with
  | f :: _ => f.scope
  | [] => Scope.outermost

/-- The reading with the current run added to the text of the innermost element. -/
def flush (r : Reading) : Reading :=
  match r.stack with
  | f :: fs => { r with stack := { f with text := f.text ++ r.pending.text } :: fs, pending := {} }
  | [] => { r with pending := {} }

/-- The reading with a complete element put in its place; the last root counts. -/
def attach (r : Reading) (e : Element) : Reading :=
  match r.stack with
  | f :: fs => { r with stack := { f with children := e :: f.children } :: fs }
  | [] => { r with root := some e }

/-- The reading after a start tag. -/
def enter (r : Reading) (tag : StartTag) : Except Malformed Reading :=
  let r := r.flush
  match Frame.ofTag tag (r.stack.head?.map (·.scope)) with
  | .error e => .error e
  | .ok f =>
    let r := { r with stage := .body }
    .ok (if tag.selfClosing then r.attach f.close else { r with stack := f :: r.stack })

/-- The reading after an end tag, which must be that of the innermost element. -/
def leave (r : Reading) (name : QName) : Except Malformed Reading :=
  let r := r.flush
  match r.stack with
  | f :: fs =>
    if f.name = name then .ok ({ r with stack := fs }.attach f.close)
    else .error (.mismatchedEnd name.text)
  | [] => .error (.mismatchedEnd name.text)

/-- The reading, to go on at another place. -/
def goto (r : Reading) (place : Place) : Reading := { r with place }

/-- The reading, once something has been read that no XML declaration can follow. -/
def started (r : Reading) : Reading :=
  { r with stage := if r.stage = .start then .prologue else r.stage }

/-- What a token of a reading comes to: the reading behind it, and a replacement text to be read
next. -/
structure Advance where
  reading : Reading
  inserted : List Char := []

/-- Goes on with a reading. -/
def proceed (r : Reading) : Except Malformed Advance := .ok { reading := r }

/-- A character outside every element can only be white space. -/
def character (r : Reading) (c : Char) : Except Malformed Advance :=
  if r.stack.isEmpty then
    if isSpace c then proceed r.started else .error .outsideRoot
  else if r.dialect.version.isLiteral c then proceed { r with pending := r.pending.append [c] }
  else .error .illegalCharacter

/-- A mark that stands for itself can only be text of an element. -/
def mark (r : Reading) (t : Token) : Except Malformed Advance :=
  if r.stack.isEmpty then .error .outsideRoot
  else proceed { r with pending := r.pending.append t.spelling.toList }

/-- A token of text or between pieces of markup. Comments and character data sections do not
interrupt the current run of text; tags and processing instructions do. -/
def content (r : Reading) (t : Token) : Except Malformed Advance :=
  match t with
  | .character c => r.character c
  | .tagStart => proceed { r.flush with place := .tag (.startName {}), stage := .body }
  | .endTagStart =>
    if r.stack.isEmpty then .error .outsideRoot else proceed (r.flush.goto (.tag (.finishName {})))
  | .ampersand => if r.stack.isEmpty then .error .outsideRoot else proceed (r.goto (.reference {}))
  | .instructionStart => proceed (r.flush.goto (.instruction (.name {})))
  | .commentStart => proceed (r.started.goto .comment)
  | .dataStart => if r.stack.isEmpty then .error .outsideRoot else proceed (r.goto .data)
  | .doctypeStart =>
    if r.stage = .body then .error .badDoctype
    else proceed { r with place := .doctype .between, stage := .body }
  | .dataEnd => .error (.unexpected "end of a character data section")
  | .declarationStart => .error (.unexpected "declaration")
  | t => r.mark t

/-- A token of a comment, of which nothing is kept. -/
def comment (r : Reading) (t : Token) : Except Malformed Advance :=
  match t with
  | .commentEnd => proceed (r.goto .content)
  | .character c =>
    if r.dialect.version.isChar c then proceed r else .error .illegalCharacter
  | _ => proceed r

/-- A token of a character data section. -/
def data (r : Reading) (t : Token) : Except Malformed Advance :=
  match t with
  | .dataEnd => proceed (r.goto .content)
  | .character c =>
    if r.dialect.version.isChar c then proceed { r with pending := r.pending.append [c] }
    else .error .illegalCharacter
  | t => proceed { r with pending := r.pending.append t.spelling.toList }

/-- A token of a reference in text. The text of an entity is read as markup. -/
def refer (r : Reading) (name : Spelling) (t : Token) : Except Malformed Advance :=
  match Reference.step r.dialect.version name t with
  | .error e => .error e
  | .ok (.more name) => proceed (r.goto (.reference name))
  | .ok (.done (.character c)) =>
    proceed { r with pending := r.pending.append [c], place := .content }
  | .ok (.done (.entity name)) =>
    match r.dialect.entities.find? name with
    | none => .error (.undefinedEntity name)
    | some text =>
      .ok {
        reading := { r with pending := r.pending.afterEntity, place := .content }
        inserted := text.toList }

/-- A token of a tag. -/
def tag (r : Reading) (part : TagPart) (t : Token) : Except Malformed Advance :=
  match part.step r.dialect t with
  | .error e => .error e
  | .ok (.more part) => proceed (r.goto (.tag part))
  | .ok (.done (.start tag)) => (r.enter tag).map fun r => { reading := r.goto .content }
  | .ok (.done (.finish name)) => (r.leave name).map fun r => { reading := r.goto .content }

/-- A token of a processing instruction. -/
def instruction (r : Reading) (part : InstructionPart) (t : Token) : Except Malformed Advance :=
  match part.step r.dialect.version (r.stage = .start) t with
  | .error e => .error e
  | .ok (.more part) => proceed (r.goto (.instruction part))
  | .ok (.done .passed) => proceed (r.started.goto .content)
  | .ok (.done .declaration) => proceed (r.started.goto (.declaration {}))

/-- A token of the XML declaration. -/
def declaration (r : Reading) (part : DeclarationPart) (t : Token) : Except Malformed Advance :=
  match part.step t with
  | .error e => .error e
  | .ok (.more part) => proceed (r.goto (.declaration part))
  | .ok (.done d) =>
    proceed {
      r with
      dialect := { r.dialect with version := d.version.getD .v10 }
      encoding := d.encoding
      place := .content }

/-- A token of a document type declaration. -/
def doctype (r : Reading) (place : Doctype.Place) (t : Token) : Except Malformed Advance :=
  match Doctype.step r.dialect place t with
  | .error e => .error e
  | .ok (.on place) => proceed (r.goto (.doctype place))
  | .ok (.define name text place) =>
    let entities := r.dialect.entities.define name text
    proceed { r with dialect := { r.dialect with entities }, place := .doctype place }
  | .ok (.insert text) => .ok { reading := r.goto (.doctype .between), inserted := text }
  | .ok .finished => proceed (r.goto .content)

/-- A token, at the place where the reading stands. -/
def step (r : Reading) (t : Token) : Except Malformed Advance :=
  match r.place with
  | .content => r.content t
  | .comment => r.comment t
  | .data => r.data t
  | .reference name => r.refer name t
  | .tag part => r.tag part t
  | .instruction part => r.instruction part t
  | .declaration part => r.declaration part t
  | .doctype place => r.doctype place t

/-- What a reading has found when the characters end: its root, if nothing is left open. -/
def finish (r : Reading) : Except Malformed Element :=
  if r.stack.isEmpty && r.place = .content && r.lexis.mode = .content then
    match r.root with
    | some e => .ok e
    | none => .error .noRoot
  else .error .unexpectedEnd

/-- Reads a source to its end. -/
def run (r : Reading) (s : Source) : Except Malformed Reading :=
  match _hs : s.chars with
  | [] => .ok r
  | c :: cs =>
    match _ht : r.lexis.token c cs with
    | .error e => .error e
    | .ok lexeme =>
      match { r with lexis := lexeme.next }.step lexeme.token with
      | .error e => .error e
      | .ok a =>
        match _hi : (s.advance (lexeme.more + 1)).insert? a.inserted with
        | none => .error .runawayEntity
        | some s' => run a.reading s'
termination_by s
decreasing_by
  have := Lexis.more_le_of_token _ht
  exact Source.insert?_before _hi (Source.advance_before (by omega) (by simp [_hs]; omega))

end Reading
end Netconf.Xml
