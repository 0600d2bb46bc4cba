import Netconf.Xml.Tag

/-! Processing instructions and the XML declaration, which has their form. An instruction has a name
and data, of which nothing is kept; a declaration has up to three settings in a fixed order. -/
namespace Netconf.Xml

/-- What an XML declaration says. -/
structure Declaration where
  version : Option Version := none
  encoding : Option String := none
deriving DecidableEq, Repr, Inhabited

namespace Declaration

/-- The settings of a declaration. -/
inductive Setting where
  | version
  | encoding
  | standalone
deriving DecidableEq, Repr, Inhabited

namespace Setting

/-- The first letter of a setting's name, and the letters behind it. -/
def name : Setting → Char × String
  | version => ('v', "ersion")
  | encoding => ('e', "ncoding")
  | standalone => ('s', "tandalone")

/-- The settings that can come behind one. -/
def later : Setting → List Setting
  | version => [encoding, standalone]
  | encoding => [standalone]
  | standalone => []

end Setting

/-- The version that a declaration names. -/
def version? (label : String) : Option Version :=
  match label with
  | "1.0" => some .v10
  | "1.1" => some .v11
  | _ => none

/-- The declaration with a setting. -/
def set (d : Declaration) (s : Setting) (value : String) : Except Malformed Declaration :=
  match s with
  | .version =>
    match version? value with
    | some v => .ok { d with version := some v }
    | none => .error .badDeclaration
  | .encoding => .ok { d with encoding := some value }
  | .standalone => if value = "yes" ∨ value = "no" then .ok d else .error .badDeclaration

/-- Where the reading of a declaration stands. -/
inductive Place where
  /-- Between settings: those that may follow, and whether white space has been seen. -/
  | gap (next : List Setting) (spaced : Bool)
  /-- Behind the first letter of a setting's name. -/
  | name (setting : Setting) (rest : Spelling)
  | beforeSign (setting : Setting)
  | value (setting : Setting) (value : ValuePart)
deriving DecidableEq, Repr, Inhabited

end Declaration

/-- A declaration that is being read. -/
structure DeclarationPart where
  declared : Declaration := {}
  place : Declaration.Place := .gap [.version] true
deriving DecidableEq, Repr, Inhabited

namespace DeclarationPart

/-- What the values of a declaration depend on: the version, once it is declared. -/
def dialect (p : DeclarationPart) : Dialect := { version := p.declared.version.getD .v10 }

/-- The declaration, to be read on at another place. -/
def moved (p : DeclarationPart) (place : Declaration.Place) :
    Progress DeclarationPart Declaration := .more { p with place }

/-- A declaration with a token between its settings. The version cannot be left out. -/
def between (p : DeclarationPart) (next : List Declaration.Setting) (spaced : Bool) (t : Token) :
    Except Malformed (Progress DeclarationPart Declaration) :=
  match t with
  | .instructionEnd =>
    if p.declared.version.isSome then .ok (.done p.declared) else .error .badDeclaration
  | .character c =>
    if isSpace c then .ok (p.moved (.gap next true))
    else match next.find? fun s => spaced && s.name.1 == c with
      | some s => .ok (p.moved (.name s {}))
      | none => .error .badDeclaration
  | _ => .error .badDeclaration

/-- A declaration with a token behind the name of a setting. -/
def sign (p : DeclarationPart) (s : Declaration.Setting) (t : Token) :
    Except Malformed (Progress DeclarationPart Declaration) :=
  match t with
  | .equals => .ok (p.moved (.value s {}))
  | .character c => if isSpace c then .ok (p.moved (.beforeSign s)) else .error .badDeclaration
  | _ => .error .badDeclaration

/-- A declaration with another token. The letters behind the first one of a setting's name are read
as a qualified name, whose prefix says nothing. -/
def step (p : DeclarationPart) (t : Token) :
    Except Malformed (Progress DeclarationPart Declaration) :=
  match p.place with
  | .gap next spaced => p.between next spaced t
  | .name s rest =>
    match rest.qualified (· = .equals) t with
    | .error e => .error e
    | .ok (.more rest) => .ok (p.moved (.name s rest))
    | .ok (.done name) => if name.base = s.name.2 then p.sign s t else .error .badDeclaration
  | .beforeSign s => p.sign s t
  | .value s value =>
    match value.step p.dialect t with
    | .error e => .error e
    | .ok (.more value) => .ok (p.moved (.value s value))
    | .ok (.done text) =>
      (p.declared.set s text).map fun declared => .more ⟨declared, .gap s.later false⟩

end DeclarationPart

/-- Where the reading of a processing instruction stands. -/
inductive InstructionPart where
  | name (name : Spelling)
  | data
deriving DecidableEq, Repr, Inhabited

/-- What a processing instruction comes to. -/
inductive Instruction where
  /-- It is complete, and nothing of it is kept. -/
  | passed
  /-- Its name is that of the XML declaration, which begins here. -/
  | declaration
deriving DecidableEq, Repr

namespace InstructionPart

/-- The name `xml` in any letter case, which no processing instruction may have. -/
def isReserved (name : List Char) : Bool := name.map Char.toLower == ['x', 'm', 'l']

/-- A processing instruction with another token. The declaration can only come where a document
starts. White space in place of a name is taken for an empty name. -/
def step (version : Version) (atStart : Bool) (p : InstructionPart) (t : Token) :
    Except Malformed (Progress InstructionPart Instruction) :=
  match p with
  | .name n =>
    match t with
    | .character c =>
      if n.admits c then (n.push c).map fun n => .more (.name n)
      else if isSpace c = false then .error .badInstruction
      else if atStart && n.letters == ['x', 'm', 'l'] then .ok (.done .declaration)
      else if isReserved n.letters then .error .badInstruction
      else .ok (.more .data)
    | .instructionEnd =>
      if n.chars.isEmpty || isReserved n.letters then .error .badInstruction
      else .ok (.done .passed)
    | _ => .error .badInstruction
  | .data =>
    match t with
    | .instructionEnd => .ok (.done .passed)
    | .character c => if version.isChar c then .ok (.more .data) else .error .illegalCharacter
    | _ => .ok (.more .data)

end InstructionPart
end Netconf.Xml
