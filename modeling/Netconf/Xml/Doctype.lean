import Netconf.Xml.Tag

/-! The document type declaration. Only the entities that it defines matter; all else is passed
over. Parameter entities are replaced where they stand between declarations, and inside the
replacement texts of other entities. -/
namespace Netconf.Xml.Doctype

/-- Where a reading of a document type declaration stands. -/
inductive Place where
  /-- Between declarations. -/
  | between
  /-- Inside a quoted literal between declarations. -/
  | literal (mark : Char)
  | comment
  /-- In the keyword of a declaration, its letters last first. -/
  | keyword (letters : List Char)
  /-- Before the name of an entity. -/
  | beforeName
  | name (name : Spelling)
  /-- Behind the percent sign of a parameter entity's declaration. -/
  | beforeParameterName
  | beforeText (name : String)
  /-- In the replacement text of an entity, its characters last first. -/
  | text (name : String) (chars : List Char)
  /-- Behind an ampersand in a replacement text. -/
  | reference (name : String) (chars : List Char)
  /-- In the number of a character in a replacement text. -/
  | number (name : String) (chars digits : List Char)
  /-- In the name of a parameter entity in a replacement text. -/
  | parameterInText (name : String) (chars parameter : List Char)
  /-- In the name of a parameter entity between declarations. -/
  | parameter (name : List Char)
  /-- In a declaration that says nothing more of interest. -/
  | rest
deriving DecidableEq, Repr, Inhabited

/-- What a token comes to. -/
inductive Step where
  | on (place : Place)
  | define (name text : String) (place : Place)
  /-- A parameter entity is to be replaced by its text. -/
  | insert (text : List Char)
  /-- The declaration has ended. -/
  | finished
deriving Repr

/-- Between declarations only the marks of their parts count. -/
def between (t : Token) : Except Malformed Step :=
  match t with
  | .tagEnd => .ok .finished
  | .declarationStart => .ok (.on (.keyword []))
  | .commentStart => .ok (.on .comment)
  | .quote mark => .ok (.on (.literal mark))
  | .character '%' => .ok (.on (.parameter []))
  | .dataStart => .error .badDoctype
  | .dataEnd => .error .badDoctype
  | _ => .ok (.on .between)

/-- The declaration of a keyword, whose letters are given last first. -/
def declare (letters : List Char) : Except Malformed Step :=
  let keyword := String.ofList letters.reverse
  if keyword = "ENTITY" then .ok (.on .beforeName)
  else if keyword = "NOTATION" ∨ keyword = "ELEMENT" ∨ keyword = "ATTLIST" then .ok (.on .rest)
  else .error .badDoctype

/-- A keyword consists of capital letters and ends at white space. -/
def keyword (letters : List Char) (t : Token) : Except Malformed Step :=
  match t with
  | .character c =>
    if 'A' ≤ c ∧ c ≤ 'Z' then .ok (.on (.keyword (c :: letters)))
    else if isSpace c then declare letters
    else .error .badDoctype
  | _ => .error .badDoctype

/-- The name of an entity begins behind white space; that of a parameter entity behind a percent
sign and white space. -/
def beforeName (parameter : Bool) (t : Token) : Except Malformed Step :=
  match t with
  | .character c =>
    if isSpace c then .ok (.on (if parameter then .beforeParameterName else .beforeName))
    else if c = '%' ∧ parameter = false then .ok (.on .beforeParameterName)
    else if Spelling.admits {} c then
      let start : Spelling := if parameter then Spelling.add {} '%' else {}
      .ok (.on (.name (start.add c)))
    else .error .badDoctype
  | _ => .error .badDoctype

/-- The name of an entity ends at white space. -/
def name (n : Spelling) (t : Token) : Except Malformed Step :=
  match t with
  | .character c =>
    if isSpace c then .ok (.on (.beforeText n.text))
    else if isNameChar c then (n.push c).map fun n => .on (.name n)
    else .error .badDoctype
  | _ => .error .badDoctype

/-- The text of an entity is quoted. An external entity, which says `SYSTEM` or `PUBLIC`, has an
empty text. -/
def beforeText (n : String) (t : Token) : Except Malformed Step :=
  match t with
  | .character c =>
    if isSpace c then .ok (.on (.beforeText n))
    else if c = 'S' ∨ c = 'P' then .ok (.define n "" .rest)
    else .error .badDoctype
  | .quote _ => .ok (.on (.text n []))
  | _ => .error .badDoctype

/-- In a replacement text, characters by number and parameter entities are replaced; references to
other entities stay as they are. -/
def text (version : Version) (n : String) (chars : List Char) (t : Token) :
    Except Malformed Step :=
  match t with
  | .quote _ => .ok (.define n (String.ofList chars.reverse) .rest)
  | .character '&' => .ok (.on (.reference n chars))
  | .character '%' => .ok (.on (.parameterInText n chars []))
  | .character c =>
    if version.isChar c then .ok (.on (.text n (c :: chars))) else .error .illegalCharacter
  | _ => .error .badDoctype

/-- Behind an ampersand stands a number sign, or something that is kept. -/
def reference (version : Version) (n : String) (chars : List Char) (t : Token) :
    Except Malformed Step :=
  match t with
  | .character '#' => .ok (.on (.number n chars []))
  | .character c =>
    if version.isChar c then .ok (.on (.text n (c :: '&' :: chars))) else .error .illegalCharacter
  | _ => .error .badDoctype

/-- The number of a character ends at a semicolon. -/
def number (version : Version) (n : String) (chars digits : List Char) (t : Token) :
    Except Malformed Step :=
  match t with
  | .character ';' =>
    match Reference.numbered? version digits.reverse with
    | some c => .ok (.on (.text n (c :: chars)))
    | none => .error .badReference
  | .character c =>
    if version.isChar c then .ok (.on (.number n chars (c :: digits)))
    else .error .illegalCharacter
  | _ => .error .badDoctype

/-- The text of a parameter entity whose name is given last character first. -/
def parameterText (es : Entities) (parameter : List Char) : Except Malformed (List Char) :=
  es.replace (.entity (String.ofList ('%' :: parameter.reverse)))

/-- A parameter entity in a replacement text becomes part of it. -/
def parameterInText (es : Entities) (n : String) (chars parameter : List Char) (t : Token) :
    Except Malformed Step :=
  match t with
  | .character ';' =>
    (parameterText es parameter).map fun text => .on (.text n (text.reverse ++ chars))
  | .character c =>
    if isNameChar c then .ok (.on (.parameterInText n chars (c :: parameter)))
    else .error .badReference
  | _ => .error .badReference

/-- A parameter entity between declarations is read as part of the document. -/
def parameter (es : Entities) (letters : List Char) (t : Token) : Except Malformed Step :=
  match t with
  | .semicolon => (parameterText es letters).map .insert
  | .character c =>
    if isNameChar c then .ok (.on (.parameter (c :: letters))) else .error .badReference
  | _ => .error .badReference

/-- A document type declaration with another token. -/
def step (d : Dialect) (p : Place) (t : Token) : Except Malformed Step :=
  match p with
  | .between => between t
  | .literal mark => .ok (.on (if t = .quote mark then .between else .literal mark))
  | .comment => .ok (.on (if t = .commentEnd then .between else .comment))
  | .keyword letters => keyword letters t
  | .beforeName => beforeName false t
  | .name n => name n t
  | .beforeParameterName => beforeName true t
  | .beforeText n => beforeText n t
  | .text n chars => text d.version n chars t
  | .reference n chars => reference d.version n chars t
  | .number n chars digits => number d.version n chars digits t
  | .parameterInText n chars letters => parameterInText d.entities n chars letters t
  | .parameter letters => parameter d.entities letters t
  | .rest => .ok (.on (if t = .tagEnd then .between else .rest))

end Netconf.Xml.Doctype
