import Netconf.Xml.Character
import Netconf.Xml.Malformed

/-! The tokens that a document is made of. What a character means depends on the markup around it,
so the reading of tokens has a mode: a quote is a mark in a tag and a character in a comment. -/
namespace Netconf.Xml

/-- A mark of the markup, or a character that is none. -/
inductive Token where
  | character (c : Char)
  /-- The opening of a start tag. -/
  | tagStart
  /-- The opening of an end tag. -/
  | endTagStart
  /-- The closing of a tag or of a declaration. -/
  | tagEnd
  /-- The closing of a tag that is its own end tag. -/
  | emptyTagEnd
  | equals
  | quote (mark : Char)
  | ampersand
  | semicolon
  | instructionStart
  | instructionEnd
  | commentStart
  | commentEnd
  /-- The opening of a character data section. -/
  | dataStart
  /-- The closing of a character data section. -/
  | dataEnd
  | doctypeStart
  /-- The opening of a declaration inside a document type declaration. -/
  | declarationStart
deriving DecidableEq, Repr, Inhabited

/-- A token as it is written. -/
def Token.spelling : Token → String
  | .character c => String.singleton c
  | .tagStart => "<"
  | .endTagStart => "</"
  | .tagEnd => ">"
  | .emptyTagEnd => "/>"
  | .equals => "="
  | .quote mark => String.singleton mark
  | .ampersand => "&"
  | .semicolon => ";"
  | .instructionStart => "<?"
  | .instructionEnd => "?>"
  | .commentStart => "<!--"
  | .commentEnd => "-->"
  | .dataStart => "<![CDATA["
  | .dataEnd => "]]>"
  | .doctypeStart => "<!DOCTYPE"
  | .declarationStart => "<!"

/-- The markup that the characters ahead belong to. -/
inductive Mode where
  /-- Text and tags. -/
  | content
  | comment
  /-- A character data section. -/
  | data
  | instruction
  /-- A document type declaration, between the declarations in it. -/
  | doctype
  /-- A declaration in a document type declaration. -/
  | declaration
  /-- A quoted literal in such a declaration. -/
  | literal (mark : Char)
deriving DecidableEq, Repr, Inhabited

/-- How tokens are read from here on. -/
structure Lexis where
  mode : Mode := .content
  /-- Whether a document type declaration is open, to which its parts return. -/
  inDoctype : Bool := false
deriving DecidableEq, Repr, Inhabited

/-- A token, how tokens are read behind it, and how many characters it takes besides its first. -/
structure Lexeme where
  token : Token
  next : Lexis
  more : Nat := 0
deriving DecidableEq, Repr, Inhabited

namespace Lexis

/-- Reading on in another mode. -/
def turn (l : Lexis) (mode : Mode) : Lexis := { l with mode }

/-- Reading on behind a piece of markup. -/
def resume (l : Lexis) : Lexis := l.turn (if l.inDoctype then .doctype else .content)

/-- The token that starts with `<!`. Declarations count only in a document type declaration, and
their keyword is not part of the token. -/
def declarationToken (l : Lexis) : List Char → Except Malformed Lexeme
  | '-' :: '-' :: _ => .ok { token := .commentStart, next := l.turn .comment, more := 3 }
  | '[' :: 'C' :: 'D' :: 'A' :: 'T' :: 'A' :: '[' :: _ =>
    .ok { token := .dataStart, next := l.turn .data, more := 8 }
  | 'D' :: 'O' :: 'C' :: 'T' :: 'Y' :: 'P' :: 'E' :: _ =>
    .ok { token := .doctypeStart, next := { mode := .doctype, inDoctype := true }, more := 8 }
  | c :: _ =>
    if l.inDoctype && (c == 'E' || c == 'A' || c == 'N') then
      .ok { token := .declarationStart, next := l.turn .declaration, more := 1 }
    else .error (.unexpected "markup declaration")
  | [] => .error .unexpectedEnd

/-- The token that starts with `<`. The name of a start tag is not part of it. -/
def markupToken (l : Lexis) : List Char → Except Malformed Lexeme
  | '?' :: _ => .ok { token := .instructionStart, next := l.turn .instruction, more := 1 }
  | '/' :: _ => .ok { token := .endTagStart, next := l.resume, more := 1 }
  | '!' :: cs => l.declarationToken cs
  | c :: _ =>
    if isSpace c || isNameChar c then .ok { token := .tagStart, next := l.resume }
    else .error (.unexpected "character behind <")
  | [] => .error .unexpectedEnd

/-- The token that starts with a character of text or of a tag. -/
def contentToken (l : Lexis) (c : Char) (cs : List Char) : Except Malformed Lexeme :=
  match c, cs with
  | '<', _ => l.markupToken cs
  | '>', _ => .ok { token := .tagEnd, next := l }
  | '/', '>' :: _ => .ok { token := .emptyTagEnd, next := l.resume, more := 1 }
  | '/', _ => .ok { token := .character '/', next := l.resume }
  | ']', ']' :: '>' :: _ => .ok { token := .dataEnd, next := l.resume, more := 2 }
  | '=', _ => .ok { token := .equals, next := l }
  | '"', _ => .ok { token := .quote '"', next := l }
  | '\'', _ => .ok { token := .quote '\'', next := l }
  | '&', _ => .ok { token := .ampersand, next := l }
  | ';', _ => .ok { token := .semicolon, next := l }
  | _, _ => .ok { token := .character c, next := l }

/-- The token that starts with a character of a comment. Two hyphens belong to its end. -/
def commentToken (l : Lexis) (c : Char) (cs : List Char) : Except Malformed Lexeme :=
  match c, cs with
  | '-', '-' :: '>' :: _ => .ok { token := .commentEnd, next := l.resume, more := 2 }
  | '-', '-' :: _ => .error (.unexpected "-- in a comment")
  | _, _ => .ok { token := .character c, next := l }

/-- The token that starts with a character of a character data section. -/
def dataToken (l : Lexis) (c : Char) (cs : List Char) : Lexeme :=
  match c, cs with
  | ']', ']' :: '>' :: _ => { token := .dataEnd, next := l.turn .content, more := 2 }
  | _, _ => { token := .character c, next := l }

/-- The token that starts with a character of a processing instruction. The marks of tags are told
apart for the XML declaration, which has the form of an instruction. -/
def instructionToken (l : Lexis) (c : Char) (cs : List Char) : Lexeme :=
  match c, cs with
  | '?', '>' :: _ => { token := .instructionEnd, next := l.resume, more := 1 }
  | '<', _ => { token := .tagStart, next := l }
  | '>', _ => { token := .tagEnd, next := l }
  | '/', _ => { token := .endTagStart, next := l }
  | '=', _ => { token := .equals, next := l }
  | '"', _ => { token := .quote '"', next := l }
  | '\'', _ => { token := .quote '\'', next := l }
  | '&', _ => { token := .ampersand, next := l }
  | ';', _ => { token := .semicolon, next := l }
  | _, _ => { token := .character c, next := l }

/-- The token that starts with a character between the declarations of a document type
declaration, which ends at the first closing mark there, quoted or not. -/
def doctypeToken (l : Lexis) (c : Char) (cs : List Char) : Except Malformed Lexeme :=
  match c with
  | '<' => l.markupToken cs
  | '>' => .ok { token := .tagEnd, next := {} }
  | '"' => .ok { token := .quote '"', next := l }
  | '\'' => .ok { token := .quote '\'', next := l }
  | '&' => .ok { token := .ampersand, next := l }
  | ';' => .ok { token := .semicolon, next := l }
  | _ => .ok { token := .character c, next := l }

/-- The token that starts with a character of a declaration. -/
def innerToken (l : Lexis) (c : Char) : Except Malformed Lexeme :=
  match c with
  | '<' => .error (.unexpected "< in a declaration")
  | '>' => .ok { token := .tagEnd, next := l.resume }
  | '"' => .ok { token := .quote '"', next := l.turn (.literal '"') }
  | '\'' => .ok { token := .quote '\'', next := l.turn (.literal '\'') }
  | '&' => .ok { token := .ampersand, next := l }
  | ';' => .ok { token := .semicolon, next := l }
  | _ => .ok { token := .character c, next := l }

/-- The token that a list of characters starts with, given as its first character and the others. -/
def token (l : Lexis) (c : Char) (cs : List Char) : Except Malformed Lexeme :=
  match l.mode with
  | .content => l.contentToken c cs
  | .comment => l.commentToken c cs
  | .data => .ok (l.dataToken c cs)
  | .instruction => .ok (l.instructionToken c cs)
  | .doctype => l.doctypeToken c cs
  | .declaration => l.innerToken c
  | .literal mark =>
    if c = mark then .ok { token := .quote mark, next := l.turn .declaration }
    else .ok { token := .character c, next := l }

theorem more_le_of_declarationToken {l : Lexis} {cs : List Char} {x : Lexeme}
    (h : l.declarationToken cs = .ok x) : x.more ≤ cs.length + 1 := by
  unfold declarationToken at h
  split at h <;> try split at h
  all_goals first
    | (simp only [Except.ok.injEq] at h; subst h; simp only [List.length_cons]; omega)
    | cases h

theorem more_le_of_markupToken {l : Lexis} {cs : List Char} {x : Lexeme}
    (h : l.markupToken cs = .ok x) : x.more ≤ cs.length := by
  unfold markupToken at h
  split at h
  case h_3 => exact more_le_of_declarationToken h
  all_goals try split at h
  all_goals first
    | (simp only [Except.ok.injEq] at h; subst h; simp)
    | cases h

/-- A token takes no more characters than there are. -/
theorem more_le_of_token {l : Lexis} {c : Char} {cs : List Char} {x : Lexeme}
    (h : l.token c cs = .ok x) : x.more ≤ cs.length := by
  unfold token at h
  split at h
  · unfold contentToken at h
    split at h
    case h_1 => exact more_le_of_markupToken h
    all_goals (simp only [Except.ok.injEq] at h; subst h; simp)
  · unfold commentToken at h
    split at h
    all_goals first
      | (simp only [Except.ok.injEq] at h; subst h; simp)
      | cases h
  · unfold dataToken at h
    split at h <;> (simp only [Except.ok.injEq] at h; subst h; simp)
  · unfold instructionToken at h
    split at h <;> (simp only [Except.ok.injEq] at h; subst h; simp)
  · unfold doctypeToken at h
    split at h
    case h_1 => exact more_le_of_markupToken h
    all_goals (simp only [Except.ok.injEq] at h; subst h; simp)
  · unfold innerToken at h
    split at h
    all_goals first
      | (simp only [Except.ok.injEq] at h; subst h; simp)
      | cases h
  · split at h <;> (simp only [Except.ok.injEq] at h; subst h; simp)

end Lexis
end Netconf.Xml
