import Netconf.Xml.Element

/-! The text of an element tree. A default namespace is declared only where it differs from the
one that the parent's text is in, attributes follow in their order, and character data stands
before the children. -/
namespace Netconf.Xml

/-- How a character of an attribute value is written: markup and line ends by reference. -/
def escapeInAttribute : Char → List Char
  | '<' => "&lt;".toList
  | '>' => "&gt;".toList
  | '"' => "&quot;".toList
  | '\'' => "&apos;".toList
  | '&' => "&amp;".toList
  | '\n' => "&#xA;".toList
  | '\r' => "&#xD;".toList
  | c => [c]

/-- How a character of character data is written: markup by reference. -/
def escapeInText : Char → List Char
  | '<' => "&lt;".toList
  | '>' => "&gt;".toList
  | '&' => "&amp;".toList
  | c => [c]

/-- An attribute value between its quotes. -/
def attributeValueChars (value : String) : List Char := value.toList.flatMap escapeInAttribute

/-- Character data as it is written. -/
def textChars (text : String) : List Char := text.toList.flatMap escapeInText

/-- An attribute with the blank before it. -/
def attributeChars (name value : String) : List Char :=
  ' ' :: name.toList ++ '=' :: '"' :: attributeValueChars value ++ ['"']

/-- The declaration of an element's default namespace, where it is not the inherited one. -/
def defaultNamespaceChars (space inherited : Option String) : List Char :=
  match space, inherited with
  | some uri, _ => if inherited = some uri then [] else attributeChars "xmlns" uri
  | none, some _ => attributeChars "xmlns" ""
  | none, none => []

mutual

/-- The text of an element whose parent's text is in the given default namespace. -/
def Element.chars (inherited : Option String) : Element → List Char
  | ⟨name, space, attributes, children, text⟩ =>
    let opening := '<' :: name.toList ++ defaultNamespaceChars space inherited ++
      attributes.flatMap fun a => attributeChars a.name a.value
    if children.isEmpty && text.isEmpty then opening ++ ['/', '>']
    else opening ++ '>' :: textChars text ++ Element.charsOfAll space children ++
      '<' :: '/' :: name.toList ++ ['>']

/-- The texts of some siblings, one after the other. -/
def Element.charsOfAll (inherited : Option String) : List Element → List Char
  | [] => []
  | e :: es => e.chars inherited ++ Element.charsOfAll inherited es

end

mutual

/-- The text of an element before other characters, which are not gone through again. -/
def Element.charsBefore (inherited : Option String) : Element → List Char → List Char
  | ⟨name, space, attributes, children, text⟩, rest =>
    let opening := '<' :: name.toList ++ defaultNamespaceChars space inherited ++
      attributes.flatMap fun a => attributeChars a.name a.value
    if children.isEmpty && text.isEmpty then opening ++ '/' :: '>' :: rest
    else
      let closing := '<' :: '/' :: (name.toList ++ '>' :: rest)
      opening ++ '>' :: (textChars text ++ Element.charsOfAllBefore space children closing)

/-- The texts of some siblings before other characters. -/
def Element.charsOfAllBefore (inherited : Option String) : List Element → List Char → List Char
  | [], rest => rest
  | e :: es, rest => e.charsBefore inherited (Element.charsOfAllBefore inherited es rest)

end

mutual

theorem Element.charsBefore_eq (inherited : Option String) :
    ∀ (e : Element) (rest : List Char), e.charsBefore inherited rest = e.chars inherited ++ rest
  | ⟨name, space, attributes, children, text⟩, rest => by
    unfold Element.charsBefore Element.chars
    split
    · simp
    · simp [Element.charsOfAllBefore_eq space children]

theorem Element.charsOfAllBefore_eq (inherited : Option String) :
    ∀ (es : List Element) (rest : List Char),
      Element.charsOfAllBefore inherited es rest = Element.charsOfAll inherited es ++ rest
  | [], _ => rfl
  | e :: es, rest => by
    simp [Element.charsOfAllBefore, Element.charsOfAll, Element.charsBefore_eq inherited e,
      Element.charsOfAllBefore_eq inherited es]

end

/-- The text of an element inside text of the given default namespace. -/
def Element.renderWithin (inherited : Option String) (e : Element) : String :=
  String.ofList (e.charsBefore inherited [])

theorem Element.renderWithin_eq (inherited : Option String) (e : Element) :
    e.renderWithin inherited = String.ofList (e.chars inherited) := by
  simp [Element.renderWithin, Element.charsBefore_eq]

/-- The text of an element that stands alone. -/
def Element.render (e : Element) : String := e.renderWithin none

end Netconf.Xml
