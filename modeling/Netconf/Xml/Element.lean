import Netconf.Text.Blank

/-! Element trees: a name without its prefix, the namespace that the name belongs to, attributes
under the names they were written with, child elements, and the character data of the element
itself joined together. Declarations of prefixes are kept as attributes `xmlns:p`. -/
namespace Netconf.Xml

/-- An attribute under the name that it is written with. -/
structure Attribute where
  name : String
  value : String
deriving DecidableEq, Repr, Inhabited

/-- An element with everything below it. -/
structure Element where
  name : String
  space : Option String := none
  attributes : List Attribute := []
  children : List Element := []
  text : String := ""
deriving Repr, Inhabited

namespace Element

/-- The first child of the given name. -/
def child? (e : Element) (name : String) : Option Element :=
  e.children.find? (·.name == name)

/-- The value of the first attribute of the given name. -/
def attribute? (e : Element) (name : String) : Option String :=
  (e.attributes.find? (·.name == name)).map (·.value)

/-- The character data of the element without the blanks at its ends. -/
def content (e : Element) : String := Text.trim e.text

end Element

/-- A declaration of a namespace prefix. -/
def Attribute.isDeclaration (a : Attribute) : Bool := "xmlns:".toList.isPrefixOf a.name.toList

/-- The attributes with those declarations added that they do not make themselves, each once. -/
def inheritDeclarations (own : List Attribute) (inherited : List Attribute) : List Attribute :=
  (inherited.filter (·.isDeclaration)).foldl
    (fun known a => if known.any (·.name == a.name) then known else known ++ [a]) own

/-- The element with the prefix declarations among an ancestor's attributes that it does not make
itself, so that prefixes keep their meaning once the element stands alone. -/
def Element.inherit (e : Element) (inherited : List Attribute) : Element :=
  { e with attributes := inheritDeclarations e.attributes inherited }

mutual

/-- Equality of elements, part by part. -/
def Element.decEq : (a b : Element) → Decidable (a = b)
  | ⟨n, s, as, cs, t⟩, ⟨n', s', as', cs', t'⟩ =>
    if h : n = n' ∧ s = s' ∧ as = as' ∧ t = t' then
      match Element.decEqAll cs cs' with
      | isTrue hc => isTrue (by simp [h, hc])
      | isFalse hc => isFalse (by simp [hc])
    else isFalse (by
      intro e
      injection e with h1 h2 h3 h4 h5
      exact h ⟨h1, h2, h3, h5⟩)

/-- Equality of lists of elements, one by one. -/
def Element.decEqAll : (as bs : List Element) → Decidable (as = bs)
  | [], [] => isTrue rfl
  | [], _ :: _ => isFalse (by simp)
  | _ :: _, [] => isFalse (by simp)
  | a :: as, b :: bs =>
    match Element.decEq a b with
    | isFalse h => isFalse (by simp [h])
    | isTrue h =>
      match Element.decEqAll as bs with
      | isTrue h' => isTrue (by rw [h, h'])
      | isFalse h' => isFalse (by simp [h'])

end

instance : DecidableEq Element := Element.decEq

end Netconf.Xml
