import Netconf.Xml.Element
import Netconf.Xml.Malformed
import Netconf.Xml.Name

/-! Namespace scopes: which namespace each prefix stands for, the empty prefix for the default
namespace. Bindings of an element come before those of its ancestors. -/
namespace Netconf.Xml

/-- Prefixes with their namespaces, the innermost binding first. -/
abbrev Scope := List (String × String)

namespace Scope

/-- A reserved namespace: the scheme and the authority that both of them share, and a path. -/
def reservedUri (path : String) : String := "http" ++ "://www.w3.org/" ++ path

/-- The namespace of the prefix `xml`. -/
def xmlUri : String := reservedUri "XML/1998/namespace"

/-- The namespace of the prefix `xmlns`. -/
def xmlnsUri : String := reservedUri "2000/xmlns/"

/-- What is bound outside every element: the two reserved prefixes, and no default namespace. -/
def outermost : Scope := [("xml", xmlUri), ("xmlns", xmlnsUri), ("", "")]

/-- The namespace bound to a prefix. -/
def find? (s : Scope) (pfx : String) : Option String :=
  (List.find? (·.1 == pfx) s).map (·.2)

/-- The namespace that an element's name belongs to; an empty one means none. -/
def resolve (s : Scope) (name : QName) : Except Malformed (Option String) :=
  match s.find? (name.pfx.getD "") with
  | none => .error (.unboundPrefix name.text)
  | some uri => .ok (if uri.isEmpty then none else some uri)

end Scope

/-- The prefix that an attribute binds, the empty one for a default namespace. -/
def QName.binds? (name : QName) : Option String :=
  match name.pfx with
  | some "xmlns" => some name.base
  | none => if name.base = "xmlns" then some "" else none
  | _ => none

/-- Whether a prefix may be bound to a namespace. -/
def checkBinding (pfx uri : String) : Except Malformed Unit :=
  if pfx = "" then
    if uri = "xml" ∨ uri = "xmlns" ∨ uri = Scope.xmlUri ∨ uri = Scope.xmlnsUri then
      .error .reservedNamespace
    else .ok ()
  else if pfx = "xmlns" then .error .reservedPrefix
  else if pfx = "xml" ∧ uri ≠ Scope.xmlUri then .error .reservedPrefix
  else if uri = "" then .error .emptyBinding
  else .ok ()

/-- The bindings among the attributes of a tag, in their order; of several bindings of one prefix
the first counts, since look-ups find it first. -/
def bindings (attributes : List (QName × String)) : List (String × String) :=
  attributes.filterMap fun a => (a.1.binds?).map (·, a.2)

/-- The attributes of a tag that bind nothing. -/
def plainAttributes (attributes : List (QName × String)) : List (QName × String) :=
  attributes.filter fun a => a.1.binds?.isNone

/-- Puts a declaration at its place in the order of prefixes; one of a known prefix is dropped. -/
def insertBinding (b : String × String) : List (String × String) → List (String × String)
  | [] => [b]
  | c :: cs =>
    if b.1 = c.1 then c :: cs
    else if b.1 < c.1 then b :: c :: cs
    else c :: insertBinding b cs

/-- The prefixes that the bindings of a tag give another meaning than the scope around it, in
their order. The default namespace and the reserved prefixes are no part of it. -/
def declarations (own : List (String × String)) (outer : Option Scope) : List Attribute :=
  let counted := own.filter fun b =>
    b.1 ≠ "" && b.1 ≠ "xml" && b.1 ≠ "xmlns"
  let sorted := counted.foldl (fun known b => insertBinding b known) []
  let changed := sorted.filter fun b => outer.bind (·.find? b.1) ≠ some b.2
  changed.map fun b => ⟨"xmlns:" ++ b.1, b.2⟩

end Netconf.Xml
