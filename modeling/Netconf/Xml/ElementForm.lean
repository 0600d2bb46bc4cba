import Netconf.Json.Record
import Netconf.Xml.Element

/-! The JSON form of element trees. -/
namespace Netconf.Xml

open Json

/-- The record of an attribute. -/
def Attribute.toValue (a : Attribute) : Value :=
  .object [("name", .string a.name), ("value", .string a.value)]

/-- The attribute that a record describes. -/
def Attribute.ofValue? (v : Value) : Option Attribute := do
  let r ← Record.ofValue? ["name", "value"] v
  return { name := ← r.required? "name" text?, value := ← r.required? "value" text? }

namespace Element

mutual

/-- The record of an element. -/
def toValue : Element → Value
  | ⟨name, space, attributes, children, text⟩ =>
    .object [("name", .string name), ("namespace", .ofOption .string space),
      ("attributes", .array (attributes.map Attribute.toValue)),
      ("children", .array (toValues children)), ("text", .string text)]

/-- The records of some elements. -/
def toValues : List Element → List Value
  | [] => []
  | e :: es => e.toValue :: toValues es

end

/-- The element that a record describes, where it is nested no deeper than so many levels. -/
def ofValueWithin? : (levels : Nat) → Value → Option Element
  | 0, _ => none
  | levels + 1, v => do
    let r ← Record.ofValue? ["name", "namespace", "attributes", "children", "text"] v
    return {
      name := ← r.required? "name" text?
      space := ← r.optional? "namespace" text?
      attributes := ← r.required? "attributes" (list? Attribute.ofValue?)
      children := ← r.required? "children" (list? (ofValueWithin? levels))
      text := ← r.required? "text" text? }

/-- Elements lie inside each other at most so deep; each takes an object and an array. -/
def maxLevels : Nat := 63

/-- The element that a record describes. -/
def ofValue? (v : Value) : Option Element := ofValueWithin? maxLevels v

end Element
end Netconf.Xml
