import Netconf.Rpc.Error
import Netconf.Xml.Printer

/-! Replies to requests: success, data that the management server has written, or errors. -/
namespace Netconf.Rpc

/-- The outcome of a request. -/
inductive Reply where
  | ok
  /-- Content that is already markup. -/
  | data (content : String)
  | errors (list : List Error)
deriving DecidableEq, Repr, Inhabited

/-- The namespace of the protocol's messages. -/
def baseNamespace : String := "urn:ietf:params:xml:ns:netconf:base:1.0"

/-- An element without attributes that holds text alone. -/
def textElement (name text : String) : List Char :=
  '<' :: name.toList ++ '>' :: Xml.textChars text ++ '<' :: '/' :: name.toList ++ ['>']

/-- The element of an error's detail. -/
def Detail.chars (d : Detail) : List Char := textElement d.name d.value

/-- The element of one error. What is not known has no element. -/
def Error.chars (e : Error) : List Char :=
  "<rpc-error>".toList ++ textElement "error-type" e.layer.text ++
    textElement "error-tag" e.tag.text ++ textElement "error-severity" e.severity.text ++
    (e.appTag.map (textElement "error-app-tag")).getD [] ++
    (e.path.map (textElement "error-path")).getD [] ++
    (e.message.map fun m =>
      "<error-message xml:lang=\"en\">".toList ++ Xml.textChars m ++
        "</error-message>".toList).getD [] ++
    (if e.info.isEmpty then []
      else "<error-info>".toList ++ e.info.flatMap Detail.chars ++ "</error-info>".toList) ++
    "</rpc-error>".toList

namespace Reply

/-- A reply with one error. -/
def error (e : Error) : Reply := .errors [e]

/-- A reply that carries no list of errors. -/
def isOk : Reply → Bool
  | .errors _ => false
  | _ => true

/-- The errors of a reply. -/
def errorList : Reply → List Error
  | .errors list => list
  | _ => []

/-- What stands inside the element of a reply. -/
def bodyChars : Reply → List Char
  | .ok => "<ok/>".toList
  | .data content => "<data>".toList ++ content.toList ++ "</data>".toList
  | .errors list => list.flatMap Error.chars

/-- The message of a reply, which repeats every attribute of the request. -/
def render (attributes : List Xml.Attribute) (r : Reply) : String :=
  String.ofList <|
    "<rpc-reply".toList ++ Xml.attributeChars "xmlns" baseNamespace ++
      attributes.flatMap (fun a => Xml.attributeChars a.name a.value) ++ '>' ::
      r.bodyChars ++ "</rpc-reply>".toList

end Reply
end Netconf.Rpc
