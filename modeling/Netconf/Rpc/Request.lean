import Netconf.Xml.Element

/-! Requests of a client: an operation with the attributes of its message. -/
namespace Netconf.Rpc

/-- The kinds of operations. All but three are the management server's concern. -/
inductive Operation where
  | closeSession
  | killSession
  | createSubscription
  | other (name : String)
deriving DecidableEq, Repr, Inhabited

namespace Operation

/-- The kind of the operation that an element of the given name asks for. -/
def ofName (name : String) : Operation :=
  match name with
  | "close-session" => closeSession
  | "kill-session" => killSession
  | "create-subscription" => createSubscription
  | _ => other name

/-- The name of the operation's element. -/
def name : Operation → String
  | closeSession => "close-session"
  | killSession => "kill-session"
  | createSubscription => "create-subscription"
  | other name => name

end Operation

/-- A request: the attributes of its message, the kind of its operation, and the operation's
element where there is one. -/
structure Request where
  attributes : List Xml.Attribute
  operation : Operation
  content : Option Xml.Element
deriving DecidableEq, Repr, Inhabited

namespace Request

/-- The request for the operation that an element stands for. -/
def ofElement (attributes : List Xml.Attribute) (content : Xml.Element) : Request :=
  { attributes, operation := .ofName content.name, content := some content }

/-- The identifier that the client gave the message. -/
def messageId (r : Request) : Option String :=
  (r.attributes.find? (·.name == "message-id")).map (·.value)

end Request
end Netconf.Rpc
