import Netconf.Capability
import Netconf.Json.Parser
import Netconf.Json.Printer
import Netconf.Rpc.ErrorForm
import Netconf.SessionId

/-! The messages between an agent and its management server. Each is one line of JSON; a member
`request` or `response` says which message it is. -/
namespace Netconf

open Json

/-- The identifier that a value gives. -/
def SessionId.ofValue? (v : Value) : Option SessionId :=
  (count? Text.maxWord32 v).bind SessionId.ofNat?

/-- The number of an identifier. -/
def SessionId.toValue (id : SessionId) : Value := .ofNat id.value

namespace Backend

/-- What the management server is told about a session. -/
structure SessionInfo where
  session : SessionId
  username : Option String
  capabilities : List String
deriving DecidableEq, Repr, Inhabited

namespace SessionInfo

/-- The names of the fields. -/
def fieldNames : List String := ["session_id", "username", "capabilities"]

/-- The fields with their values. -/
def members (i : SessionInfo) : List (String × Value) :=
  [("session_id", i.session.toValue), ("username", .ofOption .string i.username),
    ("capabilities", .array (i.capabilities.map .string))]

/-- The record of a session. -/
def toValue (i : SessionInfo) : Value := .object i.members

/-- What a record says about a session. -/
def ofValue? (v : Value) : Option SessionInfo := do
  let r ← Record.ofValue? fieldNames v
  return { session := ← r.required? "session_id" SessionId.ofValue?,
           username := ← r.optional? "username" text?,
           capabilities := ← r.required? "capabilities" (list? text?) }

end SessionInfo

/-- What an agent asks of the management server. -/
inductive Request where
  | getCapabilities
  | sessionInfo (info : SessionInfo)
  /-- An operation as markup, with the identifier of its message. -/
  | operation (session : SessionId) (messageId : Option String) (markup : String)
  | closeSession (session : SessionId)
  | killSession (session : SessionId) (target : String)
deriving DecidableEq, Repr, Inhabited

namespace Request

/-- The tag that tells which request it is. -/
def tag : Request → String
  | getCapabilities => "get-capabilities"
  | sessionInfo _ => "session-info"
  | operation _ _ _ => "operation"
  | closeSession _ => "close-session"
  | killSession _ _ => "kill-session"

/-- The members besides the tag. -/
def members : Request → List (String × Value)
  | getCapabilities => []
  | sessionInfo info => info.members
  | operation session messageId markup =>
    ("session_id", session.toValue) ::
      (match messageId with
        | some m => [("message_id", .string m)]
        | none => []) ++ [("operation", .string markup)]
  | closeSession session => [("session_id", session.toValue)]
  | killSession session target => [("session_id", session.toValue), ("target", .string target)]

/-- The JSON form of a request. -/
def toValue (r : Request) : Value := .object (("request", .string r.tag) :: r.members)

/-- The request that a value describes. -/
def ofValue? (v : Value) : Option Request := do
  let (tag, rest) ← tagged? "request" v
  match tag with
  | "get-capabilities" => (nothing? rest).map fun _ => getCapabilities
  | "session-info" => (SessionInfo.ofValue? rest).map sessionInfo
  | "operation" =>
    let r ← Record.ofValue? ["session_id", "message_id", "operation"] rest
    return operation (← r.required? "session_id" SessionId.ofValue?)
      (← r.nullable? "message_id" text?) (← r.required? "operation" text?)
  | "close-session" =>
    let r ← Record.ofValue? ["session_id"] rest
    return closeSession (← r.required? "session_id" SessionId.ofValue?)
  | "kill-session" =>
    let r ← Record.ofValue? ["session_id", "target"] rest
    return killSession (← r.required? "session_id" SessionId.ofValue?)
      (← r.required? "target" text?)
  | _ => none

/-- The line of a request, without its end. -/
def line (r : Request) : String := r.toValue.render

end Request

/-- What the management server answers. -/
inductive Response where
  | capabilities (uris : List String)
  | ok
  | data (content : String)
  | errors (list : List Rpc.Error)
deriving DecidableEq, Repr, Inhabited

namespace Response

/-- The name of a response's kind. -/
def kind : Response → String
  | capabilities _ => "capabilities"
  | ok => "ok"
  | data _ => "data"
  | errors _ => "error"

/-- The first of the errors in words, where the response is one of errors. -/
def rejection? : Response → Option String
  | errors [] => some "unspecified error"
  | errors (e :: _) => some e.display
  | _ => none

/-- The members besides the kind. -/
def members : Response → List (String × Value)
  | capabilities uris => [("capabilities", .array (uris.map .string))]
  | ok => []
  | data content => [("content", .string content)]
  | errors list => [("errors", .array (list.map Rpc.Error.toValue))]

/-- The JSON form of a response. -/
def toValue (r : Response) : Value := .object (("response", .string r.kind) :: r.members)

/-- The response that a value describes. -/
def ofValue? (v : Value) : Option Response := do
  let (tag, rest) ← tagged? "response" v
  match tag with
  | "capabilities" =>
    let r ← Record.ofValue? ["capabilities"] rest
    return capabilities (← r.required? "capabilities" (list? text?))
  | "ok" => (nothing? rest).map fun _ => ok
  | "data" =>
    let r ← Record.ofValue? ["content"] rest
    return data (← r.required? "content" text?)
  | "error" =>
    let r ← Record.ofValue? ["errors"] rest
    return errors (← r.required? "errors" (list? (Rpc.Error.ofValue? .whole)))
  | _ => none

/-- The response that a line holds. -/
def ofLine? (s : String) : Option Response := (parse? s).bind ofValue?

end Response
end Backend
end Netconf
