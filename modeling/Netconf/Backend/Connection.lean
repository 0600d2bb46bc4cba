import Netconf.Backend.Reason
import Netconf.Backend.Server
import Netconf.Text.Utf8
import Netconf.Xml.Printer

/-! A connection with the management server. Requests and responses are lines of JSON, and one
request is made at a time: each is followed by the reading of one line, whatever that line holds. -/
namespace Netconf.Backend

/-- What the management server does when it has got a request. -/
structure Answer where
  bytes : Bytes
  /-- Whether it closes the connection then. -/
  closes : Bool := false
deriving DecidableEq, Repr, Inhabited

namespace Answer

/-- A line in answer. -/
def line (text : String) : Answer := { bytes := Bytes.ofString text ++ [0x0A] }

/-- The answer of a server that has nothing special to say. -/
def ok : Answer := line Response.ok.toValue.render

end Answer

/-- The state of a connection. -/
structure Connection where
  /-- What the server will answer, request by request. -/
  answers : List Answer
  /-- What has come in and was not read. -/
  unread : Bytes := []
  /-- Whether the server still listens. -/
  isOpen : Bool := true
  /-- The lines that have been sent. -/
  sent : List String := []
deriving DecidableEq, Repr, Inhabited

namespace Connection

/-- The failure to write to a server that is gone. -/
def brokenPipe : String := "Broken pipe (os error 32)"

/-- Sends a line; the server's next answer comes in. -/
def send (c : Connection) (line : String) : Connection :=
  let answer := c.answers.head?.getD .ok
  { answers := c.answers.tail, unread := c.unread ++ answer.bytes, isOpen := !answer.closes,
    sent := c.sent ++ [line] }

/-- Takes a line out of what has come in, with its end. The last line counts without an end; a
server that leaves a line open has nothing more to say. -/
def takeLine (c : Connection) : Bytes × Connection :=
  let (line, rest) := (c.unread.takeWhile (· != 0x0A), c.unread.dropWhile (· != 0x0A))
  (line ++ rest.take 1, { c with unread := rest.drop 1 })

/-- Reads a response. -/
def receive (c : Connection) : Except ServerError Response × Connection :=
  if c.unread.isEmpty then
    (.error (.unreachable "management server closed the connection"), c)
  else
    let (line, c) := c.takeLine
    let result :=
      match Bytes.toString? line with
      | none => .error (.io (((Text.utf8Fault? line).map (·.message)).getD ""))
      | some text =>
        match Response.ofLine? text with
        | some response => .ok response
        | none => .error (.violation (.notResponse (Response.reason text)))
    (result, c)

/-- Makes a request. -/
def call (c : Connection) (request : Request) : Except ServerError Response × Connection :=
  if c.isOpen then (c.send request.line).receive else (.error (.io brokenPipe), c)

/-- What a response means that need only say yes. -/
def approval : Response → Except ServerError Unit
  | .ok => .ok ()
  | .errors list => .error (.rejected ((Response.errors list).rejection?.getD ""))
  | response => .error (.violation (.unexpected response.kind))

/-- What a response means to one who asked for capabilities. -/
def listing : Response → Except ServerError (List String)
  | .capabilities uris => .ok uris
  | .errors list => .error (.rejected ((Response.errors list).rejection?.getD ""))
  | response => .error (.violation (.noCapabilities response.kind))

/-- The reply that says that an operation failed. -/
def operationFailed (message : String) : Rpc.Reply :=
  .error ((Rpc.Error.ofTag .operationFailed).saying message)

/-- The reply to the client that a response stands for. -/
def relayed : Except ServerError Response → Rpc.Reply
  | .ok .ok => .ok
  | .ok (.data content) => .data content
  | .ok (.errors (e :: es)) => .errors (e :: es)
  | .ok _ => operationFailed "Management server returned an unusable reply."
  | .error e => operationFailed ("Management server request failed: " ++ e.message ++ ".")

instance : Server Connection where
  capabilities c :=
    let (result, c) := c.call .getCapabilities
    (result.bind listing, c)
  inform info c :=
    let (result, c) := c.call (.sessionInfo info)
    (result.bind approval, c)
  forward session request c :=
    match request.content with
    | none => (operationFailed "Operation has no body.", c)
    | some content =>
      let (result, c) := c.call (.operation session request.messageId content.render)
      (relayed result, c)
  close session c :=
    let (result, c) := c.call (.closeSession session)
    (result.bind approval, c)
  kill session target c :=
    let (result, c) := c.call (.killSession session target)
    (relayed result, c)

end Connection
end Netconf.Backend
