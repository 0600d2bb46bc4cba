import Netconf.Session.Framed

/-! Accepting a client on two streams of bytes. Both sides announce their capabilities in a message
with an end mark; what follows is framed in chunks if both can do that. The streams serve one
session only. -/
namespace Netconf

/-- Whatever can accept a client: its state `α` and the state `σ` of the sessions it yields. -/
class Acceptor (α : Type) (σ : outParam Type) where
  /-- Accepts a client with capabilities of the server, for a user if one is known already. -/
  accept : Capabilities → Option String → α → Except SessionError σ × α

/-- The streams from and to a client, with what its session is to be like. -/
structure ClientStream where
  input : Incoming
  output : Outgoing := {}
  /-- Whether the streams serve a session already. -/
  taken : Bool := false
  id : SessionId
  limit : Nat := Framing.defaultLimit
  source : EventSource
  /-- Who the session is for if nothing else is said. -/
  processUser : Option String := none

namespace ClientStream

/-- What is announced to the client: both versions of the protocol, whatever the server lists. -/
def advertised (server : Capabilities) : Capabilities :=
  server.foldl Capabilities.insert [.ofBase10, .ofBase11]

/-- Sends our opening message. -/
def greet (c : ClientStream) (server : Capabilities) : Except AcceptError Unit × ClientStream :=
  let hello := Hello.render (advertised server) c.id
  let (result, output) := c.output.send (Framing.encode .endOfMessage (Bytes.ofString hello))
  (result.mapError .sending, { c with output })

/-- Reads the client's opening message. A client that falls silent before its end runs out of
time. -/
def hear (c : ClientStream) : Except AcceptError Capabilities × ClientStream :=
  match Framing.read .endOfMessage c.limit c.input with
  | (.message m, input) => ((Hello.parse m).mapError .refused, { c with input })
  | (.failure .closed, input) => (.error .left, { c with input })
  | (.failure e, input) => (.error (.reading e), { c with input })
  | (.blocked, input) => (.error .timedOut, { c with input })

/-- The session with a client of the given capabilities. -/
def session (c : ClientStream) (server client : Capabilities) (username : Option String) :
    FramedSession :=
  { id := c.id
    username := username <|> c.processUser
    capabilities := (advertised server).negotiate client
    framing := if (advertised server).bothChunked client then .chunked else .endOfMessage
    limit := c.limit
    input := c.input
    output := c.output
    source := c.source }

/-- Accepts the client. -/
def accept (c : ClientStream) (server : Capabilities) (username : Option String) :
    Except AcceptError FramedSession × ClientStream :=
  if c.taken then (.error .inUse, c)
  else
    match { c with taken := true }.greet server with
    | (.error e, c) => (.error e, c)
    | (.ok _, c) =>
      match c.hear with
      | (.error e, c) => (.error e, c)
      | (.ok client, c) => (.ok (c.session server client username), c)

instance : Acceptor ClientStream FramedSession where
  accept server username c :=
    let (result, c) := c.accept server username
    (result.mapError .accept, c)

end ClientStream
end Netconf
