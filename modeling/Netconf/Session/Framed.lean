import Netconf.Framing.Read
import Netconf.Session.Conversation
import Netconf.Subscription.Feed
import Netconf.Transport.Outgoing
import Netconf.Xml.Document

/-! A session over two streams of bytes. Messages come and go in frames. A message that is no
request is dropped; one that is a request without an operation, or without an identifier, is
answered here where it can be. Only a broken frame ends the session. -/
namespace Netconf

/-- The state of a session over streams of bytes. -/
structure FramedSession where
  id : SessionId
  username : Option String
  capabilities : Capabilities
  framing : Framing
  /-- The size of the largest message that is taken. -/
  limit : Nat
  input : Incoming
  output : Outgoing := {}
  status : Status := .working
  /-- Whether deliveries of events have been told to end. -/
  tornDown : Bool := false
  source : EventSource

namespace FramedSession

/-- Whether events may be subscribed to now. -/
def notificationsAllowed (s : FramedSession) : Bool :=
  s.capabilities.supportsNotifications && s.status == .working

/-- Writes a message in its frame. -/
def write (s : FramedSession) (payload : String) : Except SessionError Unit × FramedSession :=
  let (result, output) := s.output.send (s.framing.encode (Bytes.ofString payload))
  (result.mapError .write, { s with output })

/-- Waits for something to read. A failing read is used up. -/
def wait (s : FramedSession) : Except SessionError Readiness × FramedSession :=
  if s.status = .terminated then (.error .terminated, s)
  else match s.input with
    | .silent => (.ok .timeout, s)
    | .closed => (.ok .hungUp, s)
    | .byte _ _ => (.ok .ready, s)
    | .fault .interrupted rest => (.ok .interrupted, { s with input := rest })
    | .fault f rest => (.ok (.fault f), { s with input := rest })

/-- The answer to a request without an operation. -/
def noOperation : Rpc.Error :=
  (Rpc.Error.ofTag .malformedMessage).saying "The rpc element carries no operation."

/-- The answer to a request without an identifier. -/
def noMessageId : Rpc.Error :=
  ((((Rpc.Error.ofTag .missingAttribute).onLayer .rpc).saying
    "Missing message-id attribute in the rpc element.").about (.badAttribute "message-id")).about
    (.badElement "rpc")

/-- What a message is taken for, and the error that it is answered with here. -/
def judge (message : Bytes) : Received × Option (List Xml.Attribute × Rpc.Error) :=
  match Xml.Document.parse message with
  | .error _ => (.unknown, none)
  | .ok document =>
    if document.name = "rpc" then
      let identified := (document.attribute? "message-id").isSome
      match document.children with
      | [] => (.unknown, if identified then some (document.attributes, noOperation) else none)
      | content :: _ =>
        if identified then
          (.request (.ofElement document.attributes (content.inherit document.attributes)), none)
        else (.unknown, some (document.attributes, noMessageId))
    else (.unknown, none)

/-- Takes a message and answers it where that is done here; a failing answer is let go. -/
def classify (s : FramedSession) (message : Bytes) : Received × FramedSession :=
  match judge message with
  | (received, none) => (received, s)
  | (received, some (attributes, error)) =>
    (received, (s.write ((Rpc.Reply.error error).render attributes)).2)

/-- Receives a message. Without a result the client is silent in the middle of one. -/
def receive (s : FramedSession) : Option (Received × FramedSession) :=
  match s.framing.read s.limit s.input with
  | (.message m, rest) => some (classify { s with input := rest } m)
  | (.failure .closed, rest) => some (.hungUp, { s with input := rest })
  | (.failure _, rest) => some (.unknown, { s with input := rest, status := .terminated })
  | (.blocked, _) => none

/-- Sends the reply to a request, which repeats the attributes of its message. -/
def reply (s : FramedSession) (request : Rpc.Request) (r : Rpc.Reply) :
    Except SessionError Unit × FramedSession :=
  if s.status = .terminated then (.error .terminated, s)
  else s.write (r.render request.attributes)

/-- Judges the parameters of a subscription. -/
def check (s : FramedSession) (now : Time.Instant) (request : Rpc.Request) : Rpc.Reply :=
  match Subscription.ofRequest request s.source.streams now with
  | .ok _ => .ok
  | .error e => .error e

/-- Ends the session and our side of the stream. -/
def close (s : FramedSession) : FramedSession :=
  { s with status := .terminated, tornDown := true, output := { s.output with shut := true } }

end FramedSession
end Netconf
