import Netconf.Agent.Handshake
import Netconf.Agent.Loop
import Netconf.Backend.Connection
import Netconf.Settings
import Netconf.Subscription.Delivery

/-! An agent in its surroundings: which parts it is put together from as its settings ask, and why
it may fail before it has a session to serve. -/
namespace Netconf

/-- Why an agent does not come to serve a session. -/
inductive ServiceError where
  /-- The directory for snapshots cannot be prepared, for a reason of the system. -/
  | stateDir (path reason : String)
  | handshake (e : HandshakeError)
deriving DecidableEq, Repr

/-- What has failed, and what lies behind it, one thing behind the other. -/
def ServiceError.chain : ServiceError → List String
  | .stateDir path reason =>
    ["preparing state directory " ++ path, "creating session state dir " ++ path, reason]
  | .handshake e => "session handshake failed" :: e.message :: e.sources

/-- What an agent finds around it. -/
structure Surroundings where
  /-- What the client sends. -/
  input : Incoming := .silent
  /-- The identifier of the session. -/
  id : SessionId
  /-- Whose account the agent runs under. -/
  user : Option String := none
  /-- What the management server answers, or why it cannot be reached. -/
  server : Except String (List Backend.Answer)
  /-- What the nth subscription gets where events are to be had. -/
  feed : Nat → Option Feed := fun _ => none
  privileges : String → Privileges := fun _ => .kept
  now : Time.Instant

namespace Settings

/-- The connection with the management server. -/
def connection (s : Settings) (w : Surroundings) :
    Except Backend.ServerError Backend.Connection :=
  match w.server with
  | .ok answers => .ok { answers }
  | .error reason => .error (.unreachable (s.backendSocket ++ ": " ++ reason))

/-- The source of events. Without a place to get them from subscriptions stay silent. -/
def source (s : Settings) (w : Surroundings) : EventSource :=
  match s.eventSocket with
  | none => .idle
  | some _ => { streams := EventSource.streamsOf s.eventStreams, feed := w.feed }

/-- The streams from and to the client. -/
def clientStream (s : Settings) (w : Surroundings) : ClientStream :=
  { input := w.input, id := w.id, limit := s.maxMessage, source := s.source w,
    processUser := w.user }

/-- The handshake that leads to the session. -/
def handshake {ρ : Type} (s : Settings) (w : Surroundings) (registry : ρ) :
    Handshake ClientStream Backend.Connection ρ :=
  { acceptor := s.clientStream w, registry, connection := s.connection w,
    identity := s.transportIdentity, privileges := w.privileges, now := w.now }

end Settings

/-- An agent whose client and management server are at the other ends of streams. -/
abbrev ServingAgent (ρ : Type) := Agent FramedSession Delivery Backend.Connection ρ

end Netconf
