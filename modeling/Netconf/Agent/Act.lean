import Netconf.Backend.Server
import Netconf.Session.Conversation
import Netconf.Session.Snapshot

/-! What an agent does, as it can be seen by its partners: the client's session, the management
server, the registry and the journal. -/
namespace Netconf

/-- Whether an agent works under the account of its client. -/
inductive Privileges where
  | switched
  /-- The agent has no other privileges than its client. -/
  | kept
  /-- They cannot be given up. -/
  | refused
deriving DecidableEq, Repr

/-- Something that an agent does. -/
inductive Act where
  /-- It connects with the management server. -/
  | connected
  | askedCapabilities
  /-- It accepts a client, for a user if one is known. -/
  | accepted (server : Capabilities) (username : Option String)
  | gaveUpPrivileges (user : String) (outcome : Privileges)
  | informed (info : Backend.SessionInfo)
  | forwarded (session : SessionId) (request : Rpc.Request)
  | killed (session : SessionId) (target : String)
  /-- It tells the management server that a session ends. -/
  | closed (session : SessionId)
  | inserted (s : Snapshot)
  | updated (s : Snapshot)
  | removed (session : SessionId)
  | waited (outcome : Except SessionError Readiness)
  | received (r : Received)
  | checked (request : Rpc.Request)
  | replied (request : Rpc.Request) (reply : Rpc.Reply)
  | setStatus (s : Status)
  | beganDelivery (request : Rpc.Request)
  /-- It ends the session with the client. -/
  | endedSession
  /-- It writes into the journal of a session. -/
  | noted (session : SessionId) (e : SessionEvent)

end Netconf
