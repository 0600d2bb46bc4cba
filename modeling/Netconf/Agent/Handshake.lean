import Netconf.Agent.Basic
import Netconf.Identity
import Netconf.Session.Accept

/-! How an agent comes to serve a session. It connects with the management server, asks it for its
capabilities, finds out who the client is, accepts the client, gives up its privileges, enters the
session into the registry and tells the management server of it, in this order. All but the
privileges must succeed; what was begun is undone if the last step fails. -/
namespace Netconf

/-- Why the management server has nothing to offer. -/
inductive OfferError where
  | server (e : Backend.ServerError)
  | invalid (e : CapabilityError)
  | nothing
deriving DecidableEq, Repr

/-- The cause in words. -/
def OfferError.message : OfferError → String
  | .server e => e.message
  | .invalid e => e.message
  | .nothing => "server advertised no capabilities"

/-- Why no session comes about. -/
inductive HandshakeError where
  | connect (e : Backend.ServerError)
  | capabilities (e : OfferError)
  | identity (e : IdentityError)
  | accept (e : SessionError)
  | inform (e : Backend.ServerError)
deriving DecidableEq, Repr

namespace HandshakeError

/-- The cause in words. -/
def message : HandshakeError → String
  | connect e => "cannot connect to the management server: " ++ e.message
  | capabilities e => "cannot obtain server capabilities: " ++ e.message
  | identity e => "cannot identify the client: " ++ e.message
  | accept e => "session not accepted: " ++ e.message
  | inform e => "session info exchange failed: " ++ e.message

/-- What lies behind the cause, one thing behind the other. -/
def sources : HandshakeError → List String
  | connect e => e.message :: e.source?.toList
  | capabilities _ => []
  | identity e => [e.message]
  | accept e => [e.message]
  | inform e => e.message :: e.source?.toList

end HandshakeError

/-- The partners of an agent before it has a session. -/
structure Handshake (α β ρ : Type) where
  /-- Accepts the client. -/
  acceptor : α
  registry : ρ
  /-- What connecting with the management server comes to. -/
  connection : Except Backend.ServerError β
  /-- The subject of the client's certificate. -/
  identity : Option String := none
  /-- What giving up one's privileges in favour of a user comes to. -/
  privileges : String → Privileges := fun _ => .kept
  now : Time.Instant

/-- What a handshake comes to. -/
structure Handshake.Result (α σ δ β ρ : Type) where
  /-- The agent of the session, or why there is none. -/
  outcome : Except HandshakeError (Agent σ δ β ρ)
  acceptor : α
  registry : ρ
  /-- The connection with the management server, if there is one. -/
  server : Option β := none
  /-- The session, if the client has been accepted. -/
  session : Option σ := none
  acts : List Act

namespace Handshake

variable {α σ δ β ρ : Type}

/-- The capabilities of a server that lists some. -/
def offer (listed : Except Backend.ServerError (List String)) : Except OfferError Capabilities :=
  match listed with
  | .error e => .error (.server e)
  | .ok uris =>
    match Capabilities.ofTexts uris with
    | .error e => .error (.invalid e)
    | .ok [] => .error .nothing
    | .ok cs => .ok cs

/-- The user that the client's certificate names, if there is one. -/
def user? (identity : Option String) : Except IdentityError (Option String) :=
  match identity with
  | none => .ok none
  | some subject => (Identity.username subject).map some

/-- A handshake that has failed before a client was accepted. -/
def fail (h : Handshake α β ρ) (server : Option β) (e : HandshakeError) (acts : List Act) :
    Result α σ δ β ρ :=
  { outcome := .error e, acceptor := h.acceptor, registry := h.registry, server, acts }

/-- What is told of a session. -/
def infoOf (r : SessionRecord) : Backend.SessionInfo :=
  { session := r.id, username := r.username, capabilities := r.capabilities.uris }

variable [Conversation σ δ] [Backend.Server β] [Registry ρ]

/-- Enters an accepted session into the registry and tells the management server of it. -/
def introduce (h : Handshake α β ρ) (server : β) (user : Option String) (session : σ)
    (acts : List Act) : Result α σ δ β ρ :=
  let id := Conversation.id session
  let username := Conversation.username session <|> user
  let givenUp := username.toList.map fun u => Act.gaveUpPrivileges u (h.privileges u)
  let (record, established) :=
    SessionRecord.establish id username (Conversation.capabilities session) h.now
  let registry := Registry.insert record.snapshot h.registry
  let info := infoOf record
  let (result, server) := Backend.Server.inform info server
  let acts := acts ++ givenUp ++
    [.noted id established, .inserted record.snapshot, .informed info]
  match result with
  | .error e =>
    let session := Conversation.close session
    { outcome := .error (.inform e), acceptor := h.acceptor, server, session := some session
      registry := Registry.remove id registry, acts := acts ++ [.removed id, .endedSession] }
  | .ok _ =>
    { outcome := .ok { session, server, record, registry, now := h.now, acts }
      acceptor := h.acceptor, server, session := some session, registry, acts }

/-- Carries the handshake out. -/
def run [Acceptor α σ] (h : Handshake α β ρ) : Result α σ δ β ρ :=
  match h.connection with
  | .error e => h.fail none (.connect e) [.connected]
  | .ok server =>
    let acts := [.connected, .askedCapabilities]
    let (listed, server) := Backend.Server.capabilities server
    match offer listed with
    | .error e => h.fail server (.capabilities e) acts
    | .ok capabilities =>
      match user? h.identity with
      | .error e => h.fail server (.identity e) acts
      | .ok user =>
        let acts := acts ++ [.accepted capabilities user]
        let (accepted, acceptor) := Acceptor.accept capabilities user h.acceptor
        let h := { h with acceptor }
        match accepted with
        | .error e => h.fail server (.accept e) acts
        | .ok session => h.introduce server user session acts

end Handshake
end Netconf
