import Netconf.Agent.Basic

/-! What an agent does about a request. It ends the session and subscribes to events itself; the
management server kills other sessions and carries out everything else. Every request has one
reply. -/
namespace Netconf

/-- What a request comes to: its reply, and the place of the task that it has started. -/
structure Dispatch where
  reply : Rpc.Reply
  task : Option Nat := none
deriving DecidableEq, Repr

namespace Agent

variable {σ δ β ρ : Type}

/-- The reply to a request to end the session that the management server objects to. -/
def notClosed (e : Backend.ServerError) : Rpc.Reply :=
  .error ((Rpc.Error.ofTag .operationFailed).saying
    ("Closing the session failed: " ++ e.message ++ "."))

/-- The reply to a request to kill a session whose content is another one's. -/
def corruptedKill : Rpc.Reply :=
  .error ((Rpc.Error.ofTag .operationFailed).saying "Corrupted kill-session request.")

/-- The reply to a request to kill a session that names none. -/
def missingTarget : Rpc.Reply :=
  .error ((((Rpc.Error.ofTag .missingElement).onLayer .protocol).about
    (.badElement "session-id")).saying "Missing session-id element.")

/-- The reply to a subscription on a session without notifications. -/
def unsupported : Rpc.Reply :=
  .error (((Rpc.Error.ofTag .operationNotSupported).onLayer .protocol).saying
    "Notifications are not supported on this session.")

/-- The reply to a subscription while there is another one. -/
def subscriptionActive : Rpc.Reply :=
  .error (((Rpc.Error.ofTag .operationFailed).onLayer .protocol).saying
    "Another notification subscription is currently active on this session.")

/-- The reply to a subscription for which no task can be started. -/
def notSpawned : Rpc.Reply :=
  .error ((Rpc.Error.ofTag .operationFailed).saying
    "Creating task for sending notifications failed.")

/-- The session that a request wants killed. -/
def killTarget (r : Rpc.Request) : Except Rpc.Reply String :=
  match r.content.filter (·.name == "kill-session") with
  | none => .error corruptedKill
  | some content =>
    match content.children.head?.filter (·.name == "session-id") with
    | none => .error missingTarget
    | some target => .ok target.content

/-- Starts a task, which holds the slot of the session. -/
def spawn (r : Rpc.Request) (slot : Slot) (a : Agent σ δ β ρ) : Agent σ δ β ρ :=
  { a with record := { a.record with slot }, tasks := a.tasks ++ [{ request := r }] }

variable [Conversation σ δ] [Backend.Server β]

/-- Tells the management server that the session ends. -/
def closeAtServer (a : Agent σ δ β ρ) : Except Backend.ServerError Unit × Agent σ δ β ρ :=
  let id := Conversation.id a.session
  let (result, server) := Backend.Server.close id a.server
  (result, { a with server }.did (.closed id))

/-- Ends the session. It ends even if the management server objects. -/
def closeSession (a : Agent σ δ β ρ) : Dispatch × Agent σ δ β ρ :=
  let (result, a) := a.closeAtServer
  let session := Conversation.setStatus .terminating a.session
  let reply := match result with
    | .ok _ => .ok
    | .error e => notClosed e
  ({ reply }, { a with session }.did (.setStatus .terminating))

/-- Has another session killed. -/
def killSession (r : Rpc.Request) (a : Agent σ δ β ρ) : Dispatch × Agent σ δ β ρ :=
  match killTarget r with
  | .error reply => ({ reply }, a)
  | .ok target =>
    let id := Conversation.id a.session
    let (reply, server) := Backend.Server.kill id target a.server
    ({ reply }, { a with server }.did (.killed id target))

omit [Backend.Server β] in
/-- Subscribes to events, where the session can be notified of events, nobody else is subscribed,
the parameters are valid and a task can be started. -/
def createSubscription (r : Rpc.Request) (a : Agent σ δ β ρ) : Dispatch × Agent σ δ β ρ :=
  if !Conversation.enabled a.session Capability.notification then ({ reply := unsupported }, a)
  else if !Conversation.notificationsAllowed a.session then ({ reply := subscriptionActive }, a)
  else match a.record.slot.claim? with
    | none => ({ reply := subscriptionActive }, a)
    | some slot =>
      let reply := Conversation.check a.now r a.session
      let a := a.did (.checked r)
      if !reply.isOk then ({ reply }, a)
      else if !a.canSpawn then ({ reply := notSpawned }, a)
      else ({ reply, task := some a.tasks.length }, a.spawn r slot)

/-- Has the management server carry a request out. -/
def forward (r : Rpc.Request) (a : Agent σ δ β ρ) : Dispatch × Agent σ δ β ρ :=
  let id := Conversation.id a.session
  let (reply, server) := Backend.Server.forward id r a.server
  ({ reply }, { a with server }.did (.forwarded id r))

/-- Does what a request asks for. -/
def dispatch (r : Rpc.Request) (a : Agent σ δ β ρ) : Dispatch × Agent σ δ β ρ :=
  match r.operation with
  | .closeSession => a.closeSession
  | .killSession => a.killSession r
  | .createSubscription => a.createSubscription r
  | .other _ => a.forward r

end Agent
end Netconf
