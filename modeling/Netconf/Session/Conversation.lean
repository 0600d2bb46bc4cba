import Netconf.Rpc.Reply
import Netconf.Rpc.Request
import Netconf.Session.Event
import Netconf.Session.Fault

/-! A session as its agent sees it, whatever carries it: something to wait for, to receive requests
from and to reply to, with at most one party that reads and a further one that delivers events. -/
namespace Netconf

/-- What waiting for a client comes to. -/
inductive Readiness where
  | timeout
  /-- The wait was cut short; nothing is wrong. -/
  | interrupted
  | ready
  | hungUp
  | fault (f : Fault)
deriving DecidableEq, Repr

/-- What is received from a client. -/
inductive Received where
  /-- Nothing that the agent need know of. -/
  | nothing
  /-- A message that is no request which can be handled. -/
  | unknown
  /-- The client has closed the stream between messages. -/
  | hungUp
  | request (r : Rpc.Request)
deriving DecidableEq, Repr

/-- The outcome of a wait. -/
structure Wait (σ : Type) where
  outcome : Except SessionError Readiness
  session : σ
  /-- Whether the end of the session was asked for meanwhile. -/
  endAsked : Bool := false

/-- How far a delivery of events has got. -/
inductive Progress (δ : Type) where
  | going (d : δ)
  /-- There is nothing to deliver as yet. -/
  | waiting (d : δ)
  /-- It has come to its end after a number of notifications. -/
  | ended (sent : Nat)
  /-- It broke off without a result. -/
  | failed
deriving Repr

/-- A session. `σ` is its state and `δ` the state of a delivery of events in it. -/
class Conversation (σ : Type) (δ : outParam Type) where
  id : σ → SessionId
  username : σ → Option String
  capabilities : σ → Capabilities
  status : σ → Status
  setStatus : Status → σ → σ
  /-- Whether events may be subscribed to now. -/
  notificationsAllowed : σ → Bool
  /-- How much there is still to be read, at most. -/
  pending : σ → Nat
  /-- Waits for the client, for a bounded time. -/
  wait : σ → Wait σ
  /-- Receives a message; there is no result where the client falls silent in the middle of it. -/
  receive : σ → Option (Received × σ)
  reply : Rpc.Request → Rpc.Reply → σ → Except SessionError Unit × σ
  /-- Judges the parameters of a subscription at an instant. -/
  check : Time.Instant → Rpc.Request → σ → Rpc.Reply
  /-- Begins to deliver the events of a subscription. -/
  subscribe : Time.Instant → Rpc.Request → σ → Progress δ × σ
  /-- One step of a delivery. -/
  deliver : Time.Instant → δ → σ → Progress δ × σ
  /-- How many steps a delivery can take before it has to wait, at most. -/
  backlog : δ → Nat
  /-- When a delivery that waits goes on even if nothing happens. -/
  deadline : δ → Option Time.Instant
  close : σ → σ

namespace Conversation

variable {σ δ : Type} [Conversation σ δ]

/-- Goes on with a delivery until it waits or ends. -/
def drain (now : Time.Instant) (d : δ) (s : σ) : Progress δ × σ :=
  match deliver now d s with
  | (.going d', s') =>
    if backlog σ d' < backlog σ d then drain now d' s' else (.waiting d', s')
  | (p, s') => (p, s')
termination_by backlog σ d

/-- Begins a delivery and takes it as far as it gets. -/
def run (now : Time.Instant) (request : Rpc.Request) (s : σ) : Progress δ × σ :=
  match subscribe now request s with
  | (.going d, s') => drain now d s'
  | (p, s') => (p, s')

/-- Whether the session can use a capability. -/
def enabled (s : σ) (uri : String) : Bool := (capabilities s).has uri

end Conversation
end Netconf
