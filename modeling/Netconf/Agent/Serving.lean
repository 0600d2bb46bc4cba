import Netconf.Agent.Service

/-! An agent at work, which gets what its client sends bit by bit. Between two bits it does all
that it can do, and waits. -/
namespace Netconf

/-- An agent at work. -/
structure Serving (ρ : Type) where
  settings : Settings
  surroundings : Surroundings
  registry : ρ
  /-- Whether the agent has been asked to end. -/
  endAsked : Bool := false
  agent : Option (ServingAgent ρ) := none
  /-- What the handshake has come to as long as there is no agent. -/
  failed : Option (Handshake.Result ClientStream FramedSession Delivery Backend.Connection ρ) :=
    none
  /-- How it ended, if it has. -/
  outcome : Option (Except ServiceError Exit) := none

namespace Serving

variable {ρ : Type}

/-- The client sends something, which is taken note of later. -/
def send (more : Incoming) (s : Serving ρ) : Serving ρ :=
  match s.agent with
  | none => { s with surroundings.input := s.surroundings.input.append more }
  | some a =>
    { s with agent := some { a with session.input := a.session.input.append more } }

/-- Somebody asks the agent to end. -/
def askToEnd (s : Serving ρ) : Serving ρ :=
  { s with
    endAsked := true
    agent := s.agent.map fun a => { a with shutdown := a.shutdown.request } }

/-- The management server has one more answer. -/
def expect (answer : Backend.Answer) (s : Serving ρ) : Serving ρ :=
  { s with
    surroundings.server := s.surroundings.server.map (· ++ [answer])
    agent := s.agent.map fun a => { a with server.answers := a.server.answers ++ [answer] } }

/-- The time has come to an instant, and what waits for it goes on. -/
def tick (now : Time.Instant) (s : Serving ρ) : Serving ρ :=
  { s with surroundings.now := now, agent := s.agent.map (·.waitUntil now) }

/-- What has been written to the client. -/
def written (s : Serving ρ) : Bytes :=
  match s.agent, s.failed with
  | some a, _ => a.session.output.written
  | none, some h => ((h.session.map (·.output)).getD h.acceptor.output).written
  | none, none => []

/-- What the agent has done. -/
def acts (s : Serving ρ) : List Act :=
  match s.agent, s.failed with
  | some a, _ => a.acts
  | none, some h => h.acts
  | none, none => []

/-- The lines that the management server has got. -/
def requests (s : Serving ρ) : List String :=
  match s.agent, s.failed with
  | some a, _ => a.server.sent
  | none, some h => (h.server.map (·.sent)).getD []
  | none, none => []

/-- The subscriptions that have got a feed. -/
def subscriptions (s : Serving ρ) : List Subscription :=
  match s.agent with
  | some a => (a.session.source.opened.filter (·.2)).map (·.1)
  | none => []

/-- The present state of the registry. -/
def published (s : Serving ρ) : ρ :=
  match s.agent, s.failed with
  | some a, _ => a.registry
  | none, some h => h.registry
  | none, none => s.registry

variable [Registry ρ]

/-- Takes over how far the agent has got. -/
def reached (p : Outcome × ServingAgent ρ) (s : Serving ρ) : Serving ρ :=
  let (outcome, agent) := Agent.conclude p
  let s := { s with agent := some agent }
  match outcome with
  | .ended exit => { s with outcome := some (.ok exit) }
  | _ => s

/-- Carries out the handshake. While the client has not said all that it takes, it is not over,
unless time is up. -/
def begin (timeIsUp : Bool) (s : Serving ρ) : Serving ρ :=
  let h := (s.settings.handshake s.surroundings s.registry).run
  match h.outcome with
  | .ok a => s.reached (if s.endAsked then { a with shutdown := a.shutdown.request } else a).run
  | .error e =>
    let s := { s with failed := some h }
    if e = .accept (.accept .timedOut) ∧ !timeIsUp then s
    else { s with outcome := some (.error (.handshake e)) }

/-- Lets the agent do all that it can do. -/
def sync (s : Serving ρ) : Serving ρ :=
  if s.outcome.isSome then s
  else match s.agent with
    | none => s.begin false
    | some a => s.reached a.resume

/-- Lets time pass until something happens by itself, if anything does. -/
def pass (s : Serving ρ) : Option (Serving ρ) :=
  if s.outcome.isSome then none
  else match s.agent with
    | none => some (s.begin true)
    | some a => a.deadline?.map fun t => { s with agent := some (a.waitUntil t) }

end Serving
end Netconf
