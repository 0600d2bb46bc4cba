import Netconf.Agent.Dispatch

/-! The life of an agent. In every turn it looks whether it is to go on, waits for the client for a
bounded time, receives at most one message, and replies to it before it looks again. However its
life ends, it ends the session, its task and its entry in the registry. -/
namespace Netconf

/-- Why an agent cannot go on. -/
inductive LoopError where
  | wait (e : SessionError)
  | transport (f : Fault)
  /-- The session has ended under the agent's hands. -/
  | unusable
deriving DecidableEq, Repr

/-- The cause in words. -/
def LoopError.message : LoopError → String
  | .wait e => "readiness wait failed: " ++ e.message
  | .transport f => "transport error: " ++ f.message
  | .unusable => "session no longer usable after an undecodable message"

/-- How an agent's life ends. -/
inductive Exit where
  /-- The agent was asked to end. -/
  | shutdown
  /-- The session has ended, as a rule because the client wished so. -/
  | closed
  /-- The client has gone away. -/
  | hungUp
  | fatal (e : LoopError)
deriving DecidableEq, Repr

namespace Exit

/-- The reason in words. -/
def reason : Exit → String
  | shutdown => "shutdown"
  | closed => "closed"
  | hungUp => "hang-up"
  | fatal e => e.message

/-- What has failed, if anything. -/
def failure? : Exit → Option LoopError
  | fatal e => some e
  | _ => none

/-- Whether all is well. -/
def isSuccess (e : Exit) : Bool := e.failure?.isNone

end Exit

/-- Where a turn leads. -/
inductive Turn where
  | again
  /-- The client is silent in the middle of a message, and the agent waits for its rest. -/
  | blocked
  | stop (exit : Exit)
deriving DecidableEq, Repr

/-- How far an agent gets with what its client has sent. -/
inductive Outcome where
  /-- It waits for the next message. -/
  | idle
  /-- It waits for the rest of a message. -/
  | blocked
  | ended (exit : Exit)
deriving DecidableEq, Repr

namespace Agent

variable {σ δ β ρ : Type} [Conversation σ δ] [Backend.Server β] [Registry ρ]

omit [Backend.Server β] [Registry ρ] in
/-- Looks whether to go on: not if an end was asked for, nor if the session has left its working
status. -/
def look (a : Agent σ δ β ρ) : Option Exit × Agent σ δ β ρ :=
  if a.shutdown.isRequested then (some .shutdown, a)
  else
    let status := Conversation.status a.session
    let a := { a with record := a.record.observe status }
    if status = .working then (none, a) else (some .closed, a)

omit [Conversation σ δ] [Backend.Server β] in
/-- Puts the present state of the record into the registry. -/
def publish (a : Agent σ δ β ρ) : Agent σ δ β ρ :=
  { a with registry := Registry.update a.record.snapshot a.registry }.did
    (.updated a.record.snapshot)

omit [Backend.Server β] [Registry ρ] in
/-- Sends the reply to a request. One that cannot be sent is let go. -/
def answer (r : Rpc.Request) (reply : Rpc.Reply) (a : Agent σ δ β ρ) : Agent σ δ β ρ :=
  { a with session := (Conversation.reply r reply a.session).2 }.did (.replied r reply)

omit [Conversation σ δ] [Backend.Server β] [Registry ρ] in
/-- Lets the task begin that a request has started, if it has. -/
def launch (d : Dispatch) (a : Agent σ δ β ρ) : Agent σ δ β ρ :=
  match d.task with
  | some i => { a.release i with current := some i }.note a.record.subscribed
  | none => a

omit [Conversation σ δ] [Backend.Server β] in
/-- Records a request that has been handled. -/
def count (r : Rpc.Request) (reply : Rpc.Reply) (a : Agent σ δ β ρ) : Agent σ δ β ρ :=
  match a.record.handled r.operation.name (!reply.isOk) with
  | .ok entry => (a.note entry).publish
  | .error _ => a.publish

/-- Handles a request: does what it asks for, replies, and only then lets its task begin. -/
def handle (r : Rpc.Request) (a : Agent σ δ β ρ) : Agent σ δ β ρ :=
  let (d, a) := a.dispatch r
  ((a.answer r d.reply).launch d).count r d.reply

omit [Backend.Server β] in
/-- Handles a message that is no request. It is the end if the session has ended with it. -/
def reject (a : Agent σ δ β ρ) : Turn × Agent σ δ β ρ :=
  let a := (a.note a.record.rejected).publish
  if Conversation.status a.session = .working then (.again, a) else (.stop (.fatal .unusable), a)

omit [Registry ρ] in
/-- Ends a session whose client has gone away. -/
def hangUp (a : Agent σ δ β ρ) : Turn × Agent σ δ β ρ := (.stop .hungUp, a.closeAtServer.2)

/-- Takes note of what has been received and handles it. -/
def heed (r : Received) (a : Agent σ δ β ρ) : Turn × Agent σ δ β ρ :=
  let a := a.did (.received r)
  match r with
  | .nothing => (.again, a)
  | .unknown => a.reject
  | .hungUp => a.hangUp
  | .request r => (.again, a.handle r)

/-- Receives a message and handles it. -/
def receive (a : Agent σ δ β ρ) : Turn × Agent σ δ β ρ :=
  match Conversation.receive a.session with
  | none => (.blocked, a)
  | some (r, session) => { a with session }.heed r

/-- Waits for the client and receives its message if there is one. The tasks go on while nothing
comes. -/
def proceed (a : Agent σ δ β ρ) : Turn × Agent σ δ β ρ :=
  let w := Conversation.wait a.session
  let shutdown := if w.endAsked then a.shutdown.request else a.shutdown
  let a := { a with session := w.session, shutdown }.did (.waited w.outcome)
  match w.outcome with
  | .error e => (.stop (.fatal (.wait e)), a)
  | .ok .timeout => (.again, a.settle)
  | .ok .interrupted => (.again, a)
  | .ok .hungUp => a.hangUp
  | .ok (.fault f) => (.stop (.fatal (.transport f)), a)
  | .ok .ready => a.receive

/-- One turn. -/
def turn (a : Agent σ δ β ρ) : Turn × Agent σ δ β ρ :=
  match a.look with
  | (some exit, a) => (.stop exit, a)
  | (none, a) => a.proceed

omit [Backend.Server β] [Registry ρ] in
/-- How much there is still to be read from the client, at most. -/
def pending (a : Agent σ δ β ρ) : Nat := Conversation.pending a.session

/-- Takes turns for as long as they use up something that the client has sent. -/
def run (a : Agent σ δ β ρ) : Outcome × Agent σ δ β ρ :=
  match a.turn with
  | (.stop exit, a') => (.ended exit, a')
  | (.blocked, a') => (.blocked, a'.settle)
  | (.again, a') => if a'.pending < a.pending then run a' else (.idle, a')
termination_by a.pending

/-- Goes on after an agent had to wait. The turn in which it waited goes on, so that it takes note
of a message before it looks whether to end. -/
def resume (a : Agent σ δ β ρ) : Outcome × Agent σ δ β ρ :=
  match a.proceed with
  | (.stop exit, a) => (.ended exit, a)
  | (.blocked, a) => (.blocked, a.settle)
  | (.again, a) => a.run

omit [Backend.Server β] [Registry ρ] in
/-- Ends the session with the client. -/
def endSession (a : Agent σ δ β ρ) : Agent σ δ β ρ :=
  { a with session := Conversation.close a.session }.did .endedSession

omit [Backend.Server β] [Registry ρ] in
/-- Has the task end that is to end together with the session. -/
def dismiss (a : Agent σ δ β ρ) : Agent σ δ β ρ :=
  match a.current with
  | some i => { (a.finish i).2 with current := none }
  | none => a

omit [Conversation σ δ] [Backend.Server β] in
/-- Takes the session out of the registry and closes its record. -/
def leave (exit : Exit) (a : Agent σ δ β ρ) : Agent σ δ β ρ :=
  let id := a.record.id
  let a := { a with registry := Registry.remove id a.registry }.did (.removed id)
  match a.record.close exit.reason with
  | .ok entry => a.note entry
  | .error _ => a

omit [Backend.Server β] in
/-- Ends everything: the session, its task, its entry in the registry and its record. -/
def cleanup (exit : Exit) (a : Agent σ δ β ρ) : Agent σ δ β ρ :=
  a.endSession.dismiss.leave exit

/-- Cleans up if it is the end. -/
def conclude : Outcome × Agent σ δ β ρ → Outcome × Agent σ δ β ρ
  | (.ended exit, a) => (.ended exit, a.cleanup exit)
  | other => other

/-- Serves the session, up to its end if that is at hand. -/
def serve (a : Agent σ δ β ρ) : Outcome × Agent σ δ β ρ := conclude a.run

end Agent
end Netconf
