import Netconf.Agent.Serving

/-! A client that follows a script, for rehearsing an agent from its first byte to its last. The
agent does all that it can do before the client goes on, and time passes only where the client has
to wait. -/
namespace Netconf.Rehearsal

/-- What a client does next. -/
inductive ClientStep where
  | send (bytes : Bytes)
  /-- It reads so many messages. -/
  | expect (count : Nat)
  /-- It reads messages in another framing from now on. -/
  | framing (f : Framing)
  | settle
  /-- Somebody asks the agent to end. -/
  | shutdown
  /-- It reads messages until the agent closes the stream. -/
  | stay
deriving DecidableEq, Repr

/-- A performance: an agent, and what its client has read so far. -/
structure Performance (ρ : Type) where
  serving : Serving ρ
  framing : Framing := .endOfMessage
  /-- How many bytes the client has read, and in which messages. -/
  position : Nat := 0
  messages : List Bytes := []
  /-- Why the client reads no more. -/
  stopped : Option FramingError := none

namespace Performance

variable {ρ : Type} [Registry ρ]

omit [Registry ρ] in
/-- The client reads a message, if there is one. -/
def read (p : Performance ρ) : Option (Performance ρ) :=
  let unread := p.serving.written.drop p.position
  let last := if p.serving.outcome.isSome then .closed else .silent
  if p.stopped.isSome then none
  else match p.framing.read Framing.defaultLimit (.ofBytes unread last) with
    | (.message m, rest) =>
      some { p with
        messages := p.messages ++ [m]
        position := p.position + (unread.length - rest.bytes.length) }
    | (.failure e, _) => some { p with stopped := some e }
    | (.blocked, _) => none

omit [Registry ρ] in
/-- The client reads so many messages, as long as there are any. -/
def readUpTo : Nat → Performance ρ → Performance ρ
  | 0, p => p
  | n + 1, p =>
    match p.read with
    | some p => readUpTo n p
    | none => p

omit [Registry ρ] in
/-- The client reads all messages that there are. Each has at least one byte in its frame. -/
def readAll (p : Performance ρ) : Performance ρ := p.readUpTo (p.serving.written.length + 1)

/-- The agent does all that it can do. -/
def sync (p : Performance ρ) : Performance ρ := { p with serving := p.serving.sync }

/-- Lets time pass so many times, as long as anything happens. -/
def pass : Nat → Performance ρ → Performance ρ
  | 0, p => p
  | n + 1, p =>
    match p.serving.pass with
    | some serving => pass n { p with serving }
    | none => p

/-- The client waits for a message, for which it may take the time to pass so many times. -/
def await : Nat → Performance ρ → Performance ρ
  | 0, p => p
  | n + 1, p =>
    match p.read with
    | some p => p
    | none =>
      match p.serving.pass with
      | some serving => await n { p with serving }
      | none => p

omit [Registry ρ] in
/-- How often time can pass for something to happen, at most. -/
def patience (p : Performance ρ) : Nat := ((p.serving.agent.map (·.tasks.length)).getD 0) + 2

/-- One step of the client. One that cannot read on does nothing more. -/
def step (p : Performance ρ) (s : ClientStep) : Performance ρ :=
  if p.stopped.isSome then p
  else match s with
    | .send bytes => { p with serving := p.serving.send (.ofBytes bytes .silent) }
    | .framing framing => { p with framing }
    | .settle => p.sync
    | .shutdown => { p with serving := p.serving.askToEnd }
    | .expect count => (List.range count).foldl (fun p _ => p.await p.patience) p.sync
    | .stay =>
      let p := p.sync
      (p.pass p.patience).readAll

/-- The client closes its side, and reads what is left. -/
def finish (p : Performance ρ) : Performance ρ :=
  { p with serving := p.serving.send .closed }.sync.readAll

/-- Plays a script. -/
def play (script : List ClientStep) (p : Performance ρ) : Performance ρ :=
  (script.foldl step p).finish

end Performance
end Netconf.Rehearsal
