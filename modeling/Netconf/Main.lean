import Netconf.Agent.ActForm
import Netconf.Agent.Serving
import Netconf.CommandLine
import Std.Time.DateTime.Timestamp

/-! The program: an agent that serves one session on its standard streams. The management server is
at the other end of a stream, and events are lines of a file. Nothing is decided here; what the
agent does next is a value of `Serving`, and its acts are carried out in the order in which it
gives them. -/
namespace Netconf.Program

/-- The present instant. -/
def present : IO Time.Instant := do
  let t ← Std.Time.Timestamp.now
  let nanos := t.toNanosecondsSinceUnixEpoch.toInt
  return { seconds := nanos / 1000000000, nanos := (nanos % 1000000000).toNat }

/-- Bytes up to one that ends them, or to the end of the stream. -/
partial def readThrough (ends : UInt8 → Bool) (next : IO ByteArray) (bytes : Bytes := []) :
    IO Bytes := do
  match (← next).toList with
  | [] => return bytes.reverse
  | b :: _ =>
    if ends b then return (b :: bytes).reverse
    readThrough ends next (b :: bytes)

/-- Whether a message can end with a byte, in either framing. -/
def endsPiece (b : UInt8) : Bool := b = 0x3E || b = 0x0A

/-- The streams to and from the management server. -/
structure Link where
  outgoing : IO.FS.Handle
  incoming : IO.FS.Handle

/-- Connects with the management server, or finds out why that cannot be. -/
def connect (path : String) : IO (Except String Link) := do
  try
    let outgoing ← IO.FS.Handle.mk path .readWrite
    let incoming ← IO.FS.Handle.mk path .readWrite
    return .ok { outgoing, incoming }
  catch e => return .error (toString e)

/-- Sends a line and takes the answer. A server that answers nothing has gone. -/
def Link.ask (link : Link) (line : String) : IO Backend.Answer := do
  let bytes ← try
      link.outgoing.putStr (line ++ "\n")
      link.outgoing.flush
      readThrough (· = 0x0A) (link.incoming.read 1)
    catch _ => pure []
  return { bytes, closes := bytes.getLast? ≠ some 0x0A }

/-- What an agent at work has to do with, and how much of what it did is carried out. -/
structure Partners (ρ : Type) where
  link : Option Link
  /-- Publishes a state of the registry in place of an earlier one. -/
  publish : ρ → ρ → IO Unit
  answers : Nat := 0
  written : Nat := 0
  noted : Nat := 0
  published : ρ

variable {ρ : Type}

/-- Lets the agent get on, and has the management server answer what it is asked meanwhile: with
every answer the agent goes the same way once more, as far as it now can. -/
partial def Partners.advance (p : Partners ρ) (step : Serving ρ → Serving ρ) (s : Serving ρ) :
    IO (Serving ρ × Partners ρ) := do
  let reached := step s
  match p.link, reached.requests[p.answers]? with
  | some link, some line =>
    let s := s.expect (← link.ask line)
    { p with answers := p.answers + 1 }.advance step s
  | _, _ => return (reached, p)

/-- Carries out what the agent has done. -/
def Partners.carryOut (p : Partners ρ) (s : Serving ρ) : IO (Partners ρ) := do
  let output ← IO.getStdout
  let bytes := s.written.drop p.written
  unless bytes.isEmpty do
    output.write ⟨bytes.toArray⟩
    output.flush
  for entry in (s.acts.drop p.noted).filterMap Act.entry? do
    IO.eprintln entry.render
  p.publish p.published s.published
  return { p with written := s.written.length, noted := s.acts.length, published := s.published }

/-- A task that ends after some milliseconds. -/
def timer (millis : Nat) : BaseIO (Task (Except IO.Error (Option Bytes))) :=
  IO.asTask do
    IO.sleep (UInt32.ofNat (max 1 (min millis 1000)))
    return none

/-- A task that reads a piece of what the client sends. -/
def reading : BaseIO (Task (Except IO.Error (Option Bytes))) := do
  let input ← IO.getStdin
  IO.asTask (some <$> readThrough endsPiece (input.read 1))

/-- What the agent takes note of when a task has ended: more input, or that time has passed. -/
def heard (got : Except IO.Error (Option Bytes)) : Option Incoming :=
  match got with
  | .ok none => none
  | .ok (some bytes) =>
    let closed := !bytes.getLast?.any endsPiece
    some (.ofBytes bytes (if closed then .closed else .silent))
  | .error _ => some .closed

variable [Registry ρ]

/-- Serves until the end, whatever comes first at each time: input from the client, or the time to
look at the clock. -/
partial def serve (p : Partners ρ) (s : Serving ρ) (begun : Time.Instant)
    (input clock : Task (Except IO.Error (Option Bytes))) : IO (Except ServiceError Exit) := do
  let p ← p.carryOut s
  if let some outcome := s.outcome then return outcome
  let got ← IO.waitAny [input, clock]
  let now ← present
  let s := s.tick now
  match heard got with
  | some more =>
    let (s, p) ← p.advance Serving.sync (s.send more)
    serve p s begun (← if s.outcome.isSome then pure input else reading) clock
  | none =>
    let late := s.agent.isNone && (begun.addMillis s.settings.helloTimeout).before now
    let (s, p) ← if late then p.advance (Serving.begin true) s else pure (s, p)
    serve p s begun input (← timer s.settings.pollTimeout)

/-- Serves a session as the settings ask for. -/
def run (settings : Settings) (registry : ρ) (publish : ρ → ρ → IO Unit) :
    IO (Except ServiceError Exit) := do
  let now ← present
  let link ← connect settings.backendSocket
  let events ← match settings.eventSocket with
    | none => pure none
    | some path => try some <$> IO.FS.readBinFile path catch _ => pure none
  let surroundings : Surroundings := {
    id := (SessionId.ofNat? (← IO.rand 1 2147483647)).getD default
    user := (← IO.getEnv "USER") <|> (← IO.getEnv "LOGNAME")
    server := link.map fun _ => []
    feed := fun _ => events.map fun bytes => Feed.ofBytes bytes.toList true
    now }
  let partners : Partners ρ := { link := link.toOption, publish, published := registry }
  let (s, partners) ← partners.advance Serving.sync { settings, surroundings, registry }
  serve partners s now (← if s.outcome.isSome then timer 0 else reading)
    (← timer settings.pollTimeout)

/-- Brings the files of a directory to a new state. What fails is left. -/
def publishFiles (path : String) (old new : FileRegistry) : IO Unit := do
  let place (name : String) : String := path ++ "/" ++ name
  for (name, _) in old.directory.listing do
    if (new.directory.find? name).isNone then
      try IO.FS.removeFile (place name) catch _ => pure ()
  for (name, entry) in new.directory.listing do
    match entry with
    | .directory => pure ()
    | .file content =>
      if old.directory.read? name ≠ some content then
        try
          IO.FS.writeBinFile (place (name ++ ".tmp")) ⟨content.toArray⟩
          IO.FS.rename (place (name ++ ".tmp")) (place name)
        catch _ => pure ()

/-- Serves a session with the registry that the settings ask for. -/
def runWithRegistry (settings : Settings) : IO (Except ServiceError Exit) := do
  match settings.stateDir with
  | none => run settings ({} : MemoryRegistry) fun _ _ => pure ()
  | some path =>
    let failed ← try IO.FS.createDirAll path; pure none catch e => pure (some (toString e))
    match failed with
    | some reason => return .error (.stateDir path reason)
    | none => run settings ({} : FileRegistry) (publishFiles path)

/-- The values of the environment variables that count. -/
def environment : IO (String → Option String) := do
  let values ← (Setting.all.filterMap Setting.inEnvironment).mapM fun name => do
    return (name, ← IO.getEnv name)
  return fun name => (values.lookup name).join

end Netconf.Program

open Netconf in
/-- Serves one session, as the command line says. -/
def main (args : List String) : IO UInt32 := do
  let identity := (← IO.getEnv "SSL_CLIENT_DN").filter (· ≠ "")
  match CommandLine.settings args (← Program.environment) identity with
  | .error .help =>
    for line in CommandLine.help do
      IO.println line
    return 0
  | .error .version =>
    IO.println CommandLine.version
    return 0
  | .error e =>
    IO.eprintln ("error: " ++ e.message)
    return 2
  | .ok settings =>
    match ← Program.runWithRegistry settings with
    | .ok exit => return if exit.isSuccess then 0 else 1
    | .error e =>
      IO.eprintln ("agent failed: " ++ ": ".intercalate e.chain)
      return 1
