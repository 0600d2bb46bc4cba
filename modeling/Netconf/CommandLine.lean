import Netconf.Settings
import Netconf.Text.Numeral

/-! The command line of an agent. An option is a flag with a value, which stands behind an equals
sign or is the next argument. What the command line leaves open the environment may say. -/
namespace Netconf

/-- What a flag or a variable can set. -/
inductive Setting where
  | backendSocket
  | eventSocket
  | eventStream
  | pollTimeout
  | stateDir
  | teardownGrace
  | helloTimeout
  | maxMessage
deriving DecidableEq, Repr

namespace Setting

/-- All settings, in the order in which the environment is looked at. -/
def all : List Setting :=
  [backendSocket, eventSocket, eventStream, pollTimeout, stateDir, teardownGrace, helloTimeout,
    maxMessage]

/-- The flag of a setting, without its hyphens. -/
def flag : Setting → String
  | backendSocket => "backend-socket"
  | eventSocket => "event-socket"
  | eventStream => "event-stream"
  | pollTimeout => "poll-timeout-ms"
  | stateDir => "state-dir"
  | teardownGrace => "teardown-grace-ms"
  | helloTimeout => "hello-timeout-ms"
  | maxMessage => "max-message-bytes"

/-- The environment variable of a setting. -/
def inEnvironment : Setting → Option String
  | backendSocket => some "NETCONF_AGENT_BACKEND_SOCKET"
  | eventSocket => some "NETCONF_AGENT_EVENT_SOCKET"
  | eventStream => some "NETCONF_AGENT_EVENT_STREAMS"
  | pollTimeout => some "NETCONF_AGENT_POLL_TIMEOUT_MS"
  | stateDir => some "NETCONF_AGENT_STATE_DIR"
  | teardownGrace => none
  | helloTimeout => some "NETCONF_AGENT_HELLO_TIMEOUT_MS"
  | maxMessage => some "NETCONF_AGENT_MAX_MESSAGE_BYTES"

/-- What a setting is for. -/
def purpose : Setting → String
  | backendSocket => "Where the management server listens"
  | eventSocket => "Where events are to be had"
  | eventStream => "Streams of events, separated by commas"
  | pollTimeout => "How long to wait for the client at a time, in milliseconds"
  | stateDir => "Directory for snapshots of the session"
  | teardownGrace => "How long to wait for deliveries at the end, in milliseconds"
  | helloTimeout => "How long to wait for the client's hello, in milliseconds"
  | maxMessage => "Largest message that is taken from the client, in bytes"

/-- The setting of a flag. -/
def ofFlag? (name : String) : Option Setting := all.find? (·.flag == name)

end Setting

/-- Why there are no settings to go by. -/
inductive UsageError where
  | help
  | version
  | unknownArgument (argument : String)
  | missingValue (setting : Setting)
  | emptyPath (setting : Setting)
  | badNumber (setting : Setting) (value : String) (cause : Text.NumeralError)
  /-- A setting that has one value was given twice. -/
  | repeated (setting : Setting)
  /-- A flag that takes no value has one. -/
  | unneededValue (flag : String)
deriving DecidableEq, Repr

/-- The cause in words. -/
def UsageError.message : UsageError → String
  | .help => "help was asked for"
  | .version => "the version was asked for"
  | .unknownArgument argument => "unexpected argument '" ++ argument ++ "'"
  | .missingValue setting => "--" ++ setting.flag ++ " needs a value"
  | .emptyPath setting => "--" ++ setting.flag ++ " needs a path that is not empty"
  | .badNumber setting value cause =>
    "invalid value '" ++ value ++ "' for --" ++ setting.flag ++ ": " ++ cause.message
  | .repeated setting => "--" ++ setting.flag ++ " can be given once only"
  | .unneededValue flag => "--" ++ flag ++ " takes no value"

namespace CommandLine

/-- The lines that explain the command line. -/
def help : List String :=
  "Usage: netconf-agent [OPTIONS]" :: Setting.all.map fun s =>
    "  --" ++ s.flag ++ " <VALUE>  " ++ s.purpose ++
      ((s.inEnvironment.map fun name => " [env: " ++ name ++ "]").getD "")

/-- The name of the program and its version. -/
def version : String := "netconf-agent 0.1.0"

/-- The values that have been given. -/
structure Given where
  backendSocket : Option String := none
  eventSocket : Option String := none
  eventStreams : Option (List String) := none
  pollTimeout : Option Nat := none
  stateDir : Option String := none
  teardownGrace : Option Nat := none
  helloTimeout : Option Nat := none
  maxMessage : Option Nat := none
deriving DecidableEq, Repr, Inhabited

/-- The pieces of a text between commas. -/
def pieces (s : String) : List String := (s.toList.splitOn ',').map String.ofList

/-- A path: any text but the empty one. -/
def path (setting : Setting) (value : String) : Except UsageError String :=
  if value = "" then .error (.emptyPath setting) else .ok value

/-- A count of 64 bits. -/
def count (setting : Setting) (value : String) : Except UsageError Nat :=
  match Text.unsigned 10 Text.maxWord64 value.toList with
  | .ok n => .ok n
  | .error cause => .error (.badNumber setting value cause)

namespace Given

/-- Whether a setting has a value. -/
def has (g : Given) : Setting → Bool
  | .backendSocket => g.backendSocket.isSome
  | .eventSocket => g.eventSocket.isSome
  | .eventStream => g.eventStreams.isSome
  | .pollTimeout => g.pollTimeout.isSome
  | .stateDir => g.stateDir.isSome
  | .teardownGrace => g.teardownGrace.isSome
  | .helloTimeout => g.helloTimeout.isSome
  | .maxMessage => g.maxMessage.isSome

/-- Gives a setting its value; streams are added to those that are there. -/
def put (g : Given) (setting : Setting) (value : String) : Except UsageError Given :=
  match setting with
  | .backendSocket => (path setting value).map fun p => { g with backendSocket := some p }
  | .eventSocket => (path setting value).map fun p => { g with eventSocket := some p }
  | .eventStream => .ok { g with eventStreams := some (g.eventStreams.getD [] ++ pieces value) }
  | .pollTimeout => (count setting value).map fun n => { g with pollTimeout := some n }
  | .stateDir => (path setting value).map fun p => { g with stateDir := some p }
  | .teardownGrace => (count setting value).map fun n => { g with teardownGrace := some n }
  | .helloTimeout => (count setting value).map fun n => { g with helloTimeout := some n }
  | .maxMessage => (count setting value).map fun n => { g with maxMessage := some n }

/-- Gives a setting the value of its flag. Only the flag of streams can be repeated. -/
def putOnce (g : Given) (setting : Setting) (value : String) : Except UsageError Given :=
  if setting ≠ .eventStream ∧ g.has setting then .error (.repeated setting)
  else g.put setting value

/-- Takes what is open from the environment. -/
def complete (g : Given) (environment : String → Option String) : Except UsageError Given :=
  Setting.all.foldlM (fun g setting =>
    if g.has setting then .ok g
    else match setting.inEnvironment.bind environment with
      | some value => g.put setting value
      | none => .ok g) g

/-- The settings, with the usual values where nothing was given. -/
def settings (g : Given) (identity : Option String) : Settings :=
  let usual : Settings := {}
  { backendSocket := g.backendSocket.getD usual.backendSocket
    eventSocket := g.eventSocket
    eventStreams := g.eventStreams.getD []
    stateDir := g.stateDir
    pollTimeout := g.pollTimeout.getD usual.pollTimeout
    teardownGrace := g.teardownGrace.getD usual.teardownGrace
    helloTimeout := g.helloTimeout.getD usual.helloTimeout
    maxMessage := g.maxMessage.getD usual.maxMessage
    transportIdentity := identity }

end Given

/-- What an argument looks like. -/
inductive Argument where
  /-- Two hyphens alone, behind which nothing is a flag. -/
  | separator
  | long (name : String) (value : Option String)
  | short (c : Char)
  | plain (text : String)
deriving DecidableEq, Repr

/-- A long flag: its name, and its value behind an equals sign. -/
def longArgument (cs : List Char) : Argument :=
  let (name, rest) := (cs.takeWhile (· != '='), cs.dropWhile (· != '='))
  .long (String.ofList name)
    (match rest with
      | [] => none
      | _ :: value => some (String.ofList value))

/-- The look of an argument. -/
def Argument.ofText (s : String) : Argument :=
  match s.toList with
  | ['-', '-'] => .separator
  | '-' :: '-' :: cs => longArgument cs
  | '-' :: c :: _ => .short c
  | _ => .plain s

/-- A flag that waits for its value, or whose value has not been looked at. -/
abbrev Pending := Option (Setting × Option String)

/-- Settles what is pending. -/
def settle (g : Given) : Pending → Except UsageError Given
  | none => .ok g
  | some (setting, none) => .error (.missingValue setting)
  | some (setting, some value) => g.putOnce setting value

/-- Reads the arguments. A value that is an argument of its own is looked at when the next flag
begins or the command line ends, so that an unknown argument behind it is found first. -/
def read (g : Given) (pending : Pending) : List String → Except UsageError Given
  | [] => settle g pending
  | arg :: args =>
    match Argument.ofText arg with
    | .separator =>
      match args with
      | [] => settle g pending
      | other :: _ => .error (.unknownArgument other)
    | .short 'h' => settle g pending >>= fun _ => .error .help
    | .short 'V' => settle g pending >>= fun _ => .error .version
    | .short _ => .error (.unknownArgument arg)
    | .long "help" none => settle g pending >>= fun _ => .error .help
    | .long "version" none => settle g pending >>= fun _ => .error .version
    | .long "help" (some _) => .error (.unneededValue "help")
    | .long "version" (some _) => .error (.unneededValue "version")
    | .long name value =>
      match Setting.ofFlag? name with
      | none => .error (.unknownArgument arg)
      | some setting =>
        settle g pending >>= fun g =>
          match value with
          | none => read g (some (setting, none)) args
          | some v => g.putOnce setting v >>= fun g => read g none args
    | .plain text =>
      match pending with
      | some (setting, none) => read g (some (setting, some text)) args
      | _ => .error (.unknownArgument arg)

/-- The settings that a command line and an environment ask for. -/
def settings (args : List String) (environment : String → Option String)
    (identity : Option String) : Except UsageError Settings := do
  let given ← read {} none args
  let given ← given.complete environment
  return given.settings identity

end CommandLine
end Netconf
