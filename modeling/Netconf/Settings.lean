import Netconf.Framing.Basic
import Netconf.Json.Value

/-! What an agent can be told when it is started. -/
namespace Netconf

open Json

/-- How an agent serves its session. Times are in milliseconds. -/
structure Settings where
  /-- Where the management server listens. -/
  backendSocket : String := "/var/run/netconf-agent/backend.sock"
  /-- Where events are to be had. Without it subscriptions stay silent. -/
  eventSocket : Option String := none
  /-- The streams of events; without any there is the usual one. -/
  eventStreams : List String := []
  /-- Where snapshots of sessions are published. -/
  stateDir : Option String := none
  pollTimeout : Nat := 500
  teardownGrace : Nat := 1000
  helloTimeout : Nat := 60000
  /-- The size of the largest message that is taken from the client. -/
  maxMessage : Nat := Framing.defaultLimit
  /-- The subject of the client's certificate. -/
  transportIdentity : Option String := none
deriving DecidableEq, Repr, Inhabited

/-- The JSON form of settings. -/
def Settings.toValue (s : Settings) : Value :=
  .object [("backend_socket", .string s.backendSocket),
    ("event_socket", .ofOption .string s.eventSocket),
    ("event_streams", .array (s.eventStreams.map .string)),
    ("state_dir", .ofOption .string s.stateDir), ("poll_timeout_ms", .ofNat s.pollTimeout),
    ("teardown_grace_ms", .ofNat s.teardownGrace), ("hello_timeout_ms", .ofNat s.helloTimeout),
    ("max_message_bytes", .ofNat s.maxMessage),
    ("transport_identity", .ofOption .string s.transportIdentity)]

end Netconf
