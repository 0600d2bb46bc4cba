import Netconf.Rpc.Error
import Netconf.Rpc.Request
import Netconf.Time.Timestamp

/-! Requests to be told of events: which stream, which of its events, and from when until when. A
subscription with a start time in the past replays what has happened since. -/
namespace Netconf

/-- The valid parameters of a subscription. -/
structure Subscription where
  stream : String
  filter : Option Xml.Element := none
  start : Option Time.Instant := none
  stop : Option Time.Instant := none
deriving DecidableEq, Repr, Inhabited

namespace Subscription

/-- The stream of a subscription that names none. -/
def defaultStream : String := "NETCONF"

/-- Whether past events are asked for. -/
def isReplay (s : Subscription) : Bool := s.start.isSome

/-- The error that blames one of the time parameters. -/
def badTime (name message : String) : Rpc.Error :=
  (((Rpc.Error.ofTag .badElement).onLayer .protocol).about (.badElement name)).saying message

/-- The instant that the first child of the given name spells. -/
def time? (content : Xml.Element) (name : String) : Except Rpc.Error (Option Time.Instant) :=
  match content.child? name with
  | none => .ok none
  | some e =>
    match Time.Instant.ofText e.content with
    | .ok t => .ok (some t)
    | .error cause =>
      .error (badTime name ("Invalid " ++ name ++ " value: " ++ cause.message ++ "."))

/-- Refuses a start time in the future, a stop time without a start time, and one before it. -/
def checkTimes (now : Time.Instant) (start stop : Option Time.Instant) : Except Rpc.Error Unit :=
  match start, stop with
  | none, none => .ok ()
  | none, some _ => .error (badTime "stopTime" "stopTime requires startTime.")
  | some a, stop =>
    if now.before a then .error (badTime "startTime" "startTime is in the future.")
    else match stop with
      | none => .ok ()
      | some b =>
        if b.before a then .error (badTime "stopTime" "stopTime precedes startTime.")
        else .ok ()

/-- The stream that a subscription's element names. -/
def streamOf (content : Xml.Element) : String :=
  ((content.child? "stream").map (·.content)).getD defaultStream

/-- The subscription that a request asks for, where the streams on offer and the present instant
allow it. -/
def ofRequest (request : Rpc.Request) (streams : List String) (now : Time.Instant) :
    Except Rpc.Error Subscription :=
  match request.content.filter (·.name == "create-subscription") with
  | none =>
    .error ((Rpc.Error.ofTag .operationFailed).saying "Corrupted create-subscription request.")
  | some content =>
    let stream := streamOf content
    if stream ∈ streams then do
      let start ← time? content "startTime"
      let stop ← time? content "stopTime"
      checkTimes now start stop
      let filter := (content.child? "filter").map (·.inherit content.attributes)
      return { stream, filter, start, stop }
    else
      .error ((((Rpc.Error.ofTag .invalidValue).onLayer .protocol).about
        (.badElement "stream")).saying ("Requested stream '" ++ stream ++ "' does not exist."))

end Subscription
end Netconf
