import Netconf.Bytes
import Netconf.EventForm
import Netconf.Subscription.Request
import Netconf.Xml.Printer

/-! Where events come from. A subscription opens a feed, on which events and failures follow each
other until it ends or falls silent. The management server's feeds are lines of JSON. -/
namespace Netconf

/-- Why an item of a feed is no event. -/
inductive FeedError where
  /-- A line that describes no event. -/
  | malformed
  /-- A line that is no text. -/
  | undecodable
deriving DecidableEq, Repr

/-- What a feed has still to yield. -/
inductive Feed where
  | silent
  | ended
  | event (e : Event) (rest : Feed)
  | failure (cause : FeedError) (rest : Feed)
deriving DecidableEq, Repr, Inhabited

namespace Feed

/-- The number of items to come. -/
def size : Feed → Nat
  | silent => 0
  | ended => 0
  | event _ rest => rest.size + 1
  | failure _ rest => rest.size + 1

/-- The feed of some items, which ends or falls silent behind them. -/
def ofItems (items : List (Except FeedError Event)) (last : Feed) : Feed :=
  items.foldr (fun item rest =>
    match item with
    | .ok e => event e rest
    | .error cause => failure cause rest) last

/-- The item that a line stands for. A blank line stands for none. -/
def itemOfLine? (line : Bytes) : Option (Except FeedError Event) :=
  match Bytes.toString? line with
  | none => some (.error .undecodable)
  | some text =>
    if (Text.trim text).isEmpty then none
    else some ((Event.ofLine? text).elim (.error .malformed) .ok)

/-- The feed of what the management server sends on a connection, which it closes or holds. A last
line counts without its end where the connection is closed. -/
def ofBytes (bytes : Bytes) (holds : Bool) : Feed :=
  let lines := bytes.splitOn 0x0A
  let complete := if holds then lines.dropLast else lines
  ofItems (complete.filterMap itemOfLine?) (if holds then silent else ended)

end Feed

/-- What sends events: the names of its streams, and the feed that the nth subscription gets. -/
structure EventSource where
  streams : List String := [Subscription.defaultStream]
  feed : Nat → Option Feed
  /-- The subscriptions so far, each with whether it got its feed. -/
  opened : List (Subscription × Bool) := []

namespace EventSource

/-- A source without any events, which leaves its subscribers waiting. -/
def idle : EventSource := { feed := fun _ => some .silent }

/-- Asks for the feed of a subscription. -/
def subscribe (source : EventSource) (s : Subscription) : Option Feed × EventSource :=
  let feed := source.feed source.opened.length
  (feed, { source with opened := source.opened ++ [(s, feed.isSome)] })

/-- The streams of a source that is told which to offer. Without any there is the usual one. -/
def streamsOf (names : List String) : List String :=
  if names.isEmpty then [Subscription.defaultStream] else names

end EventSource

/-- The line that asks the management server for the events of a subscription. -/
def Subscription.line (s : Subscription) : String :=
  Json.Value.render <| .object <|
    ("stream", .string s.stream) ::
      (s.start.map fun t => ("start_time", t.toValue)).toList ++
      (s.stop.map fun t => ("stop_time", t.toValue)).toList ++
      (s.filter.map fun e => ("filter", .string e.render)).toList

end Netconf
