import Netconf.Json.Parser
import Netconf.Json.Printer
import Netconf.Json.Record
import Netconf.Notification
import Netconf.Time.Timestamp

/-! The JSON form of instants and of events, one event a line. -/
namespace Netconf

open Json

/-- The timestamp of an instant. -/
def Time.Instant.toValue (t : Time.Instant) : Value := .string t.toText

/-- The instant that a lenient timestamp gives. -/
def Time.Instant.ofValue? (v : Value) : Option Time.Instant :=
  (text? v).bind Time.Instant.ofLenientText?

namespace Event

/-- The record of an event. -/
def toValue (e : Event) : Value :=
  .object [("event_time", e.time.toValue), ("content", .string e.content)]

/-- The event that a record describes. -/
def ofValue? (v : Value) : Option Event := do
  let r ← Record.ofValue? ["event_time", "content"] v
  return { time := ← r.required? "event_time" Time.Instant.ofValue?,
           content := ← r.required? "content" text? }

/-- The event that a line describes. -/
def ofLine? (s : String) : Option Event := (parse? s).bind ofValue?

end Event
end Netconf
