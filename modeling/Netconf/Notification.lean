import Netconf.Time.Instant
import Netconf.Xml.Printer

/-! Event notifications and the notice that ends a subscription. -/
namespace Netconf

/-- An event: when it happened, and its content, which is already markup. -/
structure Event where
  time : Time.Instant
  content : String
deriving DecidableEq, Repr, Inhabited

namespace Notification

/-- The namespace of notifications. -/
def messageNamespace : String := "urn:ietf:params:xml:ns:netconf:notification:1.0"

/-- The namespace of the notices about subscriptions. -/
def eventsNamespace : String := "urn:ietf:params:xml:ns:netmod:notification"

/-- A notification of something that happened at an instant. -/
def wrap (time : Time.Instant) (content : String) : String :=
  "<notification xmlns=\"" ++ messageNamespace ++ "\"><eventTime>" ++ time.toMillisText ++
    "</eventTime>" ++ content ++ "</notification>"

/-- The notification of an event. -/
def ofEvent (e : Event) : String := wrap e.time e.content

/-- The content of the notice that a subscription has reached its stop time. -/
def completeNotice : Xml.Element :=
  { name := "notificationComplete", space := some eventsNamespace }

/-- The notice that a subscription has reached its stop time. -/
def complete (at_ : Time.Instant) : String :=
  wrap at_ (completeNotice.renderWithin (some messageNamespace))

end Notification
end Netconf
