import Netconf.Json.Value
import Netconf.SessionId
import Netconf.Time.Instant

/-! What happens to a session and is written into its journal. -/
namespace Netconf

open Json

/-- The state of a session: it works, is about to end, or has ended. -/
inductive Status where
  | working
  | terminating
  | terminated
deriving DecidableEq, Repr, Inhabited

namespace Status

/-- The written name of a status. -/
def text : Status → String
  | working => "working"
  | terminating => "terminating"
  | terminated => "terminated"

/-- All statuses. -/
def all : List Status := [working, terminating, terminated]

end Status

/-- Something that happened to a session. -/
inductive SessionEvent where
  | established (username : Option String) (capabilities : List String)
  | handled (operation : String) (failed : Bool)
  | rejected
  | subscribed
  | closed (reason : String)
deriving DecidableEq, Repr, Inhabited

/-- How important an entry of a journal is. -/
inductive Level where
  | debug
  | info
deriving DecidableEq, Repr

/-- The written name of a level. -/
def Level.text : Level → String
  | .debug => "debug"
  | .info => "info"

namespace SessionEvent

/-- The written name of an event's kind. -/
def kind : SessionEvent → String
  | established _ _ => "netconf.session.established"
  | handled _ _ => "netconf.rpc.handled"
  | rejected => "netconf.rpc.rejected"
  | subscribed => "netconf.subscription.started"
  | closed _ => "netconf.session.closed"

/-- Handled requests are of interest in debugging only. -/
def level : SessionEvent → Level
  | handled _ _ => .debug
  | _ => .info

/-- Whether the entry of an event says when it happened. -/
def isDated : SessionEvent → Bool
  | handled _ _ => false
  | _ => true

/-- What the entry of an event says beside its session and its time. -/
def details : SessionEvent → List (String × Value)
  | established username capabilities =>
    [("username", .ofOption .string username), ("capabilities", .array (capabilities.map .string))]
  | handled operation failed => [("operation", .string operation), ("failed", .bool failed)]
  | rejected => []
  | subscribed => []
  | closed reason => [("reason", .string reason)]

/-- The content of an event's entry apart from its time. -/
def undated (session : SessionId) (e : SessionEvent) : List (String × Value) :=
  ("session_id", .ofNat session.value) :: e.details

/-- The content of an event's entry. -/
def payload (session : SessionId) (at_ : Time.Instant) (e : SessionEvent) : Value :=
  .object (e.undated session ++
    if e.isDated then [("occurred_at", .string at_.toOffsetText)] else [])

end SessionEvent
end Netconf
