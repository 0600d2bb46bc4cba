import Netconf.Capability
import Netconf.Session.Event
import Netconf.Subscription.Slot

/-! The record of a session, which monitors it: who it belongs to, what it can do, its status, and
how many requests of which outcome it has seen. A session that has ended stays ended. -/
namespace Netconf

/-- How often things have happened in a session, in words of 64 bits. -/
structure Counters where
  requests : UInt64 := 0
  badRequests : UInt64 := 0
  errors : UInt64 := 0
  subscriptions : UInt64 := 0
deriving DecidableEq, Repr, Inhabited

/-- The record of a session. -/
structure SessionRecord where
  id : SessionId
  username : Option String
  capabilities : Capabilities
  status : Status := .working
  login : Time.Instant
  counters : Counters := {}
  slot : Slot := {}
deriving DecidableEq, Repr

/-- Why something cannot be recorded. -/
inductive RecordError where
  | requestAfterEnd
  | alreadyClosed
deriving DecidableEq, Repr

/-- The cause in words. -/
def RecordError.message : RecordError → String
  | .requestAfterEnd => "rpc recorded on terminated session"
  | .alreadyClosed => "session already closed"

namespace SessionRecord

/-- The record of a new session, and the event of its beginning. -/
def establish (id : SessionId) (username : Option String) (capabilities : Capabilities)
    (now : Time.Instant) : SessionRecord × SessionEvent :=
  ({ id, username, capabilities, login := now }, .established username capabilities.uris)

/-- Takes over the status of the session itself. -/
def observe (r : SessionRecord) (status : Status) : SessionRecord :=
  if r.status = .terminated then r else { r with status }

/-- Records a handled request. -/
def handled (r : SessionRecord) (operation : String) (failed : Bool) :
    Except RecordError (SessionRecord × SessionEvent) :=
  if r.status = .terminated then .error .requestAfterEnd
  else
    let counters := { r.counters with
      requests := r.counters.requests + 1
      errors := if failed then r.counters.errors + 1 else r.counters.errors }
    .ok ({ r with counters }, .handled operation failed)

/-- Records a message that is no request. -/
def rejected (r : SessionRecord) : SessionRecord × SessionEvent :=
  ({ r with counters := { r.counters with badRequests := r.counters.badRequests + 1 } }, .rejected)

/-- Records the start of a subscription. -/
def subscribed (r : SessionRecord) : SessionRecord × SessionEvent :=
  ({ r with counters := { r.counters with subscriptions := r.counters.subscriptions + 1 } },
    .subscribed)

/-- Records the end of the session. -/
def close (r : SessionRecord) (reason : String) :
    Except RecordError (SessionRecord × SessionEvent) :=
  if r.status = .terminated then .error .alreadyClosed
  else .ok ({ r with status := .terminated }, .closed reason)

end SessionRecord
end Netconf
