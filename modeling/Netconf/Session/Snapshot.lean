import Netconf.Backend.Message
import Netconf.EventForm
import Netconf.Session.Record

/-! What is kept of a session's record: all but its subscription, of which nothing outlives the
session. -/
namespace Netconf

open Json

/-- The lasting part of a session's record. -/
structure Snapshot where
  id : SessionId
  username : Option String
  capabilities : Capabilities
  status : Status
  login : Time.Instant
  counters : Counters
deriving DecidableEq, Repr

/-- The lasting part of a record. -/
def SessionRecord.snapshot (r : SessionRecord) : Snapshot :=
  { id := r.id, username := r.username, capabilities := r.capabilities, status := r.status,
    login := r.login, counters := r.counters }

/-- The record that a snapshot gives back, without a subscription. -/
def Snapshot.restore (s : Snapshot) : SessionRecord :=
  { id := s.id, username := s.username, capabilities := s.capabilities, status := s.status,
    login := s.login, counters := s.counters }

/-- The URI of a capability. -/
def Capability.toValue (c : Capability) : Value := .string c.uri

/-- The capability that a text names. -/
def Capability.ofValue? (v : Value) : Option Capability :=
  (text? v).bind fun s => (Capability.ofText s).toOption

/-- The status that a value names. -/
def Status.ofValue? (v : Value) : Option Status := case? .direct Status.all Status.text v

namespace Counters

/-- The names of the counters. -/
def fieldNames : List String := ["in_rpcs", "in_bad_rpcs", "out_rpc_errors", "subscriptions"]

/-- The record of the counters. -/
def toValue (c : Counters) : Value :=
  .object [("in_rpcs", .ofNat c.requests.toNat), ("in_bad_rpcs", .ofNat c.badRequests.toNat),
    ("out_rpc_errors", .ofNat c.errors.toNat), ("subscriptions", .ofNat c.subscriptions.toNat)]

/-- The counters that a record gives. -/
def ofValue? (v : Value) : Option Counters := do
  let r ← Record.ofValue? fieldNames v
  return { requests := ← r.required? "in_rpcs" word?
           badRequests := ← r.required? "in_bad_rpcs" word?
           errors := ← r.required? "out_rpc_errors" word?
           subscriptions := ← r.required? "subscriptions" word? }

end Counters

namespace Snapshot

/-- The names of the fields. -/
def fieldNames : List String :=
  ["id", "username", "capabilities", "status", "login_time", "counters"]

/-- The fields with their values. -/
def members (s : Snapshot) : List (String × Value) :=
  [("id", s.id.toValue), ("username", .ofOption .string s.username),
    ("capabilities", .array (s.capabilities.map Capability.toValue)),
    ("status", .string s.status.text), ("login_time", s.login.toValue),
    ("counters", s.counters.toValue)]

/-- The record of a snapshot. -/
def toValue (s : Snapshot) : Value := .object s.members

/-- The snapshot that a record describes. -/
def ofValue? (v : Value) : Option Snapshot := do
  let r ← Record.ofValue? fieldNames v
  return { id := ← r.required? "id" SessionId.ofValue?
           username := ← r.optional? "username" text?
           capabilities := ← r.required? "capabilities" (list? Capability.ofValue?)
           status := ← r.required? "status" Status.ofValue?
           login := ← r.required? "login_time" Time.Instant.ofValue?
           counters := ← r.required? "counters" Counters.ofValue? }

end Snapshot
end Netconf
