import Netconf.Agent.Act

/-! The JSON form of an agent's acts, in which they can be followed from outside. What happens
within the agent has none. -/
namespace Netconf

open Json

/-- The JSON form of a reply. -/
def Rpc.Reply.toValue : Rpc.Reply → Value
  | .ok => .string "ok"
  | .data content => .object [("data", .string content)]
  | .errors list => .object [("errors", .array (list.map Rpc.Error.toValue))]

/-- The JSON form of what waiting for a client has come to. -/
def Readiness.toValue : Readiness → Value
  | .timeout => .string "Timeout"
  | .interrupted => .string "Interrupted"
  | .ready => .string "DataReady"
  | .hungUp => .string "HangUp"
  | .fault f => .object [("io_error", .string f.message)]

/-- The name of what has been received. -/
def Received.text : Received → String
  | .nothing => "nothing"
  | .unknown => "unknown"
  | .hungUp => "closed"
  | .request _ => "rpc"

/-- The record of a snapshot without its time. -/
def Snapshot.undated (s : Snapshot) : Value :=
  .object [("id", s.id.toValue), ("username", .ofOption .string s.username),
    ("capabilities", .array (s.capabilities.map Capability.toValue)),
    ("status", .string s.status.text), ("counters", s.counters.toValue)]

/-- The JSON form of an act, if it has one. -/
def Act.toValue? : Act → Option Value
  | connected => some (.string "connect")
  | askedCapabilities => some (.string "backend_capabilities")
  | accepted server username =>
    some (.object [("accept", .array (server.map Capability.toValue)),
      ("username", .ofOption .string username)])
  | gaveUpPrivileges _ _ => none
  | informed info => some (.object [("backend_session_info", info.toValue)])
  | forwarded session request =>
    some (.object [("backend_forward", .string request.operation.name),
      ("session", session.toValue)])
  | killed session target =>
    some (.object [("backend_kill", .string target), ("session", session.toValue)])
  | closed session => some (.object [("backend_close", session.toValue)])
  | inserted s => some (.object [("registry_insert", s.undated)])
  | updated s => some (.object [("registry_update", s.undated)])
  | removed session => some (.object [("registry_remove", session.toValue)])
  | waited (.ok r) => some (.object [("wait", r.toValue)])
  | waited (.error e) => some (.object [("wait", .object [("error", .string e.message)])])
  | received r => some (.object [("receive", .string r.text)])
  | checked request => some (.object [("check", .string request.operation.name)])
  | replied request reply =>
    some (.object [("reply", reply.toValue),
      ("message_id", .ofOption .string request.messageId)])
  | setStatus s => some (.object [("set_status", .string s.text)])
  | beganDelivery _ => none
  | endedSession => some (.string "session_close")
  | noted _ _ => none

/-- The journal's entry on an act, if there is one: how important it is, what has happened, and the
details. -/
def Act.entry? : Act → Option Value
  | noted session e =>
    some (.array [.string e.level.text, .string e.kind, .object (e.undated session)])
  | _ => none

/-- Whether a delivery of events begins with an act. -/
def Act.isDelivery : Act → Bool
  | beganDelivery _ => true
  | _ => false

end Netconf
