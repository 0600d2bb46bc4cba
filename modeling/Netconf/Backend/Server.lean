import Netconf.Backend.Message
import Netconf.Rpc.Reply
import Netconf.Rpc.Request

/-! The management server as an agent sees it, whatever connects them. -/
namespace Netconf.Backend

/-- How a response of the management server violates the protocol between us. -/
inductive Violation where
  /-- A line that is no response, for a reason. -/
  | notResponse (reason : String)
  /-- A response of a kind that answers another request. -/
  | unexpected (kind : String)
  | noCapabilities (kind : String)
deriving DecidableEq, Repr

/-- The violation in words. -/
def Violation.message : Violation → String
  | .notResponse reason => reason
  | .unexpected kind => "unexpected " ++ kind ++ " response"
  | .noCapabilities kind => "expected capabilities, got " ++ kind

/-- Why a request to the management server fails. -/
inductive ServerError where
  | unreachable (reason : String)
  | violation (v : Violation)
  | rejected (reason : String)
  | io (reason : String)
deriving DecidableEq, Repr

/-- The cause in words. -/
def ServerError.message : ServerError → String
  | .unreachable reason => "management server unreachable: " ++ reason
  | .violation v => "backend protocol violation: " ++ v.message
  | .rejected reason => "backend rejected request: " ++ reason
  | .io reason => "backend i/o failure: " ++ reason

/-- What lies behind an error: the failure of the system where it is one. -/
def ServerError.source? : ServerError → Option String
  | .io reason => some reason
  | _ => none

/-- A management server. `β` is the state of the connection with it. -/
class Server (β : Type) where
  capabilities : β → Except ServerError (List String) × β
  /-- Tells it of a session. -/
  inform : SessionInfo → β → Except ServerError Unit × β
  /-- Has it carry out an operation. -/
  forward : SessionId → Rpc.Request → β → Rpc.Reply × β
  close : SessionId → β → Except ServerError Unit × β
  /-- Has it end another session. -/
  kill : SessionId → String → β → Rpc.Reply × β

end Netconf.Backend
