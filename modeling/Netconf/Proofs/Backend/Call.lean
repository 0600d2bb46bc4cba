import Netconf.Backend.Server

/-! The calls that can be made to a management server, whatever connects it with the agent. -/
namespace Netconf

namespace Backend

/-- A call to the management server. -/
inductive Call where
  | capabilities
  | inform (info : SessionInfo)
  | forward (session : SessionId) (request : Rpc.Request)
  | kill (session : SessionId) (target : String)
  | close (session : SessionId)

namespace Call

variable {β : Type} [Server β]

/-- What a call makes of the management server. -/
def make (server : β) : Call → β
  | capabilities => (Server.capabilities server).2
  | inform info => (Server.inform info server).2
  | forward session request => (Server.forward session request server).2
  | kill session target => (Server.kill session target server).2
  | close session => (Server.close session server).2

/-- The reply that a call returns, if it is one that returns a reply. -/
def reply? (server : β) : Call → Option Rpc.Reply
  | forward session request => some (Server.forward session request server).1
  | kill session target => some (Server.kill session target server).1
  | _ => none

def isClose : Call → Bool
  | close _ => true
  | _ => false

end Call
end Backend

end Netconf
