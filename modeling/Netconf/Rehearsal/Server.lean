import Netconf.Backend.Server

/-! A management server that always answers the same, for rehearsing an agent without one. -/
namespace Netconf.Rehearsal

/-- The answers of a management server, request by request. -/
structure Server where
  capabilities : Except Backend.ServerError (List String) := .ok []
  inform : Except Backend.ServerError Unit := .ok ()
  close : Except Backend.ServerError Unit := .ok ()
  forward : Rpc.Reply := .ok
  kill : Rpc.Reply := .ok

instance : Backend.Server Server where
  capabilities s := (s.capabilities, s)
  inform _ s := (s.inform, s)
  forward _ _ s := (s.forward, s)
  close _ s := (s.close, s)
  kill _ _ s := (s.kill, s)

end Netconf.Rehearsal
