import Netconf.Framing.Basic
import Netconf.Hello

/-! What can go wrong with a session: it does not come about, or it cannot be waited for, written to
or used any more. -/
namespace Netconf

/-- Why a client is not accepted. -/
inductive AcceptError where
  /-- The stream to the client serves another session. -/
  | inUse
  | sending (f : Fault)
  | timedOut
  | left
  | reading (e : FramingError)
  | refused (e : HelloError)
  | other (text : String)
deriving DecidableEq, Repr

/-- The cause in words. -/
def AcceptError.message : AcceptError → String
  | .inUse => "transport already in use"
  | .sending f => "sending hello: " ++ f.message
  | .timedOut => "client hello timed out"
  | .left => "client left before hello"
  | .reading e => "reading client hello: " ++ e.message
  | .refused e => "client hello rejected: " ++ e.message
  | .other text => text

/-- Why an operation on a session fails. -/
inductive SessionError where
  | accept (e : AcceptError)
  | wait (text : String)
  | write (f : Fault)
  | terminated
deriving DecidableEq, Repr

/-- The cause in words. -/
def SessionError.message : SessionError → String
  | .accept e => "session acceptance failed: " ++ e.message
  | .wait text => "readiness wait failed: " ++ text
  | .write f => "transport write failed: " ++ f.message
  | .terminated => "session already terminated"

end Netconf
