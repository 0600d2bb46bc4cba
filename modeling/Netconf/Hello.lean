import Netconf.Capability
import Netconf.Rpc.Reply
import Netconf.SessionId
import Netconf.Xml.Document

/-! The messages that open a session. Both peers list their capabilities; the server's message also
gives the session its identifier. -/
namespace Netconf

/-- Why a client's opening message is refused. -/
inductive HelloError where
  | malformed (cause : Xml.Malformed)
  | notHello (name : String)
  | sessionId
  | noBase
  | badCapability (cause : CapabilityError)
deriving DecidableEq, Repr

/-- The cause in words. -/
def HelloError.message : HelloError → String
  | .malformed cause => "malformed xml: " ++ cause.message
  | .notHello name => "expected <hello>, got <" ++ name ++ ">"
  | .sessionId => "client hello must not carry a session-id"
  | .noBase => "client hello advertises no base capability"
  | .badCapability cause => "invalid capability: " ++ cause.message

namespace Hello

/-- The element of the server's opening message. -/
def element (capabilities : Capabilities) (id : SessionId) : Xml.Element :=
  let space := some Rpc.baseNamespace
  { name := "hello", space,
    children := [
      { name := "capabilities", space,
        children := capabilities.map fun c => { name := "capability", space, text := c.uri } },
      { name := "session-id", space, text := id.text }] }

/-- The server's opening message. -/
def render (capabilities : Capabilities) (id : SessionId) : String :=
  "<?xml version=\"1.0\" encoding=\"UTF-8\"?>" ++ (element capabilities id).render

/-- The capabilities that the element of a client's opening message lists. -/
def capabilitiesOf (hello : Xml.Element) : Except HelloError Capabilities := do
  if hello.name ≠ "hello" then throw (.notHello hello.name)
  if (hello.child? "session-id").isSome then throw .sessionId
  let listed := ((hello.child? "capabilities").map (·.children)).getD []
  let texts := (listed.filter (·.name == "capability")).map (·.content)
  match Capabilities.ofTexts texts with
  | .error cause => throw (.badCapability cause)
  | .ok capabilities =>
    if capabilities.hasBase then return capabilities else throw .noBase

/-- The capabilities of a client's opening message. -/
def parse (message : Bytes) : Except HelloError Capabilities :=
  match Xml.Document.parse message with
  | .error cause => .error (.malformed cause)
  | .ok hello => capabilitiesOf hello

end Hello
end Netconf
