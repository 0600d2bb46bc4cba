import Netconf.Text.Blank

/-! Capabilities, which peers announce to each other as URIs, and the lists of them that they
exchange. Two URIs that differ in their query parts only stand for the same capability with other
parameters, so a capability is looked up by the part before the query. -/
namespace Netconf

/-- The part of a URI before its query. -/
def baseUri (uri : String) : String := String.ofList (uri.toList.takeWhile (· != '?'))

/-- A capability URI: not empty and free of blanks. -/
structure Capability where
  uri : String
  uri_ne_empty : uri ≠ ""
  blank_free : uri.toList.any Text.isBlank = false
deriving DecidableEq, Repr

/-- Why a text is no capability. -/
inductive CapabilityError where
  | empty
  | blank (uri : String)
deriving DecidableEq, Repr

/-- The cause in words. -/
def CapabilityError.message : CapabilityError → String
  | .empty => "capability URI cannot be empty"
  | .blank uri => "capability URI '" ++ uri ++ "' contains whitespace"

namespace Capability

/-- The first version of the protocol. -/
def base10 : String := "urn:ietf:params:netconf:base:1.0"

/-- The second version of the protocol, with chunked framing. -/
def base11 : String := "urn:ietf:params:netconf:base:1.1"

/-- Event notifications. -/
def notification : String := "urn:ietf:params:netconf:capability:notification:1.0"

/-- What the URIs of protocol capabilities start with. -/
def protocolPrefix : String := "urn:ietf:params:netconf:"

/-- The capability that a text names, blanks around it aside. -/
def ofText (s : String) : Except CapabilityError Capability :=
  let uri := Text.trim s
  if he : uri = "" then .error .empty
  else if hb : uri.toList.any Text.isBlank = false then .ok ⟨uri, he, hb⟩
  else .error (.blank uri)

/-- The URI without its query. -/
def base (c : Capability) : String := baseUri c.uri

/-- A version of the protocol itself. -/
def isBase (c : Capability) : Bool := c.base == base10 || c.base == base11

/-- Behaviour of the protocol, on which both peers must agree; all else is up to the server. -/
def isProtocol (c : Capability) : Bool := protocolPrefix.toList.isPrefixOf c.base.toList

@[ext] theorem ext {a b : Capability} (h : a.uri = b.uri) : a = b := by
  cases a; cases b; simp_all

/-- Version 1.0 of the protocol. -/
def ofBase10 : Capability := ⟨base10, by decide, by decide⟩

/-- Version 1.1 of the protocol. -/
def ofBase11 : Capability := ⟨base11, by decide, by decide⟩

end Capability

/-- Capabilities in the order in which they were announced. -/
abbrev Capabilities := List Capability

namespace Capabilities

/-- The capabilities with one more, unless it is among them. -/
def insert (cs : Capabilities) (c : Capability) : Capabilities :=
  if c ∈ cs then cs else cs ++ [c]

/-- The capabilities that some texts name, each once. -/
def ofTexts (texts : List String) : Except CapabilityError Capabilities :=
  texts.foldlM (fun cs t => (Capability.ofText t).map (insert cs)) []

/-- Whether the capability of a URI is among them, queries aside. -/
def has (cs : Capabilities) (uri : String) : Bool := cs.any (·.base == baseUri uri)

/-- Whether a version of the protocol is among them. -/
def hasBase (cs : Capabilities) : Bool := cs.any (·.isBase)

/-- Whether event notifications are among them. -/
def supportsNotifications (cs : Capabilities) : Bool := cs.has Capability.notification

/-- What a session of a server with a client can use: the protocol capabilities that both have, and
all others of the server. -/
def negotiate (server client : Capabilities) : Capabilities :=
  server.foldl
    (fun cs c => if !c.isProtocol || client.has c.base then insert cs c else cs) []

/-- The URIs of the capabilities. -/
def uris (cs : Capabilities) : List String := cs.map (·.uri)

/-- Whether both peers speak the version of the protocol with chunked framing. -/
def bothChunked (server client : Capabilities) : Bool :=
  server.has Capability.base11 && client.has Capability.base11

end Capabilities
end Netconf
