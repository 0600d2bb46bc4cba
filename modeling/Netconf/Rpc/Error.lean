import Netconf.Text.Numeral

/-! Errors as replies carry them: a tag out of a fixed list, the layer at which the error arose, its
severity, and what else is known about it. -/
namespace Netconf.Rpc

/-- The layer of the protocol at which an error arose. -/
inductive Layer where
  | transport
  | rpc
  | protocol
  | application
deriving DecidableEq, Repr, Inhabited

/-- The written name of a layer. -/
def Layer.text : Layer → String
  | .transport => "transport"
  | .rpc => "rpc"
  | .protocol => "protocol"
  | .application => "application"

/-- All layers. -/
def Layer.all : List Layer := [.transport, .rpc, .protocol, .application]

/-- What kind of error it is. -/
inductive ErrorTag where
  | inUse
  | invalidValue
  | tooBig
  | missingAttribute
  | badAttribute
  | unknownAttribute
  | missingElement
  | badElement
  | unknownElement
  | unknownNamespace
  | accessDenied
  | lockDenied
  | resourceDenied
  | rollbackFailed
  | dataExists
  | dataMissing
  | operationNotSupported
  | operationFailed
  | malformedMessage
deriving DecidableEq, Repr, Inhabited

namespace ErrorTag

/-- The written name of a tag. -/
def text : ErrorTag → String
  | inUse => "in-use"
  | invalidValue => "invalid-value"
  | tooBig => "too-big"
  | missingAttribute => "missing-attribute"
  | badAttribute => "bad-attribute"
  | unknownAttribute => "unknown-attribute"
  | missingElement => "missing-element"
  | badElement => "bad-element"
  | unknownElement => "unknown-element"
  | unknownNamespace => "unknown-namespace"
  | accessDenied => "access-denied"
  | lockDenied => "lock-denied"
  | resourceDenied => "resource-denied"
  | rollbackFailed => "rollback-failed"
  | dataExists => "data-exists"
  | dataMissing => "data-missing"
  | operationNotSupported => "operation-not-supported"
  | operationFailed => "operation-failed"
  | malformedMessage => "malformed-message"

/-- All tags. -/
def all : List ErrorTag :=
  [inUse, invalidValue, tooBig, missingAttribute, badAttribute, unknownAttribute, missingElement,
    badElement, unknownElement, unknownNamespace, accessDenied, lockDenied, resourceDenied,
    rollbackFailed, dataExists, dataMissing, operationNotSupported, operationFailed,
    malformedMessage]

/-- The layer at which an error arises unless something else is said. -/
def defaultLayer : ErrorTag → Layer
  | malformedMessage => .rpc
  | lockDenied => .protocol
  | unknownNamespace => .protocol
  | _ => .application

/-- What an error says unless something else is said. -/
def defaultMessage : ErrorTag → String
  | inUse => "The request requires a resource that already is in use."
  | invalidValue =>
    "The request specifies an unacceptable value for one or more parameters."
  | tooBig => "The request or response (that would be generated) is too large for the " ++
      "implementation to handle."
  | missingAttribute => "An expected attribute is missing."
  | badAttribute => "An attribute value is not correct."
  | unknownAttribute => "An unexpected attribute is present."
  | missingElement => "An expected element is missing."
  | badElement => "An element value is not correct."
  | unknownElement => "An unexpected element is present."
  | unknownNamespace => "An unexpected namespace is present."
  | accessDenied => "Access to the requested protocol operation or data model is denied because " ++
      "authorization failed."
  | lockDenied => "Access to the requested lock is denied because the lock is currently held by " ++
      "another entity."
  | resourceDenied => "Request could not be completed because of insufficient resources."
  | rollbackFailed => "Request to roll back some configuration change was not completed for " ++
      "some reason."
  | dataExists => "Request could not be completed because the relevant data model content " ++
      "already exists."
  | dataMissing => "Request could not be completed because the relevant data model content does " ++
      "not exist."
  | operationNotSupported => "Request could not be completed because the requested operation is " ++
      "not supported by this implementation."
  | operationFailed => "Request could not be completed because the requested operation failed " ++
      "for some reason not covered by any other error condition."
  | malformedMessage => "A message could not be handled because it failed to be parsed correctly."

end ErrorTag

/-- How grave an error is. -/
inductive Severity where
  | error
  | warning
deriving DecidableEq, Repr, Inhabited

/-- The written name of a severity. -/
def Severity.text : Severity → String
  | .error => "error"
  | .warning => "warning"

/-- All severities. -/
def Severity.all : List Severity := [.error, .warning]

/-- What an error is about. -/
inductive Detail where
  | badElement (name : String)
  | badAttribute (name : String)
  | badNamespace (name : String)
  | sessionId (id : Nat)
deriving DecidableEq, Repr

/-- The written name of a detail's kind. -/
def Detail.name : Detail → String
  | .badElement _ => "bad-element"
  | .badAttribute _ => "bad-attribute"
  | .badNamespace _ => "bad-namespace"
  | .sessionId _ => "session-id"

/-- The written value of a detail. -/
def Detail.value : Detail → String
  | .badElement name => name
  | .badAttribute name => name
  | .badNamespace name => name
  | .sessionId id => Text.decimal id

/-- One error of a reply. -/
structure Error where
  tag : ErrorTag
  layer : Layer
  severity : Severity := .error
  appTag : Option String := none
  path : Option String := none
  message : Option String := none
  info : List Detail := []
deriving DecidableEq, Repr, Inhabited

namespace Error

/-- The error of a tag with its usual layer and message. -/
def ofTag (tag : ErrorTag) : Error :=
  { tag, layer := tag.defaultLayer, message := some tag.defaultMessage }

/-- The error at another layer. -/
def onLayer (e : Error) (layer : Layer) : Error := { e with layer }

/-- The error with another message. -/
def saying (e : Error) (message : String) : Error := { e with message := some message }

/-- The error with one more detail. -/
def about (e : Error) (detail : Detail) : Error := { e with info := e.info ++ [detail] }

/-- The first element that the error blames. -/
def badElement? (e : Error) : Option String :=
  e.info.findSome? fun
    | .badElement name => some name
    | _ => none

/-- The error in a line of text. -/
def display (e : Error) : String :=
  e.tag.text ++ " (" ++ e.layer.text ++ ")" ++
    match e.message with
    | some m => ": " ++ m
    | none => ""

end Error
end Netconf.Rpc
