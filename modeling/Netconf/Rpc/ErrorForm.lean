import Netconf.Json.Record
import Netconf.Rpc.Error

/-! The JSON form of errors, in which the management server reports them. -/
namespace Netconf.Rpc

open Json

/-- The layer that a value names. -/
def Layer.ofValue? (mode : Mode) (v : Value) : Option Layer := case? mode Layer.all Layer.text v

/-- The tag that a value names. -/
def ErrorTag.ofValue? (mode : Mode) (v : Value) : Option ErrorTag :=
  case? mode ErrorTag.all ErrorTag.text v

/-- The severity that a value names. -/
def Severity.ofValue? (mode : Mode) (v : Value) : Option Severity :=
  case? mode Severity.all Severity.text v

namespace Detail

/-- An object whose only key is the kind of the detail. -/
def toValue : Detail → Value
  | .sessionId id => .object [("session-id", .ofNat id)]
  | d => .object [(d.name, .string d.value)]

/-- The detail that a value describes. -/
def ofValue? : Value → Option Detail
  | .object [(kind, v)] =>
    match kind with
    | "bad-element" => (text? v).map badElement
    | "bad-attribute" => (text? v).map badAttribute
    | "bad-namespace" => (text? v).map badNamespace
    | "session-id" => (count? Text.maxWord32 v).map sessionId
    | _ => none
  | _ => none

end Detail

namespace Error

/-- The names of an error's fields. -/
def fieldNames : List String :=
  ["tag", "type", "severity", "app_tag", "path", "message", "info"]

/-- The fields with their values. -/
def members (e : Error) : List (String × Value) :=
  [("tag", .string e.tag.text), ("type", .string e.layer.text),
    ("severity", .string e.severity.text), ("app_tag", .ofOption .string e.appTag),
    ("path", .ofOption .string e.path), ("message", .ofOption .string e.message),
    ("info", .array (e.info.map Detail.toValue))]

/-- The record of an error. -/
def toValue (e : Error) : Value := .object e.members

/-- The error that a record describes. Only its tag and its layer must be given. -/
def ofValue? (mode : Mode) (v : Value) : Option Error := do
  let r ← Record.ofValue? fieldNames v
  return {
    tag := ← r.required? "tag" (ErrorTag.ofValue? mode)
    layer := ← r.required? "type" (Layer.ofValue? mode)
    severity := ← r.defaulted? "severity" .error (Severity.ofValue? mode)
    appTag := ← r.nullable? "app_tag" text?
    path := ← r.nullable? "path" text?
    message := ← r.nullable? "message" text?
    info := ← r.defaulted? "info" [] (list? Detail.ofValue?) }

end Error
end Netconf.Rpc
