import Netconf.Backend.Message
import Netconf.Json.Mismatch

/-! Why a line of the management server is no response. If the line is no JSON or does not say which
response it is, there is little to tell; otherwise the first fault of its content is told. -/
namespace Netconf

open Json

/-- Looks at a detail of an error. -/
def Rpc.Detail.check : Check :=
  Check.variant ["bad-element", "bad-attribute", "bad-namespace", "session-id"] fun kind => fun
    | none => .error (.type "unit variant" "newtype variant")
    | some v => if kind = "session-id" then Check.count v else Check.text v

/-- Looks at an error. -/
def Rpc.Error.check : Check :=
  Check.record "struct RpcError" [
    { name := "tag", check := Check.label (Rpc.ErrorTag.all.map (·.text)) },
    { name := "type", check := Check.label (Rpc.Layer.all.map (·.text)) },
    { name := "severity", required := false,
      check := Check.label (Rpc.Severity.all.map (·.text)) },
    { name := "app_tag", required := false, check := Check.orNull Check.text },
    { name := "path", required := false, check := Check.orNull Check.text },
    { name := "message", required := false, check := Check.orNull Check.text },
    { name := "info", required := false, check := Check.list Rpc.Detail.check }]

namespace Backend.Response

/-- Looks at the content of a response of a kind. -/
def check (kind : String) : Check :=
  match kind with
  | "capabilities" => Check.record "struct variant BackendResponse::Capabilities"
      [{ name := "capabilities", check := Check.list Check.text }]
  | "ok" => fun
    | .array items => Check.items "" 0 0 [] items
    | _ => .ok ()
  | "data" => Check.record "struct variant BackendResponse::Data"
      [{ name := "content", check := Check.text }]
  | "error" => Check.record "struct variant BackendResponse::Error"
      [{ name := "errors", check := Check.list Rpc.Error.check }]
  | _ => fun _ => .ok ()

/-- The reason for a line that is malformed or does not say which response it is. -/
def malformed : String := "no response starts at line 1 column 1"

/-- Why a line is no response. -/
def reason (line : String) : String :=
  match (leading? line).bind (tagged? "response") with
  | none => malformed
  | some (kind, content) =>
    match check kind content with
    | .error mismatch => mismatch.message
    | .ok _ => malformed

end Backend.Response
end Netconf
