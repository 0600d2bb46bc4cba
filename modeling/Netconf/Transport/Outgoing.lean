import Netconf.Bytes
import Netconf.Transport.Fault

/-! The side of a stream on which we write. A frame is written whole or not at all; that it cannot
be flushed is found out when its bytes are already on their way. -/
namespace Netconf

/-- What has been written to a peer, and how further attempts will fail. -/
structure Outgoing where
  written : Bytes := []
  writeFault : Option Fault := none
  flushFault : Option Fault := none
  /-- Whether our side has been shut down. -/
  shut : Bool := false
deriving DecidableEq, Repr, Inhabited

namespace Outgoing

/-- Writes a frame and flushes it. -/
def send (o : Outgoing) (frame : Bytes) : Except Fault Unit × Outgoing :=
  match o.writeFault with
  | some f => (.error f, o)
  | none =>
    let sent := { o with written := o.written ++ frame }
    match o.flushFault with
    | some f => (.error f, sent)
    | none => (.ok (), sent)

/-- A frame that is sent without failure is appended to what was written before. -/
theorem send_of_no_fault {o : Outgoing} (hw : o.writeFault = none) (hf : o.flushFault = none)
    (frame : Bytes) : o.send frame = (.ok (), { o with written := o.written ++ frame }) := by
  simp [send, hw, hf]

end Outgoing
end Netconf
