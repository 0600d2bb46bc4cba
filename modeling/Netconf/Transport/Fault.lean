/-! Failures of reading from a stream and of writing to it. -/
namespace Netconf

/-- Why a stream could not be read or written. -/
inductive Fault where
  /-- The attempt was interrupted; another one may succeed. -/
  | interrupted
  | connectionReset
  | unexpectedEnd
  | brokenPipe
  | other (text : String)
deriving DecidableEq, Repr, Inhabited

/-- The failure in words. -/
def Fault.message : Fault → String
  | .interrupted => "operation interrupted"
  | .connectionReset => "connection reset"
  | .unexpectedEnd => "unexpected end of file"
  | .brokenPipe => "broken pipe"
  | .other text => text

end Netconf
