import Netconf.Framing.Chunked
import Netconf.Framing.EndOfMessage

/-! Reading one message in either framing. -/
namespace Netconf.Framing

/-- Reads the next message, of a size up to a limit, and gives what follows it. -/
def read (framing : Framing) (limit : Nat) (input : Incoming) : Outcome × Incoming :=
  match framing with
  | endOfMessage => readMarked limit 0 [] input
  | chunked => readChunks limit (.newline true) 0 [] input

end Netconf.Framing
