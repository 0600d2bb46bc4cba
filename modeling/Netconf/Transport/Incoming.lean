import Netconf.Bytes
import Netconf.Transport.Fault

/-! What a peer sends, in order. Every byte and every failing read stands for itself, so that it
does not matter in which portions the bytes arrive. At its end the peer is silent, and a reader
waits, or has closed its side. -/
namespace Netconf

/-- What is still to be read from a peer. -/
inductive Incoming where
  | silent
  | closed
  | byte (b : UInt8) (rest : Incoming)
  | fault (f : Fault) (rest : Incoming)
deriving DecidableEq, Repr, Inhabited

namespace Incoming

/-- Bytes with something behind them. -/
def ofBytes (bytes : Bytes) (rest : Incoming) : Incoming := bytes.foldr byte rest

@[simp] theorem ofBytes_nil (rest : Incoming) : ofBytes [] rest = rest := rfl

@[simp] theorem ofBytes_cons (b : UInt8) (bytes : Bytes) (rest : Incoming) :
    ofBytes (b :: bytes) rest = byte b (ofBytes bytes rest) := rfl

@[simp] theorem ofBytes_append (a b : Bytes) (rest : Incoming) :
    ofBytes (a ++ b) rest = ofBytes a (ofBytes b rest) := by
  simp [ofBytes, List.foldr_append]

/-- What a peer sends who goes on after its silence; behind a closed end nothing comes. -/
def append : Incoming → Incoming → Incoming
  | silent, more => more
  | closed, _ => closed
  | byte b rest, more => byte b (rest.append more)
  | fault f rest, more => fault f (rest.append more)

/-- The number of bytes and failures to come. -/
def size : Incoming → Nat
  | silent => 0
  | closed => 0
  | byte _ rest => rest.size + 1
  | fault _ rest => rest.size + 1

/-- The bytes to come. -/
def bytes : Incoming → Bytes
  | silent => []
  | closed => []
  | byte b rest => b :: rest.bytes
  | fault _ rest => rest.bytes

end Incoming
end Netconf
