/-! Coming to an end. The first request to end is granted in an orderly way; a further signal, or an
unexpected one, ends everything at once. -/
namespace Netconf

/-- How far coming to an end has got. -/
inductive Shutdown where
  | idle
  | requested
  | forced
deriving DecidableEq, Repr, Inhabited

/-- The kinds of signals. -/
inductive SignalKind where
  | terminating
  | unexpected
deriving DecidableEq, Repr

/-- What a signal brings about. -/
inductive SignalEffect where
  | requested
  | forced
deriving DecidableEq, Repr

namespace Shutdown

/-- Whether an end has been asked for. -/
def isRequested (s : Shutdown) : Bool := s != idle

/-- Asks for an orderly end. -/
def request : Shutdown → Shutdown
  | idle => requested
  | s => s

/-- The effect of a signal. -/
def signal (s : Shutdown) (kind : SignalKind) : Shutdown × SignalEffect :=
  if kind = .terminating ∧ s = idle then (requested, .requested) else (forced, .forced)

end Shutdown
end Netconf
