import Netconf.Subscription.Delivery

/-! A delivery of events by itself, for rehearsing a session without an agent. -/
namespace Netconf.Rehearsal

/-- How long a rehearsal waits for a delivery to go on, in milliseconds. -/
def patience : Int := 10000

/-- Runs a delivery to its end, and tells what it has come to and at which instant. Where it has to
wait, the session is closed if that is wished, and otherwise time passes. -/
def deliver (close : Bool) (now : Time.Instant) (request : Rpc.Request) (s : FramedSession) :
    (Progress Delivery × FramedSession) × Time.Instant :=
  match Conversation.run now request s with
  | (.waiting d, s) =>
    if close then (Conversation.drain now d s.close, now)
    else match d.deadline.filter (·.before (now.addMillis patience)) with
      | some t => (Conversation.drain t d s, t)
      | none => ((.waiting d, s), now)
  | (p, s) => ((p, if close then s.close else s), now)

end Netconf.Rehearsal
