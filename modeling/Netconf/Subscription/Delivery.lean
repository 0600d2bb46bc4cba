import Netconf.Notification
import Netconf.Session.Framed

/-! Delivering the events of a subscription to the client of a session. Of the events on the feed
those before the start time are passed over; the first one after the stop time ends the delivery,
as does the stop time itself where it is still to come. A delivery that has reached its stop time
or the end of its feed closes with a notice, if there is a stop time at all. -/
namespace Netconf

/-- The state of a delivery. -/
structure Delivery where
  subscription : Subscription
  feed : Feed
  /-- When the delivery ends if the feed is silent. -/
  deadline : Option Time.Instant := none
  sent : Nat := 0
deriving DecidableEq, Repr, Inhabited

/-- What a delivery does next. -/
inductive Delivery.Move where
  | wait
  /-- It ends without a word. -/
  | stop
  /-- It passes an event over. -/
  | pass (rest : Feed)
  | notify (e : Event) (rest : Feed)
  /-- It ends with a notice. -/
  | complete
deriving DecidableEq, Repr

/-- The next move of a delivery, which depends on whether deliveries have been told to end and on
the present instant. -/
def Delivery.next (d : Delivery) (tornDown : Bool) (now : Time.Instant) : Delivery.Move :=
  if tornDown then .stop
  else match d.feed with
    | .event e rest =>
      if d.subscription.stop.any (·.before e.time) then .complete
      else if d.subscription.start.any (e.time.before ·) then .pass rest
      else .notify e rest
    | .failure _ _ => .stop
    | .ended => if d.subscription.stop.isSome then .complete else .stop
    | .silent => if d.deadline.any (fun stop => !now.before stop) then .complete else .wait

namespace FramedSession

/-- Begins to deliver the events of a subscription, unless it is not valid any more or there is no
feed. A stop time that has passed is no deadline. -/
def subscribe (s : FramedSession) (now : Time.Instant) (request : Rpc.Request) :
    Progress Delivery × FramedSession :=
  match Subscription.ofRequest request s.source.streams now with
  | .error _ => (.ended 0, s)
  | .ok subscription =>
    match s.source.subscribe subscription with
    | (none, source) => (.ended 0, { s with source })
    | (some feed, source) =>
      let deadline := subscription.stop.filter fun stop => !stop.before now
      (.going { subscription, feed, deadline }, { s with source })

/-- Ends a delivery with a notice. -/
def complete (s : FramedSession) (now : Time.Instant) (d : Delivery) :
    Progress Delivery × FramedSession :=
  (.ended d.sent, (s.write (Notification.complete now)).2)

/-- One step of a delivery: an event or a failure is taken from the feed, or the delivery ends. -/
def deliver (s : FramedSession) (now : Time.Instant) (d : Delivery) :
    Progress Delivery × FramedSession :=
  match d.next s.tornDown now with
  | .wait => (.waiting d, s)
  | .stop => (.ended d.sent, s)
  | .pass rest => (.going { d with feed := rest }, s)
  | .complete => s.complete now d
  | .notify e rest =>
    match s.write (Notification.ofEvent e) with
    | (.error _, s) => (.ended d.sent, s)
    | (.ok _, s) => (.going { d with feed := rest, sent := d.sent + 1 }, s)

instance : Conversation FramedSession Delivery where
  id s := s.id
  username s := s.username
  capabilities s := s.capabilities
  status s := s.status
  setStatus status s := { s with status }
  notificationsAllowed s := s.notificationsAllowed
  pending s := s.input.size
  wait s := let (outcome, session) := s.wait; { outcome, session }
  receive s := s.receive
  reply request r s := s.reply request r
  check now request s := s.check now request
  subscribe now request s := s.subscribe now request
  deliver now d s := s.deliver now d
  backlog d := d.feed.size
  deadline d := d.deadline
  close s := s.close

end FramedSession
end Netconf
