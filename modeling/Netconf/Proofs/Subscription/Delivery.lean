import Netconf.Proofs.Agent.Progress
import Netconf.Proofs.Agent.Sequential

/-! What a delivery of events writes, and how it ends. Of the items on its feed it delivers the
events that come before the first failure and the first late event, but for early ones, in their
order. -/
namespace Netconf

open Running (WritesWell withText)

namespace Subscription

variable (sub : Subscription)

/-- Whether an event is past the stop time. -/
def isLate (e : Event) : Bool := sub.stop.any (·.before e.time)

/-- Whether an event is before the start time. -/
def isEarly (e : Event) : Bool := sub.start.any (e.time.before ·)

/-- Whether a delivery goes on at an item. -/
def goesOnAt : Except FeedError Event → Bool
  | .ok e => !sub.isLate e
  | .error _ => false

/-- The events among some items that are delivered. -/
def chosen (items : List (Except FeedError Event)) : List Event :=
  ((items.takeWhile sub.goesOnAt).filterMap Except.toOption).filter fun e => !sub.isEarly e

/-- Whether there is a notice behind them: there is a stop time, and the delivery does not end at a
failure. -/
def hasNotice (items : List (Except FeedError Event)) : Bool :=
  sub.stop.isSome && match (items.dropWhile sub.goesOnAt).head? with
    | some (.error _) => false
    | _ => true

/-- The texts of the notifications of some items. -/
def notifications (items : List (Except FeedError Event)) : List String :=
  (sub.chosen items).map Notification.ofEvent

/-- All texts that are written about some items, if there are no others behind them. -/
def messages (now : Time.Instant) (items : List (Except FeedError Event)) : List String :=
  sub.notifications items ++ if sub.hasNotice items then [Notification.complete now] else []

variable {sub} {e : Event} {items : List (Except FeedError Event)}

theorem chosen_late (h : sub.isLate e = true) : sub.chosen (.ok e :: items) = [] := by
  simp [chosen, goesOnAt, h]

theorem chosen_early (h : sub.isLate e = false) (h' : sub.isEarly e = true) :
    sub.chosen (.ok e :: items) = sub.chosen items := by
  simp [chosen, goesOnAt, h, h', Except.toOption]

theorem chosen_event (h : sub.isLate e = false) (h' : sub.isEarly e = false) :
    sub.chosen (.ok e :: items) = e :: sub.chosen items := by
  simp [chosen, goesOnAt, h, h', Except.toOption]

theorem hasNotice_late (h : sub.isLate e = true) :
    sub.hasNotice (.ok e :: items) = sub.stop.isSome := by
  simp [hasNotice, goesOnAt, h]

theorem hasNotice_timely (h : sub.isLate e = false) :
    sub.hasNotice (.ok e :: items) = sub.hasNotice items := by
  simp [hasNotice, goesOnAt, h]

/-- Only where there is a stop time, an event can be late. -/
theorem isSome_stop_of_isLate (h : sub.isLate e = true) : sub.stop.isSome = true := by
  cases hstop : sub.stop with
  | none => simp [isLate, hstop] at h
  | some stop => rfl

variable (now : Time.Instant)

theorem messages_early (h : sub.isLate e = false) (h' : sub.isEarly e = true) :
    sub.messages now (.ok e :: items) = sub.messages now items := by
  simp [messages, notifications, chosen_early h h', hasNotice_timely h]

theorem messages_event (h : sub.isLate e = false) (h' : sub.isEarly e = false) :
    sub.messages now (.ok e :: items) = Notification.ofEvent e :: sub.messages now items := by
  simp [messages, notifications, chosen_event h h', hasNotice_timely h]

end Subscription

namespace FramedSession

/-- A session on which texts have been written, one after the other. -/
def withTexts (s : FramedSession) (texts : List String) : FramedSession :=
  { s with output.written := s.output.written ++
      texts.flatMap fun text => s.framing.encode (Bytes.ofString text) }

@[simp] theorem withTexts_nil (s : FramedSession) : s.withTexts [] = s := by
  simp [withTexts]

theorem withTexts_cons (s : FramedSession) (text : String) (texts : List String) :
    s.withTexts (text :: texts) = (withText s text).withTexts texts := by
  simp [withTexts, withText]

theorem withTexts_append (s : FramedSession) (texts texts' : List String) :
    s.withTexts (texts ++ texts') = (s.withTexts texts).withTexts texts' := by
  simp [withTexts]

theorem write_of_writesWell {s : FramedSession} (h : WritesWell s) (text : String) :
    s.write text = (.ok (), withText s text) := by
  obtain ⟨-, hwrite⟩ | ⟨hfails, -⟩ := Running.write_cases s text
  · exact hwrite
  · exact absurd h hfails

variable {s u : FramedSession} {d d' : Delivery} {now : Time.Instant} {sent : Nat}

theorem drain_of_going (h : s.deliver now d = (.going d', u)) (hless : d'.feed.size < d.feed.size) :
    Conversation.drain now d s = Conversation.drain now d' u := by
  have hdeliver : Conversation.deliver now d s = (.going d', u) := h
  rw [Conversation.drain, hdeliver]
  exact if_pos hless

theorem drain_of_ended (h : s.deliver now d = (.ended sent, u)) :
    Conversation.drain now d s = (.ended sent, u) := by
  have hdeliver : Conversation.deliver now d s = (.ended sent, u) := h
  rw [Conversation.drain, hdeliver]

theorem drain_of_waiting (h : s.deliver now d = (.waiting d', u)) :
    Conversation.drain now d s = (.waiting d', u) := by
  have hdeliver : Conversation.deliver now d s = (.waiting d', u) := h
  rw [Conversation.drain, hdeliver]

/-! What a delivery does about an item. -/

section

variable {sub : Subscription} {e : Event} {rest : Feed}

theorem deliver_failure {cause : FeedError} (hs : s.tornDown = false)
    (hd : d.feed = .failure cause rest) : s.deliver now d = (.ended d.sent, s) := by
  simp [deliver, Delivery.next, hs, hd]

theorem deliver_late (hs : s.tornDown = false) (hd : d.feed = .event e rest)
    (late : d.subscription.isLate e = true) :
    s.deliver now d = (.ended d.sent, (s.write (Notification.complete now)).2) := by
  unfold Subscription.isLate at late
  simp [deliver, Delivery.next, complete, hs, hd, late]

theorem deliver_early (hs : s.tornDown = false) (hd : d.feed = .event e rest)
    (timely : d.subscription.isLate e = false) (early : d.subscription.isEarly e = true) :
    s.deliver now d = (.going { d with feed := rest }, s) := by
  unfold Subscription.isLate at timely
  unfold Subscription.isEarly at early
  simp [deliver, Delivery.next, hs, hd, timely, early]

theorem deliver_event (hs : s.tornDown = false) (hd : d.feed = .event e rest)
    (timely : d.subscription.isLate e = false) (started : d.subscription.isEarly e = false)
    (hwrite : s.write (Notification.ofEvent e) = (.ok (), u)) :
    s.deliver now d = (.going { d with feed := rest, sent := d.sent + 1 }, u) := by
  unfold Subscription.isLate at timely
  unfold Subscription.isEarly at started
  simp [deliver, Delivery.next, hs, hd, timely, started, hwrite]

theorem deliver_event_fails {err : SessionError} (hs : s.tornDown = false)
    (hd : d.feed = .event e rest) (timely : d.subscription.isLate e = false)
    (started : d.subscription.isEarly e = false)
    (hwrite : s.write (Notification.ofEvent e) = (.error err, u)) :
    s.deliver now d = (.ended d.sent, u) := by
  unfold Subscription.isLate at timely
  unfold Subscription.isEarly at started
  simp [deliver, Delivery.next, hs, hd, timely, started, hwrite]

theorem deliver_end (hs : s.tornDown = false) (hd : d.feed = .ended) :
    s.deliver now d = (.ended d.sent,
      if d.subscription.stop.isSome then (s.write (Notification.complete now)).2 else s) := by
  cases hstop : d.subscription.stop with
  | none => simp [deliver, Delivery.next, hs, hd, hstop]
  | some stop => simp [deliver, Delivery.next, complete, hs, hd, hstop]

theorem deliver_silence (hs : s.tornDown = false) (hd : d.feed = .silent) :
    s.deliver now d = if d.deadline.any (fun stop => !now.before stop) then
      (.ended d.sent, (s.write (Notification.complete now)).2) else (.waiting d, s) := by
  cases hdeadline : d.deadline.any (fun stop => !now.before stop) with
  | true => simp [deliver, Delivery.next, complete, hs, hd, hdeadline]
  | false => simp [deliver, Delivery.next, hs, hd, hdeadline]

end

/-! What it does about all of them. -/

/-- A delivery that has got through some items and written about them. -/
def through (items : List (Except FeedError Event)) (last : Feed) (d : Delivery) : Delivery :=
  { d with
    feed := .ofItems (items.dropWhile d.subscription.goesOnAt) last
    sent := d.sent + (d.subscription.chosen items).length }

/-- Where nothing is delivered and no item is passed, all stays as it is. -/
theorem drain_of_stays {last : Feed} {items : List (Except FeedError Event)}
    (hd : d.feed = .ofItems items last)
    (hdrop : items.dropWhile d.subscription.goesOnAt = items)
    (hchosen : d.subscription.chosen items = []) :
    Conversation.drain now d s = Conversation.drain now (through items last d)
      (s.withTexts (d.subscription.notifications items)) := by
  have hstays : through items last d = d := by
    rw [through, hdrop, hchosen, ← hd]
    rfl
  rw [hstays, Subscription.notifications, hchosen, List.map_nil, withTexts_nil]

/-- While writing does not fail, a delivery gets through the items at which it goes on, and comes to
the first other one, or to what is behind them all. -/
theorem drain_items {last : Feed} {items : List (Except FeedError Event)} (well : WritesWell s)
    (hs : s.tornDown = false) (hd : d.feed = .ofItems items last) :
    Conversation.drain now d s = Conversation.drain now (through items last d)
      (s.withTexts (d.subscription.notifications items)) := by
  induction items generalizing s d with
  | nil => exact drain_of_stays hd rfl rfl
  | cons item items ih =>
    cases item with
    | error cause => exact drain_of_stays hd rfl rfl
    | ok e =>
      have hless : (Feed.ofItems items last).size < d.feed.size := by
        rw [hd]
        exact Nat.lt_succ_self _
      cases late : d.subscription.isLate e with
      | true =>
        have hdrop : (.ok e :: items).dropWhile d.subscription.goesOnAt = .ok e :: items := by
          simp [Subscription.goesOnAt, late]
        exact drain_of_stays hd hdrop (Subscription.chosen_late late)
      | false =>
        have hdrop : (.ok e :: items).dropWhile d.subscription.goesOnAt =
            items.dropWhile d.subscription.goesOnAt := by
          simp [Subscription.goesOnAt, late]
        cases early : d.subscription.isEarly e with
        | true =>
          rw [drain_of_going (deliver_early hs hd late early) hless, ih well hs rfl]
          simp [through, hdrop, Subscription.notifications, Subscription.chosen_early late early]
        | false =>
          have hwrite := write_of_writesWell well (Notification.ofEvent e)
          have hwell : WritesWell (withText s (Notification.ofEvent e)) := well
          rw [drain_of_going (deliver_event hs hd late early hwrite) hless, ih hwell hs rfl]
          simp [through, hdrop, Subscription.notifications, Subscription.chosen_event late early,
            withTexts_cons, Nat.add_assoc, Nat.add_comm 1]

section

variable {last : Feed} {items : List (Except FeedError Event)}

/-- A notice behind other texts. -/
theorem write_notice (well : WritesWell s) (texts : List String) :
    ((s.withTexts texts).write (Notification.complete now)).2 =
      s.withTexts (texts ++ [Notification.complete now]) := by
  have hwell : WritesWell (s.withTexts texts) := well
  rw [write_of_writesWell hwell, withTexts_append, withTexts_cons, withTexts_nil]

/-- A delivery ends at a failure or at a late event, whatever is behind that. -/
theorem drain_stops (well : WritesWell s) (hs : s.tornDown = false)
    (hd : d.feed = .ofItems items last)
    (hstop : items.dropWhile d.subscription.goesOnAt ≠ []) :
    Conversation.drain now d s = (.ended (d.sent + (d.subscription.chosen items).length),
      s.withTexts (d.subscription.messages now items)) := by
  have hopen : (s.withTexts (d.subscription.notifications items)).tornDown = false := hs
  have hfirst := List.head?_dropWhile_not d.subscription.goesOnAt items
  rw [drain_items well hs hd]
  cases hitems : items.dropWhile d.subscription.goesOnAt with
  | nil => exact absurd hitems hstop
  | cons item rest =>
    rw [hitems] at hfirst
    cases item with
    | error cause =>
      have hfeed : (through items last d).feed = .failure cause (.ofItems rest last) := by
        rw [through, hitems]
        rfl
      rw [drain_of_ended (deliver_failure hopen hfeed)]
      simp [through, Subscription.messages, Subscription.hasNotice, hitems]
    | ok e =>
      have hfeed : (through items last d).feed = .event e (.ofItems rest last) := by
        rw [through, hitems]
        rfl
      have late : d.subscription.isLate e = true := by
        simpa [Subscription.goesOnAt] using hfirst
      rw [drain_of_ended (deliver_late hopen hfeed late), write_notice well]
      simp [through, Subscription.messages, Subscription.hasNotice, hitems,
        Subscription.isSome_stop_of_isLate late]

/-- A delivery ends where its feed ends. -/
theorem drain_ended (well : WritesWell s) (hs : s.tornDown = false)
    (hd : d.feed = .ofItems items .ended) :
    Conversation.drain now d s = (.ended (d.sent + (d.subscription.chosen items).length),
      s.withTexts (d.subscription.messages now items)) := by
  by_cases hitems : items.dropWhile d.subscription.goesOnAt = []
  · have hfeed : (through items .ended d).feed = .ended := by
      rw [through, hitems]
      rfl
    have hopen : (s.withTexts (d.subscription.notifications items)).tornDown = false := hs
    rw [drain_items well hs hd, drain_of_ended (deliver_end hopen hfeed), write_notice well]
    cases hstop : d.subscription.stop <;>
      simp [through, Subscription.messages, Subscription.hasNotice, hitems, hstop]
  · exact drain_stops well hs hd hitems

end

/-! Where writing fails. -/

/-- A session at which the first of some texts has been tried. -/
def tried (s : FramedSession) : List String → FramedSession
  | [] => s
  | text :: _ => (s.write text).2

/-- A delivery as it goes on from a start, step by step, while time may pass. -/
inductive GoesOn (d : Delivery) (s : FramedSession) : Delivery → FramedSession → Prop
  | start : GoesOn d s d s
  | step {d' d'' : Delivery} {u u' : FramedSession} (before : GoesOn d s d' u)
      (at_ : Time.Instant) (step : u.deliver at_ d' = (.going d'', u')) : GoesOn d s d'' u'

/-- While it goes on, it has written the first of its messages, and has the others to write. -/
theorem GoesOn.messages {items : List (Except FeedError Event)} (h : GoesOn d s d' u)
    (hs : s.tornDown = false) (hd : d.feed = .ofItems items .ended) (now : Time.Instant) :
    ∃ (written : List String) (rest : List (Except FeedError Event)),
      d'.feed = .ofItems rest .ended ∧ d'.subscription = d.subscription ∧
      d'.sent = d.sent + written.length ∧ u = s.withTexts written ∧
      d.subscription.messages now items = written ++ d.subscription.messages now rest := by
  induction h with
  | start => exact ⟨[], items, hd, rfl, rfl, (withTexts_nil s).symm, rfl⟩
  | @step d' d'' u u' before at_ step ih =>
    obtain ⟨written, rest, hfeed, hsub, hsent, rfl, hmessages⟩ := ih
    have hopen : (s.withTexts written).tornDown = false := hs
    cases rest with
    | nil =>
      rw [deliver_end hopen hfeed] at step
      cases step
    | cons item rest =>
      cases item with
      | error cause =>
        rw [deliver_failure hopen hfeed] at step
        cases step
      | ok e =>
        cases late : d'.subscription.isLate e with
        | true =>
          rw [deliver_late hopen hfeed late] at step
          cases step
        | false =>
          cases early : d'.subscription.isEarly e with
          | true =>
            rw [deliver_early hopen hfeed late early] at step
            cases step
            refine ⟨written, rest, rfl, hsub, hsent, rfl, ?_⟩
            rw [hmessages, Subscription.messages_early now (hsub ▸ late) (hsub ▸ early)]
          | false =>
            obtain ⟨-, hwrite⟩ | ⟨-, err, session, hwrite, -⟩ :=
              Running.write_cases (s.withTexts written) (Notification.ofEvent e)
            · rw [deliver_event hopen hfeed late early hwrite] at step
              cases step
              refine ⟨written ++ [Notification.ofEvent e], rest, rfl, hsub, ?_, ?_, ?_⟩
              · simp [hsent, Nat.add_assoc]
              · rw [withTexts_append, withTexts_cons, withTexts_nil]
              · rw [hmessages, Subscription.messages_event now (hsub ▸ late) (hsub ▸ early),
                  List.append_assoc]
                rfl
            · rw [deliver_event_fails hopen hfeed late early hwrite] at step
              cases step

/-! The delivery of a subscription. -/

/-- The delivery of a subscription as it begins. -/
def beginning (sub : Subscription) (feed : Feed) (now : Time.Instant) : Delivery where
  subscription := sub
  feed := feed
  deadline := sub.stop.filter fun stop => !stop.before now

section

variable {request : Rpc.Request} {sub : Subscription} {feed : Feed} {source : EventSource}

/-- A valid subscription gets its feed. -/
theorem subscribe_of_valid (valid : Subscription.ofRequest request s.source.streams now = .ok sub)
    (subscribed : s.source.subscribe sub = (some feed, source)) :
    s.subscribe now request = (.going (beginning sub feed now), { s with source }) := by
  simp [subscribe, beginning, valid, subscribed]

theorem run_of_valid (valid : Subscription.ofRequest request s.source.streams now = .ok sub)
    (subscribed : s.source.subscribe sub = (some feed, source)) :
    (Conversation.run now request s : Progress Delivery × FramedSession) =
      Conversation.drain now (beginning sub feed now) { s with source } := by
  have hsubscribe : Conversation.subscribe now request s = s.subscribe now request := rfl
  rw [Conversation.run, hsubscribe, subscribe_of_valid valid subscribed]

end

end FramedSession

/-! Five minutes of which a client is told later. -/

/-- A request for the events between two times. -/
def fiveMinutes : Rpc.Request where
  attributes := []
  operation := .createSubscription
  content := some
    { name := "create-subscription"
      children := [{ name := "startTime", text := "2024-01-01T00:00:00Z" },
        { name := "stopTime", text := "2024-01-01T00:05:00Z" }] }

/-- The first second of them. -/
def firstSecond : Int := 1704067200

/-- The subscription that the request is for. -/
def fiveMinuteSubscription : Subscription where
  stream := Subscription.defaultStream
  start := some { seconds := firstSecond }
  stop := some { seconds := firstSecond + 300 }

/-- A session whose subscribers get a feed. -/
def listening (feed : Feed) : FramedSession := (Running.rehearsal "" feed).agent.session

/-- That session as one client has subscribed. -/
def subscribed (feed : Feed) : FramedSession :=
  { listening feed with source.opened := [(fiveMinuteSubscription, true)] }

theorem listening_subscribe (feed : Feed) :
    (listening feed).source.subscribe fiveMinuteSubscription =
      (some feed, (subscribed feed).source) := rfl

/-- Behind the five minutes. -/
def afterwards : Time.Instant := { seconds := firstSecond + 600 }

/-- The request is valid as soon as the first second has come. -/
theorem fiveMinutes_valid (feed : Feed) (now : Time.Instant)
    (begun : now.before { seconds := firstSecond } = false) :
    Subscription.ofRequest fiveMinutes (listening feed).source.streams now =
      .ok fiveMinuteSubscription := by
  have htimes : Subscription.ofRequest fiveMinutes (listening feed).source.streams now =
      (Subscription.checkTimes now fiveMinuteSubscription.start fiveMinuteSubscription.stop).map
        fun _ => fiveMinuteSubscription := rfl
  have horder : Subscription.checkTimes now fiveMinuteSubscription.start
      fiveMinuteSubscription.stop = .ok () := by
    simp only [Subscription.checkTimes, fiveMinuteSubscription, begun]
    rfl
  rw [htimes, horder]
  rfl

/-- Something that happened a number of seconds after their start. -/
def happened (seconds : Int) : Event where
  time := { seconds := firstSecond + seconds }
  content := "<happened/>"

namespace FramedSession

end FramedSession
end Netconf
