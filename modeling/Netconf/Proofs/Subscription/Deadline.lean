import Mathlib.Data.List.TakeWhile
import Netconf.Proofs.Subscription.Delivery

/-! When a delivery comes to its end. A delivery with a stop time ends with a notice at the latest
at that time, even on a silent feed. But one that begins behind its stop time waits on a silent feed
for ever. -/
namespace Netconf

open Running (WritesWell)

/-- Whether a delivery that began at an instant still waits at a later one. Nothing on its feed ends
it, and its stop time has not come, or had already passed. -/
def Subscription.Waits (sub : Subscription) (events : List Event) (last : Feed)
    (now later : Time.Instant) : Prop :=
  last = .silent ∧ (∀ e ∈ events, sub.isLate e = false) ∧ ∀ stop, sub.stop = some stop →
    stop.before now = true ∨ now.before stop = true ∧ later.before stop = true

namespace Subscription

variable {sub : Subscription}

theorem dropWhile_events {events : List Event} :
    (events.map .ok).dropWhile sub.goesOnAt = [] ↔ ∀ e ∈ events, sub.isLate e = false := by
  rw [List.dropWhile_eq_nil_iff]
  simp [goesOnAt]

/-- Where there are no failures, only the stop time matters. -/
theorem hasNotice_events (events : List Event) :
    sub.hasNotice (events.map .ok) = sub.stop.isSome := by
  induction events with
  | nil => simp [hasNotice]
  | cons e events ih =>
    rw [List.map_cons]
    cases h : sub.isLate e with
    | true => exact hasNotice_late h
    | false => exact (hasNotice_timely h).trans ih

end Subscription

namespace FramedSession

variable {s u : FramedSession} {now : Time.Instant} {request : Rpc.Request} {sub : Subscription}
  {source : EventSource}

/-- What a delivery has come to at a later instant, if nothing more has come on its feed. -/
def deliverBy (s : FramedSession) (now later : Time.Instant) (request : Rpc.Request) :
    Progress Delivery × FramedSession :=
  match (Conversation.run now request s : Progress Delivery × FramedSession) with
  | (.waiting d, u) => Conversation.drain later d u
  | p => p

/-- On a silent feed a delivery waits, unless its deadline is there. -/
theorem drain_silence (hs : s.tornDown = false) (hd : d.feed = .silent) :
    Conversation.drain now d s = if d.deadline.any (fun stop => !now.before stop) then
      (.ended d.sent, (s.write (Notification.complete now)).2) else (.waiting d, s) := by
  split
  · next hdue => exact drain_of_ended ((deliver_silence hs hd).trans (if_pos hdue))
  · next hdue => exact drain_of_waiting ((deliver_silence hs hd).trans (if_neg hdue))

/-- Behind timely items, a delivery ends as soon as its deadline is there. -/
theorem deliverBy_silent {items : List (Except FeedError Event)} (later : Time.Instant)
    (valid : Subscription.ofRequest request s.source.streams now = .ok sub)
    (subscribed : s.source.subscribe sub = (some (.ofItems items .silent), source))
    (untouched : s.tornDown = false) (well : WritesWell s)
    (timely : items.dropWhile sub.goesOnAt = []) :
    s.deliverBy now later request =
      if (sub.stop.filter fun stop => !stop.before now).any fun stop => !now.before stop then
        (.ended (sub.chosen items).length,
          ({ s with source }).withTexts (sub.notifications items ++ [Notification.complete now]))
      else if (sub.stop.filter fun stop => !stop.before now).any fun stop => !later.before stop then
        (.ended (sub.chosen items).length,
          ({ s with source }).withTexts (sub.notifications items ++ [Notification.complete later]))
      else (.waiting (through items .silent (beginning sub (.ofItems items .silent) now)),
        ({ s with source }).withTexts (sub.notifications items)) := by
  have hwell : WritesWell { s with source } := well
  have hopen : ({ s with source } : FramedSession).tornDown = false := untouched
  have hopen' : (({ s with source } : FramedSession).withTexts
      (sub.notifications items)).tornDown = false := untouched
  have hfeed : (through items .silent (beginning sub (.ofItems items .silent) now)).feed =
      .silent := by
    dsimp only [through, beginning]
    rw [timely]
    rfl
  have hitems : Conversation.drain now (beginning sub (.ofItems items .silent) now)
      { s with source } = Conversation.drain now
        (through items .silent (beginning sub (.ofItems items .silent) now))
        (({ s with source }).withTexts (sub.notifications items)) := drain_items hwell hopen rfl
  have hsent : (through items .silent (beginning sub (.ofItems items .silent) now)).sent =
      (sub.chosen items).length := Nat.zero_add _
  have hdeadline : (through items .silent (beginning sub (.ofItems items .silent) now)).deadline =
      sub.stop.filter fun stop => !stop.before now := rfl
  unfold deliverBy
  rw [run_of_valid valid subscribed, hitems, drain_silence hopen' hfeed, ← write_notice hwell,
    ← write_notice hwell, ← hsent, ← hdeadline]
  generalize through items .silent (beginning sub (.ofItems items .silent) now) = d at hfeed ⊢
  by_cases hdue : d.deadline.any (fun stop => !now.before stop) = true
  · rw [if_pos hdue, if_pos hdue]
  · rw [if_neg hdue, if_neg hdue]
    exact drain_silence hopen' hfeed

/-- Where a delivery ends by itself, nothing is left for later. -/
theorem deliverBy_of_ended {sent : Nat} (later : Time.Instant)
    (h : (Conversation.run now request s : Progress Delivery × FramedSession) = (.ended sent, u)) :
    s.deliverBy now later request = (.ended sent, u) := by
  rw [deliverBy, h]

/-- A delivery with a stop time comes to its end by a later instant, and the last thing that it
writes, behind the notifications, is a notice, unless it waits. It waits on a silent feed without
any late event, before its stop time, but also for ever if the stop time had passed as it began. -/
theorem ends_unless_waits {events : List Event} {last : Feed} {stop : Time.Instant}
    (valid : Subscription.ofRequest request s.source.streams now = .ok sub)
    (stops : sub.stop = some stop) (lasts : last = .ended ∨ last = .silent)
    (subscribed : s.source.subscribe sub = (some (.ofItems (events.map .ok) last), source))
    (untouched : s.tornDown = false) (well : WritesWell s) (later : Time.Instant) :
    (¬ sub.Waits events last now later → ∃ at_, (at_ = now ∨ at_ = later) ∧
      s.deliverBy now later request = (.ended (sub.chosen (events.map .ok)).length,
        ({ s with source }).withTexts
          (sub.notifications (events.map .ok) ++ [Notification.complete at_]))) ∧
    (sub.Waits events last now later → ∃ d, s.deliverBy now later request =
      (.waiting d, ({ s with source }).withTexts (sub.notifications (events.map .ok)))) := by
  have hwell : WritesWell { s with source } := well
  have hopen : ({ s with source } : FramedSession).tornDown = false := untouched
  have hmessages : ∀ t, sub.messages t (events.map .ok) =
      sub.notifications (events.map .ok) ++ [Notification.complete t] := by
    intro t
    simp [Subscription.messages, Subscription.hasNotice_events, stops]
  -- A delivery that ends at once does not wait.
  have hends : (Conversation.run now request s : Progress Delivery × FramedSession) =
      (.ended (sub.chosen (events.map .ok)).length,
        ({ s with source }).withTexts (sub.messages now (events.map .ok))) →
      ∃ at_, (at_ = now ∨ at_ = later) ∧
        s.deliverBy now later request = (.ended (sub.chosen (events.map .ok)).length,
          ({ s with source }).withTexts
            (sub.notifications (events.map .ok) ++ [Notification.complete at_])) := by
    intro hrun
    exact ⟨now, .inl rfl, by rw [deliverBy_of_ended later hrun, hmessages]⟩
  by_cases htimely : ∀ e ∈ events, sub.isLate e = false
  · obtain rfl | rfl := lasts
    · refine ⟨fun _ => hends ?_, fun h => absurd h.1 (by simp)⟩
      rw [run_of_valid valid subscribed, drain_ended hwell hopen rfl]
      simp [beginning]
    · have hby := deliverBy_silent later valid subscribed untouched well
        (Subscription.dropWhile_events.mpr htimely)
      have hwaits : sub.Waits events .silent now later ↔
          (stop.before now = true ∨ now.before stop = true ∧ later.before stop = true) :=
        ⟨fun h => h.2.2 stop stops, fun h => ⟨rfl, htimely, fun t ht => by
          rw [← Option.some.inj (stops.symm.trans ht)]
          exact h⟩⟩
      rw [hwaits, hby, stops]
      cases hpast : stop.before now <;> cases hnow : now.before stop <;>
        cases hlater : later.before stop <;> simp [Option.filter, hpast, hnow, hlater]
  · have hstop : (events.map .ok).dropWhile sub.goesOnAt ≠ [] := fun h =>
      htimely (Subscription.dropWhile_events.mp h)
    refine ⟨fun _ => hends ?_, fun h => absurd h.2.1 htimely⟩
    rw [run_of_valid valid subscribed, drain_stops hwell hopen rfl hstop]
    simp [beginning]

/-- A delivery from the second minute on waits before the five minutes are over, and then ends with
a notice. -/
theorem fiveMinutes_over :
    Subscription.ofRequest fiveMinutes
      (listening (.ofItems ([happened 0].map .ok) .silent)).source.streams
      { seconds := firstSecond + 60 } = .ok fiveMinuteSubscription ∧
    (listening (.ofItems ([happened 0].map .ok) .silent)).tornDown = false ∧
    WritesWell (listening (.ofItems ([happened 0].map .ok) .silent)) ∧
    (∃ d, (listening (.ofItems ([happened 0].map .ok) .silent)).deliverBy
        { seconds := firstSecond + 60 } { seconds := firstSecond + 299 } fiveMinutes =
      (.waiting d, (subscribed (.ofItems ([happened 0].map .ok) .silent)).withTexts
        [Notification.ofEvent (happened 0)])) ∧
    ∃ at_, (listening (.ofItems ([happened 0].map .ok) .silent)).deliverBy
        { seconds := firstSecond + 60 } { seconds := firstSecond + 300 } fiveMinutes =
      (.ended 1, (subscribed (.ofItems ([happened 0].map .ok) .silent)).withTexts
        [Notification.ofEvent (happened 0), Notification.complete at_]) := by
  have hvalid := fiveMinutes_valid (.ofItems ([happened 0].map .ok) .silent)
    { seconds := firstSecond + 60 } rfl
  have hends := ends_unless_waits hvalid rfl (.inr rfl)
    (listening_subscribe (.ofItems ([happened 0].map .ok) .silent)) rfl ⟨rfl, rfl⟩
  have htimely : ∀ e ∈ [happened 0], fiveMinuteSubscription.isLate e = false := by decide
  refine ⟨hvalid, rfl, ⟨rfl, rfl⟩, (hends _).2 ⟨rfl, htimely, ?_⟩, ?_⟩
  · intro stop hstop
    cases hstop
    exact .inr ⟨rfl, rfl⟩
  · obtain ⟨at_, -, hended⟩ := (hends { seconds := firstSecond + 300 }).1 fun hwaits => by
      obtain hpast | ⟨-, hearly⟩ := hwaits.2.2 _ rfl
      · exact nomatch hpast
      · exact nomatch hearly
    exact ⟨at_, hended⟩

/-- Behind the five minutes, a delivery that nothing comes for never ends, and writes nothing. -/
theorem overdue_waits :
    Subscription.ofRequest fiveMinutes (listening .silent).source.streams afterwards =
      .ok fiveMinuteSubscription ∧
    fiveMinuteSubscription.stop.isSome = true ∧
    (listening .silent).tornDown = false ∧ WritesWell (listening .silent) ∧
    ∀ later, ∃ d u, (listening .silent).deliverBy afterwards later fiveMinutes = (.waiting d, u) ∧
      u.output.written = [] := by
  have hvalid := fiveMinutes_valid .silent afterwards rfl
  refine ⟨hvalid, rfl, rfl, ⟨rfl, rfl⟩, fun later => ?_⟩
  have hby := deliverBy_silent later hvalid (listening_subscribe (.ofItems [] .silent)) rfl
    ⟨rfl, rfl⟩ rfl
  exact ⟨_, _, hby, rfl⟩

end FramedSession
end Netconf
