import Netconf.Proofs.Except
import Netconf.Proofs.Subscription.Delivery
import Netconf.Proofs.Time.Strict

/-! Which requests for events are valid. A request can be at fault in five ways, and is blamed for
the first of them. What a valid one asks for has nothing to do with the present instant, so a
request that has been found valid is also valid later, for the same events. -/
namespace Netconf

open Time (Instant)
open Time.Timestamp (Spells minusSigns)

/-! Instants in order. -/

theorem Time.Instant.before_eq_false_iff {a b : Instant} :
    a.before b = false ↔ b.seconds < a.seconds ∨ b.seconds = a.seconds ∧ b.nanos ≤ a.nanos := by
  simp only [Instant.before, Bool.or_eq_false_iff, Bool.and_eq_false_iff, decide_eq_false_iff_not,
    beq_eq_false_iff_ne]
  omega

theorem Time.Instant.not_before_trans {a b c : Instant} (h : c.before b = false)
    (h' : b.before a = false) : c.before a = false := by
  rw [Instant.before_eq_false_iff] at *
  omega

/-- A text spells one instant at most. -/
theorem Time.Timestamp.Spells.unique {s : String} {t u : Instant} (h : Spells minusSigns s t)
    (h' : Spells minusSigns s u) : t = u := by
  rw [← Instant.ofText_eq_ok_iff] at h h'
  exact Except.ok.inj (h.symm.trans h')

namespace Subscription

variable {request : Rpc.Request} {content : Xml.Element} {streams : List String}
  {now later : Instant} {sub : Subscription} {e : Rpc.Error} {name : String}
  {time start stop : Option Instant}

/-- What the body of a request says about a time: nothing, or the instant that the text of the first
child of a name spells. -/
def Says (content : Xml.Element) (name : String) : Option Instant → Prop
  | none => content.child? name = none
  | some t => ∃ child, content.child? name = some child ∧ Spells minusSigns (Text.trim child.text) t

/-- The text of the first child of a name spells no instant. -/
def Misspells (content : Xml.Element) (name : String) : Prop :=
  ∃ child, content.child? name = some child ∧ ∀ t, ¬ Spells minusSigns (Text.trim child.text) t

/-- The times are in order at an instant: nothing starts in the future, and nothing stops that does
not start, and before it starts. -/
structure AreInOrder (now : Instant) (start stop : Option Instant) : Prop where
  not_future : ∀ a, start = some a → now.before a = false
  not_reversed : ∀ b, stop = some b → ∃ a, start = some a ∧ b.before a = false

/-- The body of a request asks for a subscription: for the stream that the first child of that name
tells, or the usual one, and for the events that pass its first filter, between its times. -/
structure IsAsked (content : Xml.Element) (sub : Subscription) : Prop where
  stream : sub.stream = ((content.child? "stream").map fun e => Text.trim e.text).getD "NETCONF"
  filter : sub.filter = (content.child? "filter").map (·.inherit content.attributes)
  start : Says content "startTime" sub.start
  stop : Says content "stopTime" sub.stop

/-- The ways in which the body of a request can be at fault. -/
inductive Offence where
  | unknownStream
  | misspelledStart
  | misspelledStop
  | futureStart
  | badStop
deriving DecidableEq, Repr

namespace Offence

/-- All of them, in the order in which they count. -/
def all : List Offence := [unknownStream, misspelledStart, misspelledStop, futureStart, badStop]

/-- The element that is to blame. -/
def element : Offence → String
  | unknownStream => "stream"
  | misspelledStart => "startTime"
  | misspelledStop => "stopTime"
  | futureStart => "startTime"
  | badStop => "stopTime"

/-- The body of a request is at fault in this way. -/
def IsIn (content : Xml.Element) (streams : List String) (now : Instant) : Offence → Prop
  | unknownStream =>
    ((content.child? "stream").map fun e => Text.trim e.text).getD "NETCONF" ∉ streams
  | misspelledStart => Misspells content "startTime"
  | misspelledStop => Misspells content "stopTime"
  | futureStart => ∃ a, Says content "startTime" (some a) ∧ now.before a = true
  | badStop => ∃ b, Says content "stopTime" (some b) ∧ (Says content "startTime" none ∨
      ∃ a, Says content "startTime" (some a) ∧ b.before a = true)

/-- The first of the ways in which the body of a request is at fault. -/
def IsFirst (content : Xml.Element) (streams : List String) (now : Instant) (o : Offence) : Prop :=
  o.IsIn content streams now ∧ ∃ before behind, all = before ++ o :: behind ∧
    ∀ p ∈ before, ¬ p.IsIn content streams now

end Offence

/-! Times. -/

theorem Says.unique {time' : Option Instant} (h : Says content name time)
    (h' : Says content name time') : time = time' := by
  cases time with
  | none =>
    cases time' with
    | none => rfl
    | some u =>
      obtain ⟨child, hchild, -⟩ := h'
      exact nomatch h.symm.trans hchild
  | some t =>
    obtain ⟨child, hchild, ht⟩ := h
    cases time' with
    | none => exact nomatch hchild.symm.trans h'
    | some u =>
      obtain ⟨child', hchild', hu⟩ := h'
      obtain rfl := Option.some.inj (hchild.symm.trans hchild')
      rw [ht.unique hu]

theorem Says.not_misspells (h : Says content name time) : ¬ Misspells content name := by
  rintro ⟨child, hchild, hno⟩
  cases time with
  | none => exact nomatch hchild.symm.trans h
  | some t =>
    obtain ⟨child', hchild', ht⟩ := h
    obtain rfl := Option.some.inj (hchild.symm.trans hchild')
    exact hno t ht

theorem time?_eq_ok_iff : time? content name = .ok time ↔ Says content name time := by
  constructor
  · intro h
    rw [time?] at h
    split at h
    · next hchild =>
      obtain rfl := Except.ok.inj h
      exact hchild
    · next child hchild =>
      split at h
      · next t htext =>
        obtain rfl := Except.ok.inj h
        exact ⟨child, hchild, Instant.ofText_eq_ok_iff.mp htext⟩
      · cases h
  · intro h
    cases time with
    | none =>
      have hchild : content.child? name = none := h
      rw [time?, hchild]
    | some t =>
      obtain ⟨child, hchild, ht⟩ := h
      have htext : Instant.ofText child.content = .ok t := Instant.ofText_eq_ok_iff.mpr ht
      rw [time?, hchild]
      dsimp only
      rw [htext]

theorem of_time?_eq_error (h : time? content name = .error e) :
    Misspells content name ∧ e.badElement? = some name := by
  rw [time?] at h
  split at h
  · cases h
  · next child hchild =>
    split at h
    · cases h
    · next cause htext =>
      cases h
      refine ⟨⟨child, hchild, fun t ht => ?_⟩, rfl⟩
      exact nomatch htext.symm.trans (Instant.ofText_eq_ok_iff.mpr ht)

theorem checkTimes_eq_ok_iff {u : Unit} :
    checkTimes now start stop = .ok u ↔ AreInOrder now start stop := by
  constructor
  · intro h
    rw [checkTimes.eq_def] at h
    split at h
    · exact ⟨nofun, nofun⟩
    · cases h
    · next stop a =>
      split at h
      · cases h
      · next hfuture =>
        refine ⟨fun _ ha => ?_, fun b hb => ⟨a, rfl, ?_⟩⟩
        · obtain rfl := Option.some.inj ha
          exact Bool.eq_false_iff.mpr hfuture
        · subst hb
          dsimp only at h
          split at h
          · cases h
          · next hreversed => exact Bool.eq_false_iff.mpr hreversed
  · intro h
    cases start with
    | none =>
      cases stop with
      | none => rfl
      | some b =>
        obtain ⟨a, ha, -⟩ := h.not_reversed b rfl
        cases ha
    | some a =>
      have hfuture := h.not_future a rfl
      cases stop with
      | none => simp [checkTimes, hfuture]
      | some b =>
        obtain ⟨a', ha', hreversed⟩ := h.not_reversed b rfl
        obtain rfl := Option.some.inj ha'
        simp [checkTimes, hfuture, hreversed]

/-- Times that do not go together are blamed on the stop time, unless the start time is at fault. -/
theorem of_checkTimes_eq_error (streams : List String)
    (hstart : Says content "startTime" start) (hstop : Says content "stopTime" stop)
    (h : checkTimes now start stop = .error e) :
    Offence.futureStart.IsIn content streams now ∧ e.badElement? = some "startTime" ∨
      ¬ Offence.futureStart.IsIn content streams now ∧
        Offence.badStop.IsIn content streams now ∧ e.badElement? = some "stopTime" := by
  rw [checkTimes.eq_def] at h
  split at h
  · cases h
  · next b =>
    cases h
    refine .inr ⟨?_, ⟨b, hstop, .inl hstart⟩, rfl⟩
    rintro ⟨a, ha, -⟩
    exact nomatch hstart.unique ha
  · next stop a =>
    split at h
    · next hfuture =>
      cases h
      exact .inl ⟨⟨a, hstart, hfuture⟩, rfl⟩
    · next hfuture =>
      split at h
      · cases h
      · next b =>
        split at h
        · next hreversed =>
          cases h
          refine .inr ⟨?_, ⟨b, hstop, .inr ⟨a, hstart, hreversed⟩⟩, rfl⟩
          rintro ⟨a', ha', hfuture'⟩
          obtain rfl := Option.some.inj (hstart.unique ha')
          exact hfuture hfuture'
        · cases h

/-! Requests. -/

theorem ofRequest_of_content (hcontent : request.content = some content)
    (hname : content.name = "create-subscription") :
    ofRequest request streams now =
      if streamOf content ∈ streams then do
        let start ← time? content "startTime"
        let stop ← time? content "stopTime"
        checkTimes now start stop
        return ⟨streamOf content, (content.child? "filter").map (·.inherit content.attributes),
          start, stop⟩
      else
        .error ((((Rpc.Error.ofTag .invalidValue).onLayer .protocol).about
          (.badElement "stream")).saying
            ("Requested stream '" ++ streamOf content ++ "' does not exist.")) := by
  rw [ofRequest, hcontent, Option.filter_some, if_pos (by simpa using hname)]

theorem exists_content_of_ok (h : ofRequest request streams now = .ok sub) :
    ∃ content, request.content = some content ∧ content.name = "create-subscription" := by
  rw [ofRequest] at h
  split at h
  · cases h
  · next content hcontent =>
    obtain ⟨hcontent, hname⟩ := Option.filter_eq_some_iff.mp hcontent
    exact ⟨content, hcontent, by simpa using hname⟩

theorem ofRequest_eq_ok_iff :
    ofRequest request streams now = .ok sub ↔ ∃ content, request.content = some content ∧
      content.name = "create-subscription" ∧ IsAsked content sub ∧ sub.stream ∈ streams ∧
        AreInOrder now sub.start sub.stop := by
  constructor
  · intro h
    obtain ⟨content, hcontent, hname⟩ := exists_content_of_ok h
    rw [ofRequest_of_content hcontent hname] at h
    split at h
    · next hstream =>
      simp only [Except.bind_eq_ok_iff, time?_eq_ok_iff, checkTimes_eq_ok_iff] at h
      obtain ⟨start, hstart, stop, hstop, -, horder, h⟩ := h
      cases h
      exact ⟨content, hcontent, hname, ⟨rfl, rfl, hstart, hstop⟩, hstream, horder⟩
    · cases h
  · rintro ⟨content, hcontent, hname, hasked, hstream, horder⟩
    have hstream' : sub.stream = streamOf content := hasked.stream
    rw [ofRequest_of_content hcontent hname, if_pos (hstream' ▸ hstream)]
    simp only [Except.bind_eq_ok_iff, time?_eq_ok_iff, checkTimes_eq_ok_iff]
    refine ⟨_, hasked.start, _, hasked.stop, (), horder, ?_⟩
    rw [← hstream', ← hasked.filter]
    rfl

/-- A request is blamed for the first thing that is wrong with it. -/
theorem isFirst_of_error (hcontent : request.content = some content)
    (hname : content.name = "create-subscription")
    (h : ofRequest request streams now = .error e) :
    ∃ o : Offence, o.IsFirst content streams now ∧ e.badElement? = some o.element := by
  rw [ofRequest_of_content hcontent hname] at h
  split at h
  · next hstream =>
    -- One check after the other: where one fails, those before it have not.
    have hstream' : ¬ Offence.unknownStream.IsIn content streams now := not_not_intro hstream
    simp only [Except.bind_eq_error_iff, time?_eq_ok_iff] at h
    obtain hstart | ⟨start, hstart, hstop | ⟨stop, hstop, htimes | ⟨-, -, h⟩⟩⟩ := h
    · obtain ⟨hbad, hblame⟩ := of_time?_eq_error hstart
      exact ⟨.misspelledStart, ⟨hbad, [.unknownStream], _, rfl, by simpa using hstream'⟩, hblame⟩
    · have hstart' : ¬ Offence.misspelledStart.IsIn content streams now := hstart.not_misspells
      obtain ⟨hbad, hblame⟩ := of_time?_eq_error hstop
      exact ⟨.misspelledStop, ⟨hbad, [.unknownStream, .misspelledStart], _, rfl,
        by simpa using ⟨hstream', hstart'⟩⟩, hblame⟩
    · have hstart' : ¬ Offence.misspelledStart.IsIn content streams now := hstart.not_misspells
      have hstop' : ¬ Offence.misspelledStop.IsIn content streams now := hstop.not_misspells
      obtain ⟨hbad, hblame⟩ | ⟨hfuture, hbad, hblame⟩ :=
        of_checkTimes_eq_error streams hstart hstop htimes
      · exact ⟨.futureStart, ⟨hbad, [.unknownStream, .misspelledStart, .misspelledStop], _, rfl,
          by simpa using ⟨hstream', hstart', hstop'⟩⟩, hblame⟩
      · exact ⟨.badStop, ⟨hbad, [.unknownStream, .misspelledStart, .misspelledStop, .futureStart],
          _, rfl, by simpa using ⟨hstream', hstart', hstop', hfuture⟩⟩, hblame⟩
    · cases h
  · next hstream =>
    cases h
    exact ⟨.unknownStream, ⟨hstream, [], _, rfl, nofun⟩, rfl⟩

/-- A request asks for one subscription at most. -/
theorem IsAsked.unique {sub' : Subscription} (h : IsAsked content sub) (h' : IsAsked content sub') :
    sub = sub' := by
  obtain ⟨stream, filter, start, stop⟩ := sub
  obtain ⟨stream', filter', start', stop'⟩ := sub'
  obtain rfl : stream = stream' := h.stream.trans h'.stream.symm
  obtain rfl : filter = filter' := h.filter.trans h'.filter.symm
  obtain rfl : start = start' := h.start.unique h'.start
  obtain rfl : stop = stop' := h.stop.unique h'.stop
  rfl

theorem AreInOrder.mono (h : AreInOrder now start stop) (hlater : later.before now = false) :
    AreInOrder later start stop :=
  ⟨fun a ha => Instant.not_before_trans hlater (h.not_future a ha), h.not_reversed⟩

theorem ofRequest_later (h : ofRequest request streams now = .ok sub)
    (hlater : later.before now = false) : ofRequest request streams later = .ok sub := by
  obtain ⟨content, hcontent, hname, hasked, hstream, horder⟩ := ofRequest_eq_ok_iff.mp h
  exact ofRequest_eq_ok_iff.mpr ⟨content, hcontent, hname, hasked, hstream, horder.mono hlater⟩

end Subscription

namespace FramedSession

variable {s : FramedSession} {request : Rpc.Request} {now : Instant} {sub : Subscription}

theorem exists_of_check_eq_ok (h : s.check now request = .ok) :
    ∃ sub, Subscription.ofRequest request s.source.streams now = .ok sub := by
  rw [check] at h
  split at h
  · next sub hsub => exact ⟨sub, hsub⟩
  · cases h

theorem subscribe_source (h : Subscription.ofRequest request s.source.streams now = .ok sub) :
    (s.subscribe now request).2.source = (s.source.subscribe sub).2 := by
  rw [subscribe, h]
  cases hfeed : s.source.subscribe sub with
  | mk feed source => cases feed <;> simp [hfeed]

end FramedSession

open FramedSession (beginning)

/-- A request for events is valid just if it asks for a stream that there is and for times that are
in order, and otherwise it is blamed for what is wrong with it first. It asks for the same at all
times. So when a session has found it valid, then later that session, or any that has the same
streams, begins to deliver what it asked for. -/
theorem Subscription.ofRequest_lawful (request : Rpc.Request) (streams : List String)
    (now : Instant) :
    (∀ sub, ofRequest request streams now = .ok sub ↔ ∃ content, request.content = some content ∧
      content.name = "create-subscription" ∧ IsAsked content sub ∧ sub.stream ∈ streams ∧
        AreInOrder now sub.start sub.stop) ∧
    (∀ content e, request.content = some content → content.name = "create-subscription" →
      ofRequest request streams now = .error e →
        ∃ o : Offence, o.IsFirst content streams now ∧ e.badElement? = some o.element) ∧
    (∀ sub later sub', ofRequest request streams now = .ok sub →
      ofRequest request streams later = .ok sub' → sub' = sub) ∧
    ∀ (s u : FramedSession) (later : Instant), s.source.streams = streams →
      u.source.streams = streams → later.before now = false → s.check now request = .ok →
        ∃ sub, ofRequest request streams now = .ok sub ∧
          ofRequest request streams later = .ok sub ∧
          (u.subscribe later request).2.source = (u.source.subscribe sub).2 ∧
          ∀ feed source, u.source.subscribe sub = (some feed, source) →
            u.subscribe later request = (.going (beginning sub feed later), { u with source }) := by
  refine ⟨fun sub => ofRequest_eq_ok_iff, fun content e => isFirst_of_error, ?_, ?_⟩
  · intro sub later sub' h h'
    obtain ⟨content, hcontent, -, hasked, -⟩ := ofRequest_eq_ok_iff.mp h
    obtain ⟨content', hcontent', -, hasked', -⟩ := ofRequest_eq_ok_iff.mp h'
    obtain rfl := Option.some.inj (hcontent.symm.trans hcontent')
    exact hasked'.unique hasked
  · rintro s u later rfl hstreams hlater hcheck
    obtain ⟨sub, hsub⟩ := FramedSession.exists_of_check_eq_ok hcheck
    have hsub' := ofRequest_later hsub hlater
    have hvalid : ofRequest request u.source.streams later = .ok sub := hstreams ▸ hsub'
    exact ⟨sub, hsub, hsub', FramedSession.subscribe_source hvalid,
      fun feed source => FramedSession.subscribe_of_valid hvalid⟩

namespace FramedSession

/-- The five minutes are found valid when they begin, and delivered when they are over. Before they
begin the request is blamed for its start time. -/
theorem fiveMinutes_kept :
    (listening .ended).check { seconds := firstSecond } fiveMinutes = .ok ∧
    (listening .ended).subscribe afterwards fiveMinutes =
      (.going (beginning fiveMinuteSubscription .ended afterwards), subscribed .ended) ∧
    ∃ content e o, fiveMinutes.content = some content ∧
      Subscription.ofRequest fiveMinutes (listening .ended).source.streams { seconds := 0 } =
        .error e ∧
      Subscription.Offence.IsFirst content (listening .ended).source.streams { seconds := 0 } o ∧
      e.badElement? = some o.element ∧ o.element = "startTime" := by
  obtain ⟨-, -, -, hkept⟩ := Subscription.ofRequest_lawful fiveMinutes
    (listening .ended).source.streams { seconds := firstSecond }
  have hvalid := fiveMinutes_valid .ended { seconds := firstSecond } rfl
  have hcheck : (listening .ended).check { seconds := firstSecond } fiveMinutes = .ok := by
    rw [check, hvalid]
  obtain ⟨sub, hsub, -, -, hbegins⟩ :=
    hkept (listening .ended) (listening .ended) afterwards rfl rfl rfl hcheck
  obtain rfl := Except.ok.inj (hvalid.symm.trans hsub)
  obtain ⟨-, hblamed, -⟩ := Subscription.ofRequest_lawful fiveMinutes
    (listening .ended).source.streams { seconds := 0 }
  obtain ⟨o, hfirst, helement⟩ := hblamed _ _ rfl rfl rfl
  refine ⟨hcheck, hbegins _ _ (listening_subscribe _), _, _, o, rfl, rfl, hfirst, helement, ?_⟩
  exact (Option.some.inj helement).symm

end FramedSession

namespace Subscription

/-- The body of a request that starts at a local time two hours west, with a sign of its own for the
minus of the offset. -/
def westernBody : Xml.Element where
  name := "create-subscription"
  children := [{ name := "startTime", text := "2024-01-01T00:00:00−02:00" }]

/-- That request. -/
def western : Rpc.Request where
  attributes := [{ name := "message-id", value := "1" }]
  operation := .createSubscription
  content := some westernBody

/-- The request is valid, although RFC 3339 has no such minus sign. -/
theorem western_accepted :
    (∃ sub, ofRequest western [defaultStream] { seconds := 1717200000 } = .ok sub) ∧
    ∃ child, westernBody.child? "startTime" = some child ∧
      ∀ t, ¬ Spells ['-'] (Text.trim child.text) t := by
  refine ⟨⟨_, rfl⟩, _, rfl, fun t h => ?_⟩
  have hminus : '−' ∈ ['-'] := h.mem_minuses (by decide) (by decide) (by decide)
  exact absurd hminus (by decide)

end Subscription
end Netconf
