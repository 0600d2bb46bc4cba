import Netconf.Proofs.Agent.Intake
import Netconf.Proofs.Agent.Journey
import Netconf.Proofs.Agent.Progress
import Netconf.Proofs.Agent.Sequential
import Netconf.Proofs.Agent.Turns

/-! What the end of a session says about what its client has sent. Every exit has its warrant in
the messages that have been taken and in what is left of the stream behind them. A client that
closes its stream therefore brings the session to the end that its messages ask for. -/
namespace Netconf

/-- Whether a message is a request to end the session. -/
def FramedSession.Closes (m : Bytes) : Prop :=
  ∃ r, IsRequest m r ∧ r.operation = .closeSession

theorem allArrived_of_quiet {l : List Happening} (h : ∀ e ∈ l, e.isCourse = false)
    (input : Incoming) : allArrived input l = input := by
  apply allArrived_of_not_intake
  intro e he
  exact (Bool.or_eq_false_iff.mp (h e he)).1

namespace Course

variable {terms : Terms} {start v : Standing} {hs : List Happening}

/-- Of the messages that the loop is done with, as many as requests to end the session have been
decided are such requests. -/
theorem countP_closes (h : Course terms start hs v) (hstart : start.station = .looking)
    (hnone : v.station.underWay = none) :
    ((takenMessages hs).filterMap FramedSession.requested?).countP
      (fun r => r.operation = .closeSession) = closings hs := by
  rw [h.requests hstart, hnone]
  exact congrArg (List.countP _) (List.append_nil _)

/-- Where nothing has been decided to end the session no message that the loop is done with is a
request to end it. -/
theorem not_closes (h : Course terms start hs v) (hstart : start.station = .looking)
    (hnone : v.station.underWay = none) (hcloses : closings hs = 0) :
    ∀ m ∈ takenMessages hs, ¬ FramedSession.Closes m := by
  rintro m hm ⟨r, hr, hop⟩
  rw [← h.countP_closes hstart hnone, List.countP_eq_zero] at hcloses
  have hmem : r ∈ (takenMessages hs).filterMap FramedSession.requested? :=
    List.mem_filterMap.mpr ⟨m, hm, FramedSession.requested?_eq_some_iff.mpr hr⟩
  exact hcloses r hmem (by simpa using hop)

/-- Otherwise the last message is one, and no other. -/
theorem exists_closes (h : Course terms start hs v) (hstart : start.station = .looking)
    (hcloses : closings hs ≠ 0) : ∃ before m, takenMessages hs = before ++ [m] ∧
      FramedSession.Closes m ∧ ∀ m' ∈ before, ¬ FramedSession.Closes m' := by
  obtain ⟨hle, hlast⟩ := h.closings_le hstart
  obtain ⟨before, m, r, htaken, hm, hr⟩ := hlast hcloses
  refine ⟨before, m, htaken, ⟨r, FramedSession.requested?_eq_some_iff.mp hm, hr⟩, ?_⟩
  have hcount := h.countP_closes hstart (Station.underWay_of_isSpent (h.isSpent hcloses))
  have hone : ([m].filterMap FramedSession.requested?).countP
      (fun r => r.operation = .closeSession) = 1 := by simp [hm, hr]
  rw [htaken, List.filterMap_append, List.countP_append, hone] at hcount
  have hzero : (before.filterMap FramedSession.requested?).countP
      (fun r => r.operation = .closeSession) = 0 := by omega
  rw [List.countP_eq_zero] at hzero
  rintro m' hm' ⟨r', hr', hop⟩
  have hmem : r' ∈ before.filterMap FramedSession.requested? :=
    List.mem_filterMap.mpr ⟨m', hm', FramedSession.requested?_eq_some_iff.mpr hr'⟩
  exact hzero r' hmem (by simpa using hop)

end Course

namespace Terms

/-- Someone who takes messages off a stream meets a failure behind them. -/
def Breaks (terms : Terms) (arrived : Incoming) (taken : List Bytes) (e : FramingError)
    (rest : Incoming) : Prop :=
  ∃ left, terms.framing.Takes terms.limit arrived taken left ∧
    terms.read left = (.failure e, rest)

theorem Breaks.append {terms : Terms} {arrived rest : Incoming} {taken : List Bytes}
    {e : FramingError} (h : terms.Breaks arrived taken e rest) (more : Incoming) :
    terms.Breaks (arrived.append more) taken e (rest.append more) := by
  obtain ⟨left, htakes, hread⟩ := h
  exact ⟨left.append more, htakes.append more, Framing.read_append more hread (by simp)⟩

end Terms

/-- What there is to an exit, where messages have been taken of what has come in, some input is
left, and the agent has been asked to end or not. -/
def Exit.Warranted (terms : Terms) (arrived : Incoming) (taken : List Bytes) (asked : Bool)
    (input : Incoming) : Exit → Prop
  | shutdown => asked = true
  | closed => terms.framing.Takes terms.limit arrived taken input
  | hungUp => terms.Breaks arrived taken .closed input
  | fatal .unusable => ∃ e, e ≠ .closed ∧ terms.Breaks arrived taken e input
  | fatal (.wait _) => False
  | fatal (.transport f) => terms.framing.Takes terms.limit arrived taken (.fault f input)

namespace Station

/-- A loop that is on its way to an exit has its reasons. -/
def Warranted (terms : Terms) (arrived : Incoming) (taken : List Bytes) (status : Status)
    (asked : Bool) (input : Incoming) : Station → Prop
  | heeding .hungUp => terms.Breaks arrived taken .closed input
  | heeding .unknown => status ≠ .working → ∃ e, e ≠ .closed ∧ terms.Breaks arrived taken e input
  | closing exit => exit.Warranted terms arrived taken asked input
  | dismissing exit => exit.Warranted terms arrived taken asked input
  | leaving exit => exit.Warranted terms arrived taken asked input
  | ended exit => exit.Warranted terms arrived taken asked input
  | _ => True

/-- Where the loop stands while it still reads whatever comes. -/
def isReading : Station → Bool
  | heeding _ => false
  | closing _ => false
  | dismissing _ => false
  | leaving _ => false
  | ended _ => false
  | _ => true

end Station

section Warrants

variable {terms : Terms} {arrived input : Incoming} {taken : List Bytes} {asked : Bool}

theorem Exit.Warranted.arrive {exit : Exit}
    (h : exit.Warranted terms arrived taken asked input) (more : Incoming) :
    exit.Warranted terms (arrived.append more) taken asked (input.append more) := by
  cases exit with
  | shutdown => exact h
  | closed => exact Framing.Takes.append h more
  | hungUp => exact Terms.Breaks.append h more
  | fatal e =>
    cases e with
    | unusable =>
      obtain ⟨e, he, hbreaks⟩ := h
      exact ⟨e, he, hbreaks.append more⟩
    | wait e => exact h
    | transport f => exact Framing.Takes.append h more

theorem Exit.Warranted.ask {exit : Exit} (h : exit.Warranted terms arrived taken asked input) :
    exit.Warranted terms arrived taken true input := by
  cases exit with
  | shutdown => rfl
  | fatal e => cases e <;> exact h
  | _ => exact h

namespace Station.Warranted

variable {station : Station} {status : Status}

theorem arrive (h : station.Warranted terms arrived taken status asked input) (more : Incoming) :
    station.Warranted terms (arrived.append more) taken status asked (input.append more) := by
  cases station with
  | heeding r =>
    cases r with
    | hungUp => exact Terms.Breaks.append h more
    | unknown =>
      intro hidle
      obtain ⟨e, he, hbreaks⟩ := h hidle
      exact ⟨e, he, hbreaks.append more⟩
    | _ => trivial
  | closing exit | dismissing exit | leaving exit | ended exit => exact Exit.Warranted.arrive h more
  | _ => trivial

theorem ask (h : station.Warranted terms arrived taken status asked input) :
    station.Warranted terms arrived taken status true input := by
  cases station with
  | heeding r => cases r <;> exact h
  | closing exit | dismissing exit | leaving exit | ended exit => exact Exit.Warranted.ask h
  | _ => trivial

theorem exit {exit : Exit} (h : station.Warranted terms arrived taken status asked input)
    (hexit : station.exit? = some exit) : exit.Warranted terms arrived taken asked input := by
  cases station <;> cases hexit <;> exact h

end Station.Warranted

/-- How a loop stands that has its reasons. -/
def Standing.Warranted (terms : Terms) (arrived : Incoming) (taken : List Bytes) (v : Standing) :
    Prop := v.station.Warranted terms arrived taken v.status v.asked v.input

theorem Stride.warranted {v w : Standing} {l : List Happening} (h : Stride terms v l w)
    (hallows : v.station.Allows v.status)
    (htakes : v.station.isReading = true → terms.framing.Takes terms.limit arrived taken v.input)
    (hv : v.Warranted terms arrived taken) :
    w.Warranted terms (allArrived arrived l) (taken ++ takenMessages l) := by
  have hsame : ∀ {l : List Happening} {w : Standing}, (∀ e ∈ l, e.isCourse = false) →
      w.Warranted terms arrived taken →
      w.Warranted terms (allArrived arrived l) (taken ++ takenMessages l) := by
    intro l w hl hw
    rw [takenMessages_of_quiet hl, allArrived_of_quiet hl, List.append_nil]
    exact hw
  have hnone : ∀ {w : Standing}, w.Warranted terms arrived taken →
      w.Warranted terms (allArrived arrived []) (taken ++ takenMessages []) := hsame (by simp)
  unfold Standing.Warranted at hv
  -- A loop that reads has no reason to end yet. It gets one with what it reads, and keeps it.
  cases h with
  | rest quiet => exact hsame quiet hv
  | arrive more =>
    change Standing.Warranted terms (arrived.append more) (taken ++ []) _
    rw [List.append_nil]
    exact hv.arrive more
  | ask => exact hnone hv.ask
  | obey _ asked => exact hnone asked
  | retire at_ => exact hnone (htakes (by rw [at_]; rfl))
  | refuse at_ ended =>
    rw [at_, ended] at hallows
    cases hallows
  | fault at_ input =>
    have hread := htakes (by rw [at_]; rfl)
    rw [input] at hread
    exact hnone hread
  | vanish at_ input =>
    have hread := htakes (by rw [at_]; rfl)
    rw [input] at hread
    exact hnone ⟨.closed, hread, by rw [input]; exact Framing.read_closed⟩
  | close at_ read => exact hnone ⟨v.input, htakes (by rw [at_]; rfl), read⟩
  | lose at_ read broken =>
    exact hnone fun _ => ⟨_, broken, v.input, htakes (by rw [at_]; rfl), read⟩
  | @judge _ m at_ quiet =>
    refine hsame quiet ?_
    rw [at_] at hallows
    have hjudged := FramedSession.judged_judge m
    unfold Standing.Warranted
    dsimp only
    generalize FramedSession.judge m = verdict at hjudged
    cases hjudged with
    | request hr => trivial
    | _ => exact fun hidle => absurd hallows hidle
  | giveUp at_ idle =>
    rw [at_] at hv
    exact hnone (hv idle)
  | hangUp at_ =>
    rw [at_] at hv
    exact hnone hv
  | reply _ quiet => exact hsame quiet trivial
  | shut at_ | dismiss at_ | leave at_ =>
    rw [at_] at hv
    exact hnone hv
  | _ => trivial

end Warrants

/-- How a session ends whose client has sent messages, and then something in no proper frame or
nothing: as one that has been closed just if one of the messages asks for it. -/
def Exit.Suits (ms : List Bytes) (e : FramingError) (exit : Exit) : Prop :=
  (exit = .closed ↔ ∃ m ∈ ms, FramedSession.Closes m) ∧
    (exit ≠ .closed → exit = if e = .closed then .hungUp else .fatal .unusable)

/-! Streams that do not go on. -/

theorem Framing.Takes.exists_ofBytes {framing : Framing} {limit : Nat} {bytes : Bytes}
    {last left : Incoming} {ms : List Bytes}
    (h : Takes framing limit (.ofBytes bytes last) ms left)
    (hlast : last = .silent ∨ last = .closed) : ∃ rest, left = .ofBytes rest last :=
  (h.reads hlast).leaves.ofBytes hlast

/-- There are three reasons to end on such a stream. -/
theorem Exit.Warranted.of_ofBytes {terms : Terms} {bytes : Bytes} {last input : Incoming}
    {taken : List Bytes} {asked : Bool} {exit : Exit}
    (h : exit.Warranted terms (.ofBytes bytes last) taken asked input)
    (hlast : last = .silent ∨ last = .closed) :
    (exit = .shutdown ∧ asked = true) ∨
      (exit = .closed ∧ terms.framing.Reads terms.limit (.ofBytes bytes last) taken input) ∨
      ∃ e left, terms.framing.Reads terms.limit (.ofBytes bytes last) taken left ∧
        terms.read left = (.failure e, input) ∧
        exit = if e = .closed then .hungUp else .fatal .unusable := by
  cases exit with
  | shutdown => exact .inl ⟨rfl, h⟩
  | closed => exact .inr (.inl ⟨rfl, Framing.Takes.reads h hlast⟩)
  | hungUp =>
    obtain ⟨left, htakes, hread⟩ := h
    exact .inr (.inr ⟨.closed, left, htakes.reads hlast, hread, rfl⟩)
  | fatal cause =>
    cases cause with
    | unusable =>
      obtain ⟨e, he, left, htakes, hread⟩ := h
      exact .inr (.inr ⟨e, left, htakes.reads hlast, hread, by rw [if_neg he]⟩)
    | wait cause => exact h.elim
    | transport f =>
      obtain ⟨left, hleft⟩ := Framing.Takes.exists_ofBytes h hlast
      obtain rfl | rfl := hlast <;> cases left <;> cases hleft

/-- Someone who meets a failure behind some messages has read all messages that there are. -/
theorem Framing.Reads.eq_of_failure {framing : Framing} {limit : Nat}
    {input last left rest rest' : Incoming} {ms taken : List Bytes} {e e' : FramingError}
    (h : Reads framing limit input ms last)
    (hfails : framing.read limit last = (.failure e, rest))
    (h' : Reads framing limit input taken left)
    (hfails' : framing.read limit left = (.failure e', rest')) : ms = taken ∧ e = e' := by
  obtain ⟨more, rfl, hmore⟩ := h.rest_of_stuck (by simp [hfails]) h'
  cases hmore with
  | nil =>
    rw [hfails] at hfails'
    cases hfails'
    exact ⟨List.append_nil taken, rfl⟩
  | cons read _ =>
    rw [hfails'] at read
    cases read

namespace Running

variable {β ρ : Type} {start s : Running β ρ} {hs : List Happening}

theorem reads_of_isReading (h : s.station.isReading = true) : ¬ s.ReadsNoMore := by
  unfold ReadsNoMore
  cases hst : s.station <;> rw [hst] at h <;> first | exact id | cases h

variable [Backend.Server β] [Registry ρ]

/-- What is left to be read is what has come in behind the messages that have been taken. -/
theorem Execution.takes (run : Execution start hs s) (h : s.station.isReading = true) :
    start.terms.framing.Takes start.terms.limit (allArrived start.agent.session.input hs)
      (takenMessages hs) s.standing.input :=
  run.intake.of_reads (reads_of_isReading h)

theorem Execution.warranted (run : Execution start hs s) (hstart : start.station = .looking) :
    s.standing.Warranted start.terms (allArrived start.agent.session.input hs)
      (takenMessages hs) := by
  induction run with
  | start =>
    unfold Standing.Warranted standing
    rw [hstart]
    trivial
  | step before step ih =>
    rw [allArrived_append, takenMessages_append]
    exact (before.stride step).warranted (before.course.allows hstart) before.takes ih

/-- What is left of bytes with nothing behind them are bytes, with nothing behind them. -/
theorem Execution.exists_ofBytes (run : Execution start hs s) {bytes : Bytes} {last : Incoming}
    (harrived : allArrived start.agent.session.input hs = .ofBytes bytes last)
    (hlast : last = .silent ∨ last = .closed) :
    ∃ left, s.standing.input = .ofBytes left last := by
  obtain ⟨left, htakes, hleft⟩ := run.intake
  rw [harrived] at htakes
  obtain ⟨rest, rfl⟩ := htakes.exists_ofBytes hlast
  obtain hsame | ⟨⟨e, hfails⟩, -⟩ := hleft
  · exact ⟨rest, hsame⟩
  · have hleaves := Framing.read_leaves start.agent.session.framing start.agent.session.limit
      (.ofBytes rest last)
    rw [hfails] at hleaves
    exact hleaves.ofBytes hlast

/-- Where the session has been closed the last message that was taken asks for it, and no other. -/
theorem Execution.exists_closes (fresh : start.IsFresh) (run : Execution start hs s)
    (works : start.agent.session.status = .working) (hexit : s.station.exit? = some .closed) :
    ∃ before m, takenMessages hs = before ++ [m] ∧ FramedSession.Closes m ∧
      ∀ m' ∈ before, ¬ FramedSession.Closes m' := by
  have hcloses : closings hs ≠ 0 := fun hnone => (run.course.works fresh.looks works hnone).2 hexit
  exact run.course.exists_closes fresh.looks hcloses

omit [Backend.Server β] [Registry ρ] in
theorem allArrived_closed (bytes : Bytes) (hs : List Happening) :
    allArrived (.ofBytes bytes .closed) hs = .ofBytes bytes .closed := by
  induction hs with
  | nil => rfl
  | cons e hs ih =>
    cases e with
    | arrived more =>
      change allArrived ((Incoming.ofBytes bytes .closed).append more) hs = _
      rw [Incoming.append_ofBytes]
      exact ih
    | _ => exact ih

/-- The end of a session whose client has sent all that it will send, which are some messages and
then nothing or something in no proper frame, and whose agent has not been asked to end. -/
theorem Execution.exit_suits (fresh : start.IsFresh) (run : Execution start hs s)
    (works : start.agent.session.status = .working) {bytes : Bytes}
    (harrived : allArrived start.agent.session.input hs = .ofBytes bytes .closed)
    (unasked : s.agent.shutdown.isRequested = false) {exit : Exit}
    (hexit : s.station.exit? = some exit) {ms : List Bytes} {last rest : Incoming}
    {e : FramingError}
    (hreads : start.terms.framing.Reads start.terms.limit (.ofBytes bytes .closed) ms last)
    (hfails : start.terms.read last = (.failure e, rest)) :
    exit.Suits ms e ∧ (exit = .closed → ∃ before m after, ms = before ++ m :: after ∧
      FramedSession.Closes m ∧ (∀ m' ∈ before, ¬ FramedSession.Closes m') ∧
      start.terms.framing.Reads start.terms.limit (.ofBytes bytes .closed) (before ++ [m])
        s.agent.session.input) := by
  have hwarrant := Station.Warranted.exit (run.warranted fresh.looks) hexit
  rw [harrived] at hwarrant
  obtain ⟨-, hasked⟩ | ⟨rfl, htaken⟩ | ⟨e', left, htaken, hread, hother⟩ :=
    hwarrant.of_ofBytes (.inr rfl)
  · change s.agent.shutdown.isRequested = true at hasked
    rw [unasked] at hasked
    cases hasked
  · obtain ⟨before, m, hlast, hm, hbefore⟩ := run.exists_closes fresh works hexit
    have hstuck : ∀ m more,
        start.terms.framing.read start.terms.limit last ≠ (.message m, more) := by
      intro m more hmessage
      rw [Terms.read, hmessage] at hfails
      cases hfails
    rw [hlast] at htaken
    obtain ⟨after, hms, -⟩ := hreads.rest_of_stuck hstuck htaken
    rw [List.append_assoc] at hms
    refine ⟨⟨?_, fun h => absurd rfl h⟩, fun _ => ⟨before, m, after, hms, hm, hbefore, htaken⟩⟩
    exact ⟨fun _ => ⟨m, by simp [hms], hm⟩, fun _ => rfl⟩
  · -- Everything has been read, and nothing of it asks to end the session.
    obtain ⟨rfl, rfl⟩ := hreads.eq_of_failure hfails htaken hread
    have hne : exit ≠ .shutdown ∧ exit ≠ .closed := by
      rw [hother]
      split <;> simp
    have hnone := run.course.not_closes fresh.looks (Station.underWay_of_exit hexit)
      (run.course.closings_of_exit hexit hne.1 hne.2)
    refine ⟨⟨⟨fun h => absurd h hne.2, ?_⟩, fun _ => hother⟩, fun h => absurd h hne.2⟩
    rintro ⟨m, hm, hcloses⟩
    exact absurd hcloses (hnone m hm)

/-- On a stream that its client closes, and without having been asked to end, the loop never has to
wait for its client. -/
theorem Execution.goesOn (fresh : start.IsFresh) (run : Execution start hs s) {bytes : Bytes}
    (harrived : allArrived start.agent.session.input hs = .ofBytes bytes .closed) :
    s.standing.GoesOn start.terms := by
  obtain ⟨left, hleft⟩ := run.exists_ofBytes harrived (.inr rfl)
  refine ⟨?_, run.course.input_of_receiving fresh.looks, ?_⟩
  · intro _ hsilent
    rw [hleft] at hsilent
    cases left <;> cases hsilent
  · intro _
    rw [hleft]
    exact Framing.read_closed_ne_blocked _ _ left

/-- A client sends some bytes and closes its stream. They are messages, and behind these nothing or
something in no proper frame. Unless the agent is asked to end, the session comes to its end,
whatever the management server does and whatever goes on beside it, and ends as the messages and
what is behind them ask for. Behind the first request to end the session nothing is read. -/
theorem closed_stream_exit (fresh : start.IsFresh)
    (works : start.agent.session.status = .working)
    (unasked : start.agent.shutdown.isRequested = false) {bytes : Bytes}
    (input : start.agent.session.input = .ofBytes bytes .closed) :
    ∃ ms last e rest,
      start.terms.framing.Reads start.terms.limit (.ofBytes bytes .closed) ms last ∧
      start.terms.read last = (.failure e, rest) ∧
      (∃ exit, start.agent.serve.1 = .ended exit ∧ exit.Suits ms e) ∧
      (∀ j : Journey start, j.IsFair → ∃ n exit, (j.state n).station = .ended exit) ∧
      ∀ hs s exit, Execution start hs s → s.agent.shutdown.isRequested = false →
        s.station.exit? = some exit →
        exit.Suits ms e ∧ (exit = .closed → ∃ before m after, ms = before ++ m :: after ∧
          FramedSession.Closes m ∧ (∀ m' ∈ before, ¬ FramedSession.Closes m') ∧
          start.terms.framing.Reads start.terms.limit (.ofBytes bytes .closed) (before ++ [m])
            s.agent.session.input) := by
  obtain ⟨ms, last, e, rest, hreads, hfails⟩ :=
    Framing.exists_reads_failure start.terms.framing start.terms.limit bytes
  have harrived : ∀ hs, allArrived start.agent.session.input hs = .ofBytes bytes .closed := by
    rw [input]
    exact allArrived_closed bytes
  have hexits : ∀ hs s exit, Execution start hs s → s.agent.shutdown.isRequested = false →
      s.station.exit? = some exit → _ := fun hs s exit run hunasked hexit =>
    run.exit_suits fresh works (harrived hs) hunasked hexit hreads hfails
  refine ⟨ms, last, e, rest, hreads, hfails, ?_, ?_, hexits⟩
  · obtain ⟨⟨exit, hrun⟩, hshutdown⟩ := Agent.run_of_closed input
    obtain ⟨hs, run, -⟩ := reaches_run start.agent
    have hstart : at_ .looking start.agent = start := by
      obtain ⟨hlooks, -, -, hwants, hwriter⟩ := fresh
      cases start
      simp_all [at_]
    rw [hstart, hrun] at run
    have hsuits := (hexits hs _ exit run (by rw [at_, hshutdown]; exact unasked) rfl).1
    refine ⟨exit, ?_, hsuits⟩
    unfold Agent.serve
    generalize start.agent.run = p at hrun
    obtain ⟨outcome, b⟩ := p
    cases hrun
    rfl
  · intro j fair
    refine j.exists_ended fresh fair 0 ?_ ?_
    · intro n _
      exact (j.execution n).goesOn fresh (harrived _)
    · intro n _ more _
      obtain ⟨left, hleft⟩ := (j.execution n).exists_ofBytes (harrived _) (.inr rfl)
      rw [hleft, Incoming.append_ofBytes]
      rfl

/-- A client that asks to end the session, sends more all the same and closes its stream. -/
def departing : Running Rehearsal.Server MemoryRegistry :=
  { rehearsal (asking "close-session") .silent with
    agent.session.input := .ofBytes
      (Framing.encode .endOfMessage (Bytes.ofString (asking "close-session")) ++ [0x3C]) .closed }

theorem judge_closing : FramedSession.judge (Bytes.ofString (asking "close-session")) =
    (.request (asked "close-session"), none) :=
  judge_asking (Xml.Document.parse_of_runWithin 60 (asking "close-session")
    (by decide +kernel) (by decide +kernel) (by decide +kernel))

theorem departing_exit : departing.agent.serve.1 = .ended .closed := by
  have hinput : departing.agent.session.input = .ofBytes (Framing.encode .endOfMessage
      (Bytes.ofString (asking "close-session")) ++ [0x3C]) .closed := rfl
  obtain ⟨ms, last, e, rest, hreads, hfails, ⟨exit, hserve, hsuits⟩, -⟩ :=
    closed_stream_exit (⟨rfl, rfl, rfl, rfl, rfl⟩ : departing.IsFresh) rfl rfl hinput
  have hread : departing.terms.read (.ofBytes (Framing.encode .endOfMessage
      (Bytes.ofString (asking "close-session")) ++ [0x3C]) .closed) =
      (.message (Bytes.ofString (asking "close-session")), .ofBytes [0x3C] .closed) := by
    rw [Incoming.ofBytes_append]
    exact Framing.read_encode (by decide +kernel) _
  have hcloses : FramedSession.Closes (Bytes.ofString (asking "close-session")) := by
    refine ⟨asked "close-session", FramedSession.requested?_eq_some_iff.mp ?_, rfl⟩
    rw [FramedSession.requested?, judge_closing]
    rfl
  have hfirst : Bytes.ofString (asking "close-session") ∈ ms := by
    cases hreads with
    | nil =>
      rw [hread] at hfails
      cases hfails
    | cons read more =>
      have hsame := hread.symm.trans read
      cases hsame
      exact List.mem_cons_self
  rw [hserve, hsuits.1.mpr ⟨_, hfirst, hcloses⟩]

end Running
end Netconf
