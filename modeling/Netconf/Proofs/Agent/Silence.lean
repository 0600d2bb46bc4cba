import Netconf.Proofs.Agent.Exits

/-! A client that has sent whole messages and is silent then. The loop receives nothing that is not
whole, so that it looks again and again whether to end, and ends when it is asked to. Something
that the client has sent behind its messages keeps the loop from looking. -/
namespace Netconf

namespace Incoming

theorem append_silent (input : Incoming) : input.append .silent = input := by
  induction input with
  | silent | closed => rfl
  | byte b rest ih => exact congrArg (byte b) ih
  | fault f rest ih => exact congrArg (fault f) ih

theorem ofBytes_inj {bytes : Bytes} {rest rest' : Incoming}
    (h : ofBytes bytes rest = ofBytes bytes rest') : rest = rest' := by
  induction bytes with
  | nil => exact h
  | cons b bytes ih => exact ih (byte.inj h).2

end Incoming

namespace Framing

variable {framing : Framing} {limit : Nat} {input left rest : Incoming} {ms taken : List Bytes}

/-- Where someone who reads whole messages stops, there is one more, or nothing. -/
theorem Reads.whole (h : Reads framing limit input ms .silent)
    (h' : Reads framing limit input taken left) :
    (∀ m ∈ taken, m ∈ ms) ∧
      (left = .silent ∨ ∃ m ∈ ms, ∃ rest, framing.read limit left = (.message m, rest)) := by
  obtain ⟨more, rfl, hmore⟩ := h.rest_of_stuck (by simp [read_silent]) h'
  refine ⟨fun m hm => List.mem_append_left more hm, ?_⟩
  cases hmore with
  | nil => exact .inl rfl
  | @cons _ rest _ m _ read _ => exact .inr ⟨m, by simp, rest, read⟩

theorem Reads.not_failure (h : Reads framing limit input ms .silent)
    (h' : Reads framing limit input taken left) {e : FramingError} :
    framing.read limit left ≠ (.failure e, rest) := by
  intro hfails
  obtain rfl | ⟨m, -, more, hread⟩ := (h.whole h').2
  · rw [read_silent] at hfails
    cases hfails
  · rw [hread] at hfails
    cases hfails

end Framing

/-- The loop waits for the rest of a message. -/
structure Standing.Stuck (terms : Terms) (v : Standing) : Prop where
  place : v.station = .waiting ∨ v.station = .receiving
  works : v.status = .working
  begun : ∃ b rest, v.input = .byte b rest
  unfinished : (terms.read v.input).1 = .blocked

/-- As long as nothing more comes in it does not do anything else. -/
theorem Stride.stuck {terms : Terms} {v w : Standing} {l : List Happening}
    (h : Stride terms v l w) (hv : v.Stuck terms) (hall : ∀ more, .arrived more ∉ l) :
    w.Stuck terms := by
  obtain ⟨hplace, hworks, ⟨b, rest, hinput⟩, hblocked⟩ := hv
  cases h with
  | rest | ask => exact ⟨hplace, hworks, ⟨b, rest, hinput⟩, hblocked⟩
  | arrive more => exact absurd (List.mem_singleton_self _) (hall more)
  | ready => exact ⟨.inr rfl, hworks, ⟨b, rest, hinput⟩, hblocked⟩
  | starve => exact ⟨.inl rfl, hworks, ⟨b, rest, hinput⟩, hblocked⟩
  | refuse _ ended =>
    rw [ended] at hworks
    cases hworks
  | timeout _ input | interrupt _ input | fault _ input | vanish _ input =>
    rw [hinput] at input
    cases input
  | take _ read | close _ read | lose _ read =>
    rw [read] at hblocked
    cases hblocked
  | _ at_ =>
    rw [at_] at hplace
    obtain h | h := hplace <;> cases h

namespace Running

variable {β ρ : Type} [Backend.Server β] [Registry ρ] {start s : Running β ρ}
  {hs : List Happening} {bytes : Bytes} {ms : List Bytes}

/-- A session whose client has sent whole messages, and none that asks to end the session, ends when
the agent is asked to. -/
theorem Execution.exit_of_silent (fresh : start.IsFresh) (run : Execution start hs s)
    (works : start.agent.session.status = .working)
    (arrived : allArrived start.agent.session.input hs = .ofBytes bytes .silent)
    (whole : start.terms.framing.Reads start.terms.limit (.ofBytes bytes .silent) ms .silent)
    (stays : ∀ m ∈ ms, ¬ FramedSession.Closes m) {exit : Exit}
    (hexit : s.station.exit? = some exit) : exit = .shutdown := by
  have hwarrant := Station.Warranted.exit (run.warranted fresh.looks) hexit
  rw [arrived] at hwarrant
  obtain ⟨hshutdown, -⟩ | ⟨rfl, htaken⟩ | ⟨e, left, htaken, hread, -⟩ :=
    hwarrant.of_ofBytes (.inl rfl)
  · exact hshutdown
  · obtain ⟨before, m, hlast, hm, -⟩ := run.exists_closes fresh works hexit
    have hmem := (whole.whole htaken).1 m (by simp [hlast])
    exact absurd hm (stays m hmem)
  · exact absurd hread (whole.not_failure htaken)

/-- What the loop receives then is a whole message. -/
theorem Execution.receives_whole (fresh : start.IsFresh) (run : Execution start hs s)
    (arrived : allArrived start.agent.session.input hs = .ofBytes bytes .silent)
    (whole : start.terms.framing.Reads start.terms.limit (.ofBytes bytes .silent) ms .silent)
    (hat : s.station = .receiving) :
    ∃ m ∈ ms, ∃ rest, start.terms.read s.agent.session.input = (.message m, rest) := by
  have htakes := run.takes (by rw [hat]; rfl)
  rw [arrived] at htakes
  obtain hsilent | hmessage := (whole.whole (htakes.reads (.inl rfl))).2
  · obtain ⟨b, rest, hinput⟩ := run.course.input_of_receiving fresh.looks hat
    rw [hsilent] at hinput
    cases hinput
  · exact hmessage

/-! Agents that are asked to end, and whose clients send nothing more. -/

/-- An agent that is asked to end. -/
def toEnd (s : Running β ρ) : Running β ρ :=
  { s with agent.shutdown := s.agent.shutdown.request }

omit [Backend.Server β] [Registry ρ] in
theorem toEnd_standing (s : Running β ρ) :
    s.toEnd.standing = { s.standing with asked := true } := by
  have hasked : s.agent.shutdown.request.isRequested = true := by
    cases s.agent.shutdown <;> rfl
  exact congrArg (fun asked => { s.standing with asked }) hasked

/-- Whatever has happened, an agent can be asked to end then and go on alone. -/
theorem Execution.exists_journey_toEnd (run : Execution start hs s)
    (hall : ∀ more, .arrived more ∉ hs) : ∃ (j : Journey start) (since : Nat), j.IsFair ∧
      (∀ n, since ≤ n → allArrived start.agent.session.input (j.happened n) =
        start.agent.session.input) ∧
      (j.state since).agent.shutdown.isRequested = true ∧
      ∀ n, j.state (since + n) = s.toEnd.aloneFor n := by
  obtain ⟨j, k, hfair, hj⟩ := (run.step (.ask s)).exists_journey (.ofAlone s.toEnd)
  refine ⟨j, k, hfair (Journey.ofAlone_isFair _), ?_, ?_, fun n => (hj n).1⟩
  · intro n hn
    obtain ⟨i, rfl⟩ := Nat.exists_eq_add_of_le hn
    rw [(hj i).2, List.append_nil]
    apply allArrived_of_not_arrived
    intro more hmore
    obtain hbefore | hafter := List.mem_append.mp hmore
    · exact hall more hbefore
    · exact Journey.happened_ofAlone s.toEnd i more hafter
  · have hasked := congrArg Standing.asked s.toEnd_standing
    rw [← Nat.add_zero k, (hj 0).1]
    exact hasked

theorem Journey.ofAlone_stuck (hstuck : s.standing.Stuck s.terms) (n : Nat) :
    ((ofAlone s).state n).standing.Stuck s.terms := by
  induction n with
  | zero => exact hstuck
  | succ n ih => exact ((ofAlone s).stride n).stuck ih (alone_not_arrived _)

/-- Whoever has sent something that is no whole message, and is silent then, keeps the loop waiting
for good, though the agent is asked to end. -/
theorem Execution.exists_journey_unending (run : Execution start hs s)
    (hall : ∀ more, .arrived more ∉ hs) (hstuck : s.standing.Stuck start.terms) :
    ∃ (j : Journey start) (since : Nat), j.IsFair ∧
      (∀ n, since ≤ n → allArrived start.agent.session.input (j.happened n) =
        start.agent.session.input) ∧
      (∃ n, (j.state n).agent.shutdown.isRequested = true) ∧
      ∀ n, (j.state n).station.exit? = none := by
  obtain ⟨j, since, hfair, harrived, hasked, hj⟩ := run.exists_journey_toEnd hall
  have hbegins : s.toEnd.standing.Stuck s.toEnd.terms := by
    rw [toEnd_standing]
    rw [← run.same_terms] at hstuck
    exact ⟨hstuck.place, hstuck.works, hstuck.begun, hstuck.unfinished⟩
  refine ⟨j, since, hfair, harrived, ⟨since, hasked⟩, ?_⟩
  intro n
  by_contra hexit
  obtain ⟨exit, hexit⟩ := Option.ne_none_iff_exists'.mp hexit
  have hlater := j.exit_of_le (Nat.le_add_left n since) hexit
  rw [hj n] at hlater
  have hplace : (s.toEnd.aloneFor n).station = .waiting ∨
      (s.toEnd.aloneFor n).station = .receiving := (Journey.ofAlone_stuck hbegins n).place
  obtain hat | hat := hplace
  · rw [hat] at hlater
    cases hlater
  · rw [hat] at hlater
    cases hlater

theorem alone_of_free (free : s.wants .loop = none) : s.alone = s.loopStep := by
  rw [alone, free]

/-- A loop that receives something in no proper frame gives up. -/
theorem aloneFor_of_broken (free : s.wants .loop = none) (hat : s.station = .receiving)
    {e : FramingError} {rest : Incoming}
    (hread : s.terms.read s.agent.session.input = (.failure e, rest)) (broken : e ≠ .closed) :
    (s.aloneFor 2).station = .closing (.fatal .unusable) := by
  let lost : Agent FramedSession Delivery β ρ :=
    { s.agent with session := { s.agent.session with input := rest, status := .terminated } }
  have hreceive : s.receive = ([], s.goTo (.heeding .unknown) lost) := by
    unfold receive
    dsimp only
    unfold Terms.read at hread
    dsimp only [terms] at hread
    rw [hread]
    cases e <;> first | rfl | exact absurd rfl broken
  have hfirst : s.alone.2 = s.goTo (.heeding .unknown) lost := by
    rw [alone_of_free free, loopStep, hat]
    exact congrArg Prod.snd hreceive
  have hidle : Conversation.status (lost.did (.received .unknown)).session ≠ .working := by
    change Status.terminated ≠ .working
    simp
  change (s.alone.2).alone.2.station = _
  rw [hfirst, alone_of_free (s := s.goTo (.heeding .unknown) lost) free]
  exact congrArg Turn.station (Agent.reject_of_ended hidle)

/-! A client that sends a message and then, perhaps, a blank. -/

/-- An agent about to serve a client that has sent a message, and something behind it. -/
def pausing (framing : Framing) (behind : Bytes) : Running Rehearsal.Server MemoryRegistry :=
  { rehearsal getting .silent with
    agent.session.framing := framing
    agent.session.input := .ofBytes (framing.encode (Bytes.ofString getting) ++ behind) .silent }

theorem pausing_whole (framing : Framing) : framing.Reads Framing.defaultLimit
    (.ofBytes (framing.encode (Bytes.ofString getting)) .silent) [Bytes.ofString getting]
    .silent := by
  have hcarries : framing.Carries Framing.defaultLimit (Bytes.ofString getting) := by
    cases framing <;> decide +kernel
  exact .cons (Framing.read_encode hcarries .silent) (.nil _)

theorem getting_stays : ¬ FramedSession.Closes (Bytes.ofString getting) := by
  rintro ⟨r, hr, hcloses⟩
  rw [← FramedSession.requested?_eq_some_iff, FramedSession.requested?, judge_getting] at hr
  cases hr
  cases hcloses

/-- The loop answers the message and gets to what is behind it. -/
theorem pausing_receives (framing : Framing) (b : UInt8) : ∃ s,
    Execution (pausing framing [b]) answered s ∧ s.wants .loop = none ∧
      s.standing = { (pausing framing [b]).standing with
        station := .receiving, input := .byte b .silent, calls := s.agent.calls } := by
  have hcarries : framing.Carries Framing.defaultLimit (Bytes.ofString getting) := by
    cases framing <;> decide +kernel
  have hbrings : (pausing framing [b]).Brings (Bytes.ofString getting) (.byte b .silent) :=
    .of_frame hcarries (Incoming.ofBytes_append ..)
  have hdispatch : ((pausing framing [b]).attentive (asked "get") (.byte b .silent)).dispatch
      (asked "get") = ({ reply := .ok }, (((pausing framing [b]).attentive (asked "get")
        (.byte b .silent)).dispatch (asked "get")).2) := rfl
  have hanswer := Execution.start.answer ⟨rfl, rfl, rfl, rfl, rfl⟩ hbrings judge_getting hdispatch
  have hlooks := hanswer.loop rfl rfl
  have hwaits := hlooks.loop rfl rfl
  have hreceives := hwaits.loop rfl rfl
  exact ⟨_, hreceives, rfl, rfl⟩

theorem answered_not_arrived (more : Incoming) : .arrived more ∉ answered := by simp [answered]

/-- A client sends whole messages, of which none asks to end the session, and nothing more. From
when they have come in, the loop receives only what is whole, and does not have to wait for more.
If the agent is asked to end, at whatever time, then the session ends, and it ends for no other
reason. -/
theorem silent_stream_exit (fresh : start.IsFresh)
    (works : start.agent.session.status = .working)
    (whole : start.terms.framing.Reads start.terms.limit (.ofBytes bytes .silent) ms .silent)
    (stays : ∀ m ∈ ms, ¬ FramedSession.Closes m) (j : Journey start) (fair : j.IsFair) {since : Nat}
    (arrived : ∀ n, since ≤ n →
      allArrived start.agent.session.input (j.happened n) = .ofBytes bytes .silent) :
    (∀ n, (j.state n).station = .receiving →
      (j.state n).agent.session.input ≠ .silent ∧ (since ≤ n → ∃ m ∈ ms, ∃ rest,
        start.terms.read (j.state n).agent.session.input = (.message m, rest))) ∧
    (∀ n exit, (j.state n).station.exit? = some exit → exit = .shutdown) ∧
    ((∃ n, (j.state n).agent.shutdown.isRequested = true) →
      ∃ n, (j.state n).station = .ended .shutdown) := by
  have hreceives : ∀ n, since ≤ n → (j.state n).station = .receiving → _ := fun n hn hat =>
    (j.execution n).receives_whole fresh (arrived n hn) whole hat
  have hexits : ∀ n exit, (j.state n).station.exit? = some exit → exit = .shutdown := by
    intro n exit hexit
    have hlater := j.exit_of_le (Nat.le_max_left n since) hexit
    exact (j.execution _).exit_of_silent fresh works (arrived _ (Nat.le_max_right n since)) whole
      stays hlater
  refine ⟨fun n hat => ⟨?_, fun hn => hreceives n hn hat⟩, hexits, ?_⟩
  · obtain ⟨b, rest, hinput⟩ := (j.execution n).course.input_of_receiving fresh.looks hat
    change (j.state n).agent.session.input = _ at hinput
    simp [hinput]
  rintro ⟨k, hasked⟩
  have hgoes : ∀ n, max k since ≤ n → (j.state n).standing.GoesOn start.terms := by
    intro n hn
    refine ⟨fun _ _ => j.asked_of_le (by omega) hasked,
      (j.execution n).course.input_of_receiving fresh.looks, fun hat => ?_⟩
    obtain ⟨m, -, rest, hread⟩ := hreceives n (by omega) hat
    change (start.terms.read (j.state n).agent.session.input).1 ≠ .blocked
    rw [hread]
    simp
  -- Nothing that comes in now is anything.
  have hall : ∀ n, max k since ≤ n → ∀ more, .arrived more ∈ j.happens n →
      (j.state n).standing.input.append more = (j.state n).standing.input := by
    intro n hn more hmore
    have hthen := arrived (n + 1) (by omega)
    rw [Journey.happened, allArrived_append, arrived n (by omega),
      (j.stride n).arrived hmore] at hthen
    change (Incoming.ofBytes bytes .silent).append more = _ at hthen
    rw [Incoming.append_ofBytes] at hthen
    have hsilent : more = .silent := Incoming.ofBytes_inj hthen
    rw [hsilent]
    exact Incoming.append_silent _
  obtain ⟨n, exit, hended⟩ := j.exists_ended fresh fair (max k since) hgoes hall
  have hexit := hexits n exit (by rw [hended]; rfl)
  rw [hexit] at hended
  exact ⟨n, hended⟩

/-- A client has got what it asked for and is silent. Its session ends when the agent is asked
to. -/
theorem answered_ends : ∃ j : Journey (rehearsal getting .silent), j.IsFair ∧
    (∃ n, (j.state n).agent.shutdown.isRequested = true) ∧
    ∃ n, (j.state n).station = .ended .shutdown := by
  obtain ⟨s, run, -, -⟩ := rehearsal_answered
  obtain ⟨j, since, hfair, harrived, hasked, -⟩ := run.exists_journey_toEnd answered_not_arrived
  obtain ⟨-, -, hends⟩ := silent_stream_exit (rehearsal_isFresh _ _) rfl
    (pausing_whole .endOfMessage) (by simpa using getting_stays) j hfair harrived
  exact ⟨j, hfair, ⟨since, hasked⟩, hends ⟨since, hasked⟩⟩

/-- Where the client's message is followed by a newline, the agent that is asked to end never does.
Where a blank follows a chunked message, the session ends, but as one that has become unusable. -/
theorem blank_keeps_from_ending :
    (∀ framing : Framing, framing.Reads Framing.defaultLimit
      (.ofBytes (framing.encode (Bytes.ofString getting)) .silent) [Bytes.ofString getting]
      .silent) ∧
    ¬ FramedSession.Closes (Bytes.ofString getting) ∧
    (∃ (j : Journey (pausing .endOfMessage [0x0A])) (since : Nat), j.IsFair ∧
      (∀ n, since ≤ n →
        allArrived (pausing .endOfMessage [0x0A]).agent.session.input (j.happened n) =
          .ofBytes (Framing.encode .endOfMessage (Bytes.ofString getting) ++ [0x0A]) .silent) ∧
      (∃ n, (j.state n).agent.shutdown.isRequested = true) ∧
      ∀ n, (j.state n).station.exit? = none) ∧
    ∃ (j : Journey (pausing .chunked [0x20])) (since : Nat), j.IsFair ∧
      (∀ n, since ≤ n →
        allArrived (pausing .chunked [0x20]).agent.session.input (j.happened n) =
          .ofBytes (Framing.encode .chunked (Bytes.ofString getting) ++ [0x20]) .silent) ∧
      (∃ n, (j.state n).agent.shutdown.isRequested = true) ∧
      ∃ n, (j.state n).station.exit? = some (.fatal .unusable) := by
  refine ⟨pausing_whole, getting_stays, ?_, ?_⟩
  · obtain ⟨s, run, -, hstanding⟩ := pausing_receives .endOfMessage 0x0A
    refine run.exists_journey_unending answered_not_arrived ?_
    rw [hstanding]
    exact ⟨.inr rfl, rfl, ⟨0x0A, .silent, rfl⟩, rfl⟩
  · obtain ⟨s, run, hfree, hstanding⟩ := pausing_receives .chunked 0x20
    obtain ⟨j, since, hfair, harrived, hasked, hj⟩ :=
      run.exists_journey_toEnd answered_not_arrived
    refine ⟨j, since, hfair, harrived, ⟨since, hasked⟩, since + 2, ?_⟩
    have hinput := congrArg Standing.input hstanding
    have hread : s.toEnd.terms.read s.toEnd.agent.session.input =
        (.failure (.badChunk (.expectedNewline 0x20)), .silent) := by
      change s.terms.read s.standing.input = _
      rw [run.same_terms, hinput]
      rfl
    have hbroken := aloneFor_of_broken (s := s.toEnd) hfree (congrArg Standing.station hstanding)
      hread (by simp)
    rw [hj 2, hbroken]
    rfl

end Running
end Netconf
