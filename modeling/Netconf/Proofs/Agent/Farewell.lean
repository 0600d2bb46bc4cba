import Netconf.Proofs.Agent.Calls
import Netconf.Proofs.Agent.Silence
import Netconf.Proofs.Framing.Blank
import Netconf.Proofs.Session.Reception

/-! A client that sends blanks behind its last message and closes its stream. A session with marked
messages takes leave of it: the client has hung up, and the session is closed at the server. A
session with chunks takes any blank for a broken frame, and fails. -/
namespace Netconf

theorem Framing.reads_wrapped {framing : Framing} {limit : Nat} {frames : List (Bytes × Bytes)}
    (whole : ∀ f ∈ frames, framing.Wraps limit f.1 f.2) (rest : Incoming) :
    framing.Reads limit (.ofBytes (frames.flatMap Prod.snd) rest) (frames.map Prod.fst) rest := by
  induction frames with
  | nil => exact .nil rest
  | cons f frames ih =>
    rw [List.flatMap_cons, Incoming.ofBytes_append, List.map_cons]
    exact .cons ((whole f (by simp)).read _) (ih fun g hg => whole g (by simp [hg]))

namespace FramedSession

theorem receive_of_failure {s : FramedSession} {e : FramingError} {rest : Incoming}
    (h : s.framing.read s.limit s.input = (.failure e, rest)) :
    s.receive = some (if e = .closed then (.hungUp, { s with input := rest })
      else (.unknown, { s with input := rest, status := .terminated })) := by
  unfold receive
  rw [h]
  cases e <;> rfl

/-- What is received behind the last message, where there are blanks up to the end of the stream. -/
theorem receive_behind {s : FramedSession} {frames : List (Bytes × Bytes)} {w : Bytes}
    (whole : ∀ f ∈ frames, s.framing.Wraps s.limit f.1 f.2) (blank : w.IsBlank)
    (fits : w.length ≤ s.limit)
    (input : s.input = .ofBytes (frames.flatMap Prod.snd ++ w) .closed) :
    ∃ t u, s.receiveTimes frames.length = some t ∧ t.status = s.status ∧
      t.receive = some (if s.framing.PassesOver w then .hungUp else .unknown, u) ∧
      u.status = if s.framing.PassesOver w then s.status else .terminated := by
  rw [Incoming.ofBytes_append] at input
  have hall := receiveTimes_frames frames [] (by simpa using whole) (by simpa using input)
  obtain ⟨e, left, hread, he⟩ := Framing.read_blank_closed s.framing blank fits
  have hnext := receive_of_failure (s := s.onwards (.ofBytes w .closed)
    (frames.flatMap fun f => s.answer f.1)) hread
  by_cases hover : s.framing.PassesOver w
  · rw [if_pos (he.mpr hover)] at hnext
    simp only [if_pos hover]
    exact ⟨_, _, hall, rfl, hnext, rfl⟩
  · rw [if_neg (mt he.mp hover)] at hnext
    simp only [if_neg hover]
    exact ⟨_, _, hall, rfl, hnext, rfl⟩

end FramedSession

namespace Running

variable {β ρ : Type} [Backend.Server β] [Registry ρ] {start s : Running β ρ}
  {hs : List Happening}

/-- Calls that an agent has come to have made since its start: some that do not close the session,
and then a farewell. -/
def HasCalled (start : Running β ρ) (farewell calls : List Backend.Call) : Prop :=
  ∃ made, calls = start.agent.calls ++ made ++ farewell ∧ ∀ call ∈ made, call.isClose = false

/-- Where the session has neither been closed nor the agent asked to end, no call but the farewell
closes the session at the server. -/
theorem Execution.calls_of_exit (fresh : start.IsFresh) (run : Execution start hs s) {exit : Exit}
    (hexit : s.station.exit? = some exit) (hne : exit ≠ .shutdown) (hne' : exit ≠ .closed) :
    start.HasCalled (s.station.farewell start.agent.session.id) s.agent.calls := by
  obtain ⟨asked, hasked, hcalls⟩ := run.course.calls fresh.looks
  refine ⟨asked.reduceOption, hcalls, ?_⟩
  have hnone : asked.reduceOption.countP Backend.Call.isClose = 0 :=
    (Rpc.Request.countP_isClose hasked).trans (run.course.closings_of_exit hexit hne hne')
  intro call hcall
  exact eq_false_of_ne_true (List.countP_eq_zero.mp hnone call hcall)

/-- Service on a stream that the client has closed comes to an end, and the agent is not asked for
it. -/
theorem serve_of_closed (fresh : start.IsFresh) {bytes : Bytes}
    (input : start.agent.session.input = .ofBytes bytes .closed) :
    ∃ exit, start.agent.serve.1 = .ended exit ∧
      (∃ hs s, Execution start hs s ∧ s.station.exit? = some exit ∧
        s.agent.shutdown = start.agent.shutdown) ∧
      ∃ hs s, Execution start hs s ∧ s.station.exit? = some exit ∧
        s.agent = start.agent.serve.2 := by
  obtain ⟨⟨exit, hended⟩, hshutdown⟩ := Agent.run_of_closed input
  obtain ⟨hs, run, -⟩ := reaches_run start.agent
  obtain ⟨hs', run', -⟩ := reaches_serve start.agent
  have hserve : start.agent.serve.1 = .ended exit := by
    unfold Agent.serve
    generalize start.agent.run = p at hended
    obtain ⟨outcome, a⟩ := p
    cases hended
    rfl
  rw [fresh.at_looking, hended] at run
  rw [fresh.at_looking, hserve] at run'
  exact ⟨exit, hserve, ⟨hs, _, run, rfl, hshutdown⟩, hs', _, run', rfl, rfl⟩

/-- And so does every journey on such a stream on which the loop gets to move. -/
theorem Journey.exists_ended_of_closed (j : Journey start) (fresh : start.IsFresh) (fair : j.IsFair)
    {bytes : Bytes} (input : start.agent.session.input = .ofBytes bytes .closed) :
    ∃ n exit, (j.state n).station = .ended exit := by
  have harrived : ∀ n, allArrived start.agent.session.input (j.happened n) =
      .ofBytes bytes .closed := by
    intro n
    rw [input]
    exact allArrived_closed bytes (j.happened n)
  refine j.exists_ended fresh fair 0 ?_ ?_
  · intro n _
    exact (j.execution n).goesOn fresh (harrived n)
  · intro n _ more _
    obtain ⟨left, hleft⟩ := (j.execution n).exists_ofBytes (harrived n) (.inr rfl)
    rw [hleft, Incoming.append_ofBytes]
    rfl

/-- How a session ends whose client sends blanks behind its last message and closes its stream. -/
def exitBehind (framing : Framing) (w : Bytes) : Exit :=
  if framing.PassesOver w then .hungUp else .fatal .unusable

theorem exitBehind_ne (framing : Framing) (w : Bytes) :
    exitBehind framing w ≠ .shutdown ∧ exitBehind framing w ≠ .closed := by
  unfold exitBehind
  split <;> simp

theorem farewell_of_exitBehind {station : Station} {framing : Framing} {w : Bytes}
    (h : station.exit? = some (exitBehind framing w)) (id : SessionId) :
    station.farewell id = if framing.PassesOver w then [.close id] else [] := by
  unfold exitBehind at h
  by_cases hover : framing.PassesOver w
  · rw [if_pos hover] at h ⊢
    exact if_pos h
  · rw [if_neg hover] at h ⊢
    exact if_neg (by simp [h])

section

variable {frames : List (Bytes × Bytes)} {w : Bytes}

/-- Where none of the messages asks to end the session it ends with what is behind them. -/
theorem Execution.exit_behind (fresh : start.IsFresh) (run : Execution start hs s)
    (works : start.agent.session.status = .working)
    (whole : ∀ f ∈ frames, start.agent.session.framing.Wraps start.agent.session.limit f.1 f.2)
    (blank : w.IsBlank) (fits : w.length ≤ start.agent.session.limit)
    (input : start.agent.session.input = .ofBytes (frames.flatMap Prod.snd ++ w) .closed)
    (stays : ∀ f ∈ frames, ¬ FramedSession.Closes f.1)
    (unasked : s.agent.shutdown.isRequested = false) {exit : Exit}
    (hexit : s.station.exit? = some exit) :
    exit = exitBehind start.agent.session.framing w := by
  have harrived : allArrived start.agent.session.input hs =
      .ofBytes (frames.flatMap Prod.snd ++ w) .closed := by
    rw [input]
    exact allArrived_closed _ hs
  have hreads := Framing.reads_wrapped whole (.ofBytes w .closed)
  rw [← Incoming.ofBytes_append] at hreads
  obtain ⟨e, left, hread, he⟩ := Framing.read_blank_closed start.agent.session.framing blank fits
  obtain ⟨⟨hclosed, hother⟩, -⟩ :=
    run.exit_suits fresh works harrived unasked hexit hreads hread
  have hstays : exit ≠ .closed := by
    intro h
    obtain ⟨m, hm, hcloses⟩ := hclosed.mp h
    obtain ⟨f, hf, rfl⟩ := List.mem_map.mp hm
    exact stays f hf hcloses
  rw [hother hstays, exitBehind]
  simp only [he]

/-- A client sends complete messages, then some blanks, and closes its stream. Behind the messages
the session receives the client's hang-up, and its status stays what it is; and where none of the
messages asks to end the session, and the agent is not asked to end, the loop comes to its end as
one whose client has hung up, with a last call that closes the session at the server. That is so
with marked messages, and where there are no blanks. With chunks any blank is received as a broken
frame, which ends the session: the loop fails, and the session is not closed at the server. -/
theorem hang_up_behind_blanks {s : FramedSession}
    (whole : ∀ f ∈ frames, s.framing.Wraps s.limit f.1 f.2) (blank : w.IsBlank)
    (fits : w.length ≤ s.limit)
    (input : s.input = .ofBytes (frames.flatMap Prod.snd ++ w) .closed) :
    (∃ t u, s.receiveTimes frames.length = some t ∧ t.status = s.status ∧
      t.receive = some (if s.framing.PassesOver w then .hungUp else .unknown, u) ∧
      u.status = if s.framing.PassesOver w then s.status else .terminated) ∧
    ∀ start : Running β ρ, start.IsFresh → start.agent.session = s → s.status = .working →
      start.agent.shutdown.isRequested = false → (∀ f ∈ frames, ¬ FramedSession.Closes f.1) →
      (start.agent.serve.1 = .ended (exitBehind s.framing w) ∧
        start.HasCalled (if s.framing.PassesOver w then [.close s.id] else [])
          start.agent.serve.2.calls) ∧
      (∀ j : Journey start, j.IsFair → ∃ n exit, (j.state n).station = .ended exit) ∧
      ∀ hs v exit, Execution start hs v → v.agent.shutdown.isRequested = false →
        v.station.exit? = some exit → exit = exitBehind s.framing w ∧
          start.HasCalled (if s.framing.PassesOver w then [.close s.id] else [])
            v.agent.calls := by
  refine ⟨FramedSession.receive_behind whole blank fits input, ?_⟩
  rintro start fresh rfl works unasked stays
  -- Whatever has come to this end has made its calls, and the farewell.
  have hcalls : ∀ hs v, Execution start hs v →
      v.station.exit? = some (exitBehind start.agent.session.framing w) →
      start.HasCalled (if start.agent.session.framing.PassesOver w
        then [.close start.agent.session.id] else []) v.agent.calls := by
    intro hs v run hexit
    obtain ⟨hne, hne'⟩ := exitBehind_ne start.agent.session.framing w
    rw [← farewell_of_exitBehind hexit]
    exact run.calls_of_exit fresh hexit hne hne'
  refine ⟨?_, ?_, ?_⟩
  · obtain ⟨exit, hserve, ⟨hs, v, run, hexit, hsame⟩, hs', v', run', hexit', hagent⟩ :=
      serve_of_closed fresh input
    obtain rfl := run.exit_behind fresh works whole blank fits input stays
      (by rw [hsame]; exact unasked) hexit
    rw [← hagent]
    exact ⟨hserve, hcalls hs' v' run' hexit'⟩
  · intro j fair
    exact j.exists_ended_of_closed fresh fair input
  · intro hs v exit run hunasked hexit
    obtain rfl := run.exit_behind fresh works whole blank fits input stays hunasked hexit
    exact ⟨rfl, hcalls hs v run hexit⟩

end

/-- The message of a client that asks for something, in its frame. -/
def leavingFrame (framing : Framing) : Bytes × Bytes :=
  (Bytes.ofString getting, framing.encode (Bytes.ofString getting))

theorem leavingFrame_wraps (framing : Framing) : ∀ f ∈ [leavingFrame framing],
    framing.Wraps Framing.defaultLimit f.1 f.2 := by
  have hcarries : framing.Carries Framing.defaultLimit (Bytes.ofString getting) := by
    cases framing <;> decide +kernel
  intro f hf
  rw [List.eq_of_mem_singleton hf]
  exact Framing.wraps_encode hcarries

theorem leavingFrame_stays (framing : Framing) :
    ∀ f ∈ [leavingFrame framing], ¬ FramedSession.Closes f.1 := by
  intro f hf
  rw [List.eq_of_mem_singleton hf]
  exact getting_stays

/-- An agent about to serve a client that sends it, and a line feed behind it, and closes its
stream. -/
def leaving (framing : Framing) : Running Rehearsal.Server MemoryRegistry :=
  { rehearsal getting .silent with
    agent.session.framing := framing
    agent.session.input := .ofBytes ([leavingFrame framing].flatMap Prod.snd ++ [0x0A]) .closed }

/-- With marked messages the client is taken leave of. -/
theorem leaving_hangs_up : (leaving .endOfMessage).agent.serve.1 = .ended .hungUp :=
  ((hang_up_behind_blanks (s := (leaving .endOfMessage).agent.session) (leavingFrame_wraps _)
    (by decide) (by decide +kernel) rfl).2 (leaving .endOfMessage) ⟨rfl, rfl, rfl, rfl, rfl⟩ rfl rfl
    rfl (leavingFrame_stays _)).1.1

/-- With chunks the line feed breaks the session, though the client has sent a complete message and
one blank behind it. -/
theorem leaving_breaks :
    ((∀ f ∈ [leavingFrame .chunked], Framing.chunked.Wraps Framing.defaultLimit f.1 f.2) ∧
      (∀ f ∈ [leavingFrame .chunked], ¬ FramedSession.Closes f.1) ∧ Bytes.IsBlank [0x0A] ∧
      (leaving .chunked).agent.session.input =
        .ofBytes ([leavingFrame .chunked].flatMap Prod.snd ++ [0x0A]) .closed) ∧
    (∃ t u, (leaving .chunked).agent.session.receiveTimes 1 = some t ∧ t.status = .working ∧
      t.receive = some (.unknown, u) ∧ u.status = .terminated) ∧
    (leaving .chunked).agent.serve.1 = .ended (.fatal .unusable) := by
  have fresh : (leaving .chunked).IsFresh := ⟨rfl, rfl, rfl, rfl, rfl⟩
  have whole := leavingFrame_wraps .chunked
  have stays := leavingFrame_stays .chunked
  have blank : Bytes.IsBlank [0x0A] := by decide
  have fits : [(0x0A : UInt8)].length ≤ (leaving .chunked).agent.session.limit := by
    decide +kernel
  refine ⟨⟨whole, stays, blank, rfl⟩, ?_, ?_⟩
  · exact FramedSession.receive_behind (s := (leaving .chunked).agent.session) whole blank fits rfl
  · obtain ⟨exit, hserve, ⟨hs, v, run, hexit, hsame⟩, -⟩ := serve_of_closed fresh rfl
    obtain rfl := run.exit_behind fresh rfl whole blank fits rfl stays (by rw [hsame]; rfl) hexit
    exact hserve

end Running
end Netconf
