import Netconf.Proofs.Agent.Stride
import Netconf.Proofs.Framing.Whole

/-! Taking turns on a stream that the client has closed. No turn has to wait for the rest of a
message, and each but the last uses up some of what has come in, so the turns lead to an end. -/
namespace Netconf

theorem FramedSession.classify_input (s : FramedSession) (m : Bytes) :
    (s.classify m).2.input = s.input := by
  unfold classify
  split <;> rfl

theorem FramedSession.reply_input (s : FramedSession) (r : Rpc.Request) (reply : Rpc.Reply) :
    (s.reply r reply).2.input = s.input := by
  unfold FramedSession.reply
  split <;> rfl

namespace Agent

variable {β ρ : Type} [Registry ρ] {a : Agent FramedSession Delivery β ρ}

omit [Registry ρ] in
theorem launch_session (d : Dispatch) (a : Agent FramedSession Delivery β ρ) :
    (a.launch d).session = a.session := by
  unfold launch release
  split
  · split <;> rfl
  · rfl

variable [Backend.Server β]

/-- Handling a request reads nothing from the client, and does not ask the agent to end. -/
theorem handle_keeps (r : Rpc.Request) (a : Agent FramedSession Delivery β ρ) :
    (a.handle r).session.input = a.session.input ∧ (a.handle r).shutdown = a.shutdown := by
  have hcount := (Agrees.count r (a.dispatch r).1.reply
    (((a.dispatch r).2.answer r (a.dispatch r).1.reply).launch (a.dispatch r).1)).session
  have hdiscreet := (Discreet.launch (a.dispatch r).1
    ((a.dispatch r).2.answer r (a.dispatch r).1.reply)).trans (.count r (a.dispatch r).1.reply _)
  unfold handle
  refine ⟨?_, hdiscreet.shutdown.trans (dispatch_shutdown r a)⟩
  dsimp only
  rw [hcount, launch_session]
  refine (FramedSession.reply_input _ r _).trans ?_
  rw [dispatch_status]

theorem heed_keeps (r : Received) (a : Agent FramedSession Delivery β ρ) :
    (a.heed r).1 ≠ .blocked ∧ (a.heed r).2.session.input = a.session.input ∧
      (a.heed r).2.shutdown = a.shutdown := by
  cases r with
  | request r => exact ⟨by simp [heed], handle_keeps r _⟩
  | nothing => exact ⟨by simp [heed], rfl, rfl⟩
  | hungUp => exact ⟨by simp [heed, hangUp], rfl, rfl⟩
  | unknown =>
    have hdiscreet := ((Discreet.did (.received .unknown) rfl a).trans (.note _ _)).trans
      (.publish (note (a.did (.received .unknown)).record.rejected (a.did (.received .unknown))))
    refine ⟨?_, congrArg _ (Agrees.heed (by simp) a).session, ?_⟩
    · simp only [heed, reject]
      split <;> simp
    · simp only [heed, reject]
      split <;> exact hdiscreet.shutdown

/-- A turn on bytes behind which the client has closed its stream does not wait for more and does
not ask the agent to end. If another turn follows there are fewer bytes for it. -/
structure Advances (bytes : Bytes) (a : Agent FramedSession Delivery β ρ)
    (p : Turn × Agent FramedSession Delivery β ρ) : Prop where
  shutdown : p.2.shutdown = a.shutdown
  goes : p.1 ≠ .blocked
  input : p.1 = .again →
    ∃ left, p.2.session.input = .ofBytes left .closed ∧ left.length < bytes.length

theorem receive_advances {b : UInt8} {bytes : Bytes}
    (hinput : a.session.input = .ofBytes (b :: bytes) .closed) :
    Advances (b :: bytes) a a.receive := by
  have hleaves := Framing.read_leaves a.session.framing a.session.limit
    (.ofBytes (b :: bytes) .closed)
  have hless := Framing.read_byte_size_lt a.session.framing a.session.limit b
    (.ofBytes bytes .closed)
  have hblocked := Framing.read_closed_ne_blocked a.session.framing a.session.limit (b :: bytes)
  rw [← Incoming.ofBytes_cons] at hless
  unfold receive
  simp only [Conversation.receive, FramedSession.receive, hinput]
  generalize a.session.framing.read a.session.limit (.ofBytes (b :: bytes) .closed) = p at *
  obtain ⟨outcome, rest⟩ := p
  obtain ⟨left, rfl⟩ := hleaves.ofBytes (.inr rfl)
  simp only [Incoming.size_ofBytes] at hless
  have hle : left.length < (b :: bytes).length := by omega
  -- Whatever has been received, what is left is left.
  have hheed : ∀ (r : Received) (session : FramedSession),
      session.input = .ofBytes left .closed →
      Advances (b :: bytes) a ({ a with session }.heed r) := by
    intro r session hsession
    obtain ⟨hgoes, hkept, hshutdown⟩ := heed_keeps r { a with session }
    exact ⟨hshutdown, hgoes, fun _ => ⟨left, hkept.trans hsession, hle⟩⟩
  cases outcome with
  | message m => exact hheed _ _ (FramedSession.classify_input _ m)
  | failure e => cases e <;> exact hheed _ _ rfl
  | blocked => exact absurd rfl hblocked

theorem proceed_advances {bytes : Bytes} (hinput : a.session.input = .ofBytes bytes .closed) :
    Advances bytes a a.proceed := by
  unfold proceed
  simp only [Conversation.wait, FramedSession.wait]
  by_cases hover : a.session.status = .terminated
  · simp only [if_pos hover]
    exact ⟨rfl, by simp, by simp⟩
  · cases bytes with
    | nil =>
      simp only [if_neg hover, hinput, Incoming.ofBytes_nil]
      exact ⟨rfl, by simp [hangUp], by simp [hangUp]⟩
    | cons b bytes =>
      simp only [if_neg hover, hinput, Incoming.ofBytes_cons]
      have hreceive : Advances (b :: bytes) _ _ :=
        receive_advances (a := ({ a with session := a.session }.did (.waited (.ok .ready)))) hinput
      exact ⟨hreceive.shutdown, hreceive.goes, hreceive.input⟩

theorem turn_advances {bytes : Bytes} (hinput : a.session.input = .ofBytes bytes .closed) :
    Advances bytes a a.turn := by
  have hlooked := (Agrees.look a).session
  have hshutdown : a.look.2.shutdown = a.shutdown := by
    unfold look
    split
    · rfl
    · dsimp only
      split <;> rfl
  unfold turn
  generalize a.look = p at hlooked hshutdown
  obtain ⟨exit?, b⟩ := p
  cases exit? with
  | some exit => exact ⟨hshutdown, by simp, by simp⟩
  | none =>
    have hproceed := proceed_advances (hlooked ▸ hinput : b.session.input = _)
    exact ⟨hproceed.shutdown.trans hshutdown, hproceed.goes, hproceed.input⟩

/-- Turns on a stream that the client has closed lead to an end, and none asks the agent for it. -/
theorem run_of_closed {bytes : Bytes} (hinput : a.session.input = .ofBytes bytes .closed) :
    (∃ exit, a.run.1 = .ended exit) ∧ a.run.2.shutdown = a.shutdown := by
  -- The run takes another turn only where less is pending, and that is always so here.
  induction hn : bytes.length using Nat.strongRecOn generalizing a bytes with
  | ind n ih =>
    have hturn := turn_advances hinput
    unfold run
    generalize a.turn = p at hturn
    obtain ⟨turn, b⟩ := p
    cases turn with
    | stop exit => exact ⟨⟨exit, rfl⟩, hturn.shutdown⟩
    | blocked => exact absurd rfl hturn.goes
    | again =>
      obtain ⟨left, hleft, hless⟩ := hturn.input rfl
      have hpending : b.pending < a.pending := by
        change b.session.input.size < a.session.input.size
        change b.session.input = _ at hleft
        rw [hinput, hleft, Incoming.size_ofBytes, Incoming.size_ofBytes]
        omega
      obtain ⟨hended, hshutdown⟩ := ih left.length (hn ▸ hless) hleft rfl
      dsimp only
      rw [if_pos hpending]
      exact ⟨hended, hshutdown.trans hturn.shutdown⟩

end Agent
end Netconf
