import Netconf.Subscription.Delivery

/-! What a session keeps for all its life, and which of its works write nothing. -/
namespace Netconf

/-- A delivery's move that comes without a word to the client. -/
def Delivery.Move.isQuiet : Delivery.Move → Bool
  | notify _ _ => false
  | complete => false
  | _ => true

namespace FramedSession

/-- Two sessions with the same terms, on which the same has been written. -/
structure Alike (s t : FramedSession) : Prop where
  framing : t.framing = s.framing
  limit : t.limit = s.limit
  capabilities : t.capabilities = s.capabilities
  written : t.output.written = s.output.written

namespace Alike

theorem refl (s : FramedSession) : Alike s s := ⟨rfl, rfl, rfl, rfl⟩

theorem of_eq {s t : FramedSession} (h : t = s) : Alike s t := by
  rw [h]
  exact refl s

theorem wait (s : FramedSession) : Alike s s.wait.2 := by
  unfold FramedSession.wait
  split
  · exact refl s
  · split <;> exact ⟨rfl, rfl, rfl, rfl⟩

theorem close (s : FramedSession) : Alike s s.close := ⟨rfl, rfl, rfl, rfl⟩

end Alike

/-- The begin of a delivery changes the source at most. -/
theorem subscribe_session (s : FramedSession) (now : Time.Instant) (request : Rpc.Request) :
    ∃ source, (s.subscribe now request).2 = { s with source } := by
  unfold subscribe
  split
  · exact ⟨s.source, rfl⟩
  · split <;> exact ⟨_, rfl⟩

theorem deliver_of_quiet {s : FramedSession} {now : Time.Instant} {d : Delivery}
    (h : (d.next s.tornDown now).isQuiet = true) : (s.deliver now d).2 = s := by
  unfold deliver
  cases hn : d.next s.tornDown now with
  | wait => rfl
  | stop => rfl
  | pass rest => rfl
  | notify e rest =>
    rw [hn] at h
    cases h
  | complete =>
    rw [hn] at h
    cases h

/-- Waiting does not change the status. -/
theorem wait_status (s : FramedSession) : s.wait.2.status = s.status := by
  unfold wait
  split
  · rfl
  · split <;> rfl

end FramedSession
end Netconf
