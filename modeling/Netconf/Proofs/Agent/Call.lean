import Netconf.Agent.Loop
import Netconf.Proofs.Backend.Call

/-! The calls that an agent makes to the management server. A request comes to one call at most,
whose answer is the request's reply, and nothing else of the loop's work but a hang-up is a call. -/
namespace Netconf

namespace Rpc.Request

/-- A request names the session that it wants killed: its element is the one for that, and the
element's first child is the session's identifier. -/
def Names (r : Request) (target : String) : Prop :=
  ∃ content child rest, r.content = some content ∧ content.name = "kill-session" ∧
    content.children = child :: rest ∧ child.name = "session-id" ∧ target = Text.trim child.text

/-- The call that a request comes to in a session, if it comes to one. -/
inductive Asks (session : SessionId) (r : Request) : Option Backend.Call → Prop
  | close (h : r.operation = .closeSession) : Asks session r (some (.close session))
  | kill {target : String} (h : r.operation = .killSession) (names : r.Names target) :
      Asks session r (some (.kill session target))
  | defective (h : r.operation = .killSession) (unnamed : ∀ target, ¬ r.Names target) :
      Asks session r none
  | subscribe (h : r.operation = .createSubscription) : Asks session r none
  | forward {name : String} (h : r.operation = .other name) :
      Asks session r (some (.forward session r))

end Rpc.Request

/-- The call that is made with an act. -/
def Act.call? : Act → Option Backend.Call
  | askedCapabilities => some .capabilities
  | informed info => some (.inform info)
  | forwarded session request => some (.forward session request)
  | killed session target => some (.kill session target)
  | closed session => some (.close session)
  | _ => none

namespace Agent

variable {σ δ β ρ : Type}

/-- The calls that an agent has made, the oldest first. -/
def calls (a : Agent σ δ β ρ) : List Backend.Call := a.acts.filterMap Act.call?

theorem calls_did (act : Act) (a : Agent σ δ β ρ) :
    (a.did act).calls = a.calls ++ act.call?.toList := by
  rw [calls, did, List.filterMap_append]
  cases h : act.call? <;> simp [calls, h]

theorem killTarget_eq_ok_iff {r : Rpc.Request} {target : String} :
    killTarget r = .ok target ↔ r.Names target := by
  unfold killTarget
  constructor
  · intro h
    split at h
    · cases h
    · next content hcontent =>
      obtain ⟨hsome, hname⟩ := Option.filter_eq_some_iff.mp hcontent
      split at h
      · cases h
      · next child hchild =>
        obtain ⟨hhead, hid⟩ := Option.filter_eq_some_iff.mp hchild
        obtain ⟨rest, hrest⟩ := List.head?_eq_some_iff.mp hhead
        exact ⟨content, child, rest, hsome, by simpa using hname, hrest, by simpa using hid,
          (Except.ok.inj h).symm⟩
  · rintro ⟨content, child, rest, hcontent, hname, hchildren, hid, rfl⟩
    simp [hcontent, Option.filter, hname, hchildren, hid, Xml.Element.content]

theorem unnamed_of_killTarget {r : Rpc.Request} {reply : Rpc.Reply}
    (h : killTarget r = .error reply) (target : String) : ¬ r.Names target := by
  intro hnames
  rw [killTarget_eq_ok_iff.mpr hnames] at h
  cases h

variable [Conversation σ δ]

theorem createSubscription_calls (r : Rpc.Request) (a : Agent σ δ β ρ) :
    (a.createSubscription r).2.calls = a.calls ∧ (a.createSubscription r).2.server = a.server := by
  have hchecked : (a.did (.checked r)).calls = a.calls := by
    rw [calls_did]
    exact List.append_nil _
  unfold createSubscription
  split
  · exact ⟨rfl, rfl⟩
  · split
    · exact ⟨rfl, rfl⟩
    · split
      · exact ⟨rfl, rfl⟩
      · dsimp only
        split
        · exact ⟨hchecked, rfl⟩
        · split <;> exact ⟨hchecked, rfl⟩

variable [Backend.Server β]

/-- Dispatching a request makes the call that the request comes to and no other, and the reply is
what that call returns. -/
theorem dispatch_asks (r : Rpc.Request) (a : Agent σ δ β ρ) :
    ∃ call, r.Asks (Conversation.id a.session) call ∧
      (a.dispatch r).2.calls = a.calls ++ call.toList ∧
      (a.dispatch r).2.server = call.elim a.server (Backend.Call.make a.server) ∧
      ∀ reply, call.bind (Backend.Call.reply? a.server) = some reply →
        (a.dispatch r).1.reply = reply := by
  cases hr : r.operation with
  | closeSession =>
    refine ⟨_, .close hr, ?_, ?_, ?_⟩
    · rw [dispatch, hr]
      simp only [closeSession, closeAtServer]
      rw [calls_did]
      exact (List.append_nil _).trans (calls_did _ _)
    · rw [dispatch, hr]
      rfl
    · intro reply h
      cases h
  | killSession =>
    rw [dispatch, hr]
    simp only [killSession]
    split
    · next reply h =>
      exact ⟨none, .defective hr (unnamed_of_killTarget h), (List.append_nil _).symm, rfl, by simp⟩
    · next target h =>
      refine ⟨_, .kill hr (killTarget_eq_ok_iff.mp h), calls_did _ _, rfl, ?_⟩
      intro reply h
      exact Option.some.inj h
  | createSubscription =>
    rw [dispatch, hr]
    obtain ⟨hcalls, hserver⟩ := createSubscription_calls r a
    exact ⟨none, .subscribe hr, by rw [hcalls]; exact (List.append_nil _).symm, hserver, by simp⟩
  | other name =>
    rw [dispatch, hr]
    refine ⟨_, .forward hr, calls_did _ _, rfl, ?_⟩
    intro reply h
    exact Option.some.inj h

end Agent
end Netconf
