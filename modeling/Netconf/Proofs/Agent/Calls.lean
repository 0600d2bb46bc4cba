import Netconf.Proofs.Agent.Answers
import Netconf.Proofs.Agent.Course
import Netconf.Proofs.Agent.Motion

/-! The calls to the management server in the course of a session: one for each request that comes
to a call, in the order in which the requests have come in, and a farewell where the client has hung
up. The session is closed at the server once at most. -/
namespace Netconf

/-- Requests to end the session come to calls that close it, and no others do. -/
theorem Rpc.Request.countP_isClose {id : SessionId} {rs : List Rpc.Request}
    {asked : List (Option Backend.Call)} (h : List.Forall₂ (Rpc.Request.Asks id) rs asked) :
    asked.reduceOption.countP Backend.Call.isClose =
      rs.countP fun r => r.operation = .closeSession := by
  induction h with
  | nil => rfl
  | cons hasks _ ih =>
    cases hasks with
    | close h | kill h _ | forward h =>
      rw [List.reduceOption_cons_of_some, List.countP_cons, List.countP_cons, ih, h]
      rfl
    | defective h _ | subscribe h =>
      rw [List.reduceOption_cons_of_none, List.countP_cons, ih, h]
      rfl

/-- A request for an operation that is nobody else's business comes to a call that forwards it. -/
theorem Rpc.Request.Asks.eq_forward {id : SessionId} {r : Rpc.Request} {call : Option Backend.Call}
    {name : String} (h : r.Asks id call) (other : r.operation = .other name) :
    call = some (.forward id r) := by
  cases h with
  | forward => rfl
  | close h | kill h _ | defective h _ | subscribe h =>
    rw [other] at h
    cases h

theorem Station.Utters.replying {station : Station} {r : Rpc.Request} {d : Dispatch}
    (h : station.Utters (.reply r d)) : station = .replying r d := by
  cases station with
  | judging m =>
    obtain ⟨attributes, e, -, hm⟩ := h
    cases hm
  | replying r' d' =>
    cases (show Message.reply r d = .reply r' d' from h)
    rfl
  | _ => exact h.elim

theorem Station.countP_farewell (id : SessionId) (station : Station) :
    (station.farewell id).countP Backend.Call.isClose =
      if station.exit? = some .hungUp then 1 else 0 := by
  unfold farewell
  split <;> rfl

/-- The session is closed at the server once at most, and once where the session has been closed or
the client has hung up. -/
theorem Course.countP_isClose {terms : Terms} {start v : Standing} {hs : List Happening}
    (h : Course terms start hs v) (hstart : start.station = .looking) :
    closings hs + (if v.station.exit? = some .hungUp then 1 else 0) ≤ 1 ∧
      (v.station.exit? = some .hungUp ∨ start.status = .working ∧ v.station.exit? = some .closed →
        closings hs + (if v.station.exit? = some .hungUp then 1 else 0) = 1) := by
  have hle := (h.closings_le hstart).1
  by_cases hbye : v.station.exit? = some .hungUp
  · have hnone := h.closings_of_exit hbye (by simp) (by simp)
    simp [hbye, hnone]
  · rw [if_neg hbye]
    refine ⟨hle, ?_⟩
    rintro (hhung | ⟨hworks, hclosed⟩)
    · exact absurd hhung hbye
    · have hcloses : closings hs ≠ 0 := fun hnone => (h.works hstart hworks hnone).2 hclosed
      omega

namespace Running

variable {β ρ : Type} [Backend.Server β] [Registry ρ] {start s : Running β ρ}
  {hs : List Happening}

/-- Whatever the client sends, whatever the management server's calls return, and whether or not
the replies get out: the requests among the messages that the client has sent are decided in their
order, and each has come to its own call, or to none where it is none of the server's business or
names no session to be killed. One more call closes the session, just where the client has hung up,
so that it is closed once at most. The reply that is sent for a request is what its own call has
returned, where that is one that returns a reply. -/
theorem calls_in_order (fresh : start.IsFresh) (run : Execution start hs s) :
    (∃ left, start.agent.session.framing.Takes start.agent.session.limit
      (allArrived start.agent.session.input hs) (takenMessages hs) left) ∧
    (takenMessages hs).filterMap FramedSession.requested? =
      decidedRequests hs ++ s.station.underWay.toList ∧
    (∃ asked, List.Forall₂ (Rpc.Request.Asks start.agent.session.id) (decidedRequests hs) asked ∧
      ∃ made, s.agent.calls = start.agent.calls ++ made ∧
        made = asked.reduceOption ++
          (if s.station.exit? = some .hungUp then [.close start.agent.session.id] else []) ∧
        made.countP Backend.Call.isClose ≤ 1 ∧
        (s.station.exit? = some .hungUp ∨
            start.agent.session.status = .working ∧ s.station.exit? = some .closed →
          made.countP Backend.Call.isClose = 1)) ∧
    ∀ pre r d post, hs = pre ++ .sent .loop (.reply r d) :: post →
      ∃ before between u call, pre = before ++ .decided r d :: between ∧
        decidedRequests between = [] ∧ Execution start before u ∧
        r.Asks start.agent.session.id call ∧
        (u.agent.dispatch r).2.calls = u.agent.calls ++ call.toList ∧
        (u.agent.dispatch r).2.server =
          call.elim u.agent.server (Backend.Call.make u.agent.server) ∧
        ∀ reply, call.bind (Backend.Call.reply? u.agent.server) = some reply → d.reply = reply := by
  have hcourse := run.course
  obtain ⟨left, htakes, -⟩ := run.intake
  obtain ⟨asked, hasked, hcalls⟩ := hcourse.calls fresh.looks
  refine ⟨⟨left, htakes⟩, hcourse.requests fresh.looks, ⟨asked, hasked, _, ?_, rfl, ?_⟩, ?_⟩
  · rw [← List.append_assoc]
    exact hcalls
  · have hcount : (asked.reduceOption ++ s.station.farewell start.agent.session.id).countP
        Backend.Call.isClose =
        closings hs + (if s.station.exit? = some .hungUp then 1 else 0) := by
      rw [List.countP_append, Rpc.Request.countP_isClose hasked, Station.countP_farewell]
      rfl
    obtain ⟨hle, hone⟩ := hcourse.countP_isClose fresh.looks
    exact ⟨hcount ▸ hle, fun hexit => hcount ▸ hone hexit⟩
  · intro pre r d post hsent
    obtain ⟨w, hw, hutters⟩ := run.sent_loop fresh hsent
    obtain ⟨before, between, hpre, hbetween⟩ :=
      hw.course.decided_of_replying fresh.looks hutters.replying
    obtain ⟨u, hu, -, hdispatch⟩ := hw.decided hpre
    obtain ⟨call, hasks, hmade, hserver, hreply⟩ := u.agent.dispatch_asks r
    have hid : u.agent.session.id = start.agent.session.id := congrArg Terms.id hu.same_terms
    refine ⟨before, between, u, call, hpre, hbetween, hu, hid ▸ hasks, hmade, hserver, ?_⟩
    rw [← hdispatch]
    exact hreply

/-- A client whose second message lacks an identifier and whose third is no text has had the server
asked for what its requests are about, and for nothing else. -/
theorem conversed_calls : ∃ s : Running Rehearsal.Server MemoryRegistry,
    Execution conversing conversed s ∧ (takenMessages conversed).length = 4 ∧
      s.agent.calls =
        [.forward default (asked "get"), .forward default (asked "get-config")] := by
  obtain ⟨s, run, -, hstation, -⟩ := conversing_conversed
  obtain ⟨-, -, ⟨calls, hcalls, made, hlog, hmade, -⟩, -⟩ := calls_in_order conversing_isFresh run
  have hnone : s.station.exit? = none := by rw [hstation]; rfl
  refine ⟨s, run, rfl, ?_⟩
  rw [hnone] at hmade
  change List.Forall₂ _ [asked "get", asked "get-config"] calls at hcalls
  cases hcalls with
  | cons hfirst hrest =>
    cases hrest with
    | cons hsecond hrest =>
      cases hrest
      obtain rfl := hfirst.eq_forward rfl
      obtain rfl := hsecond.eq_forward rfl
      rw [hlog, hmade]
      rfl

end Running
end Netconf
