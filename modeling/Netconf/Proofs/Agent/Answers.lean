import Netconf.Proofs.Agent.Intake
import Netconf.Proofs.Agent.Release

/-! The answers to what a client sends. As long as nobody is subscribed to events, all that is
written to the client are the answers to its messages, each before the next message is taken. -/
namespace Netconf

theorem sentMessages_filter_isOfLoop {hs : List Happening}
    (h : ∀ i m, .sent (.task i) m ∉ hs) :
    sentMessages (hs.filter Happening.isOfLoop) = sentMessages hs := by
  induction hs with
  | nil => rfl
  | cons e hs ih =>
    have hrest := ih fun i m hm => h i m (List.mem_cons_of_mem e hm)
    cases e with
    | sent p m =>
      cases p with
      | loop => exact congrArg (m :: ·) hrest
      | task i => exact absurd List.mem_cons_self (h i m)
    | _ => exact hrest

theorem takenMessages_filter_isOfLoop (hs : List Happening) :
    takenMessages (hs.filter Happening.isOfLoop) = takenMessages hs := by
  induction hs with
  | nil => rfl
  | cons e hs ih =>
    cases e with
    | took m => exact congrArg (m :: ·) ih
    | sent p m => cases p <;> exact ih
    | _ => exact ih

/-- In the middle of an exchange nothing has been answered. -/
theorem Station.Open.sentMessages_eq_nil {station : Station} {begun : List Happening}
    (h : station.Open begun) : sentMessages begun = [] := by
  cases station with
  | judging m =>
    rw [show begun = [.took m] from h]
    rfl
  | heeding r =>
    cases r with
    | request r =>
      obtain ⟨m, -, rfl⟩ := h
      rfl
    | _ =>
      rw [show begun = [] from h]
      rfl
  | dispatching r =>
    obtain ⟨m, -, rfl⟩ := h
    rfl
  | replying r d =>
    obtain ⟨m, -, rfl⟩ := h
    rfl
  | _ =>
    rw [show begun = [] from h]
    rfl

namespace Running

variable {β ρ : Type} {start s t : Running β ρ} {hs l : List Happening}

/-- Where there are no tasks and the loop is done with its messages, nobody holds the writer. -/
theorem HasWritten.eq_nil {part : Bytes} (h : s.HasWritten part) (hengaged : Engaged hs s)
    (hdelivers : Delivers s) (htasks : s.agent.tasks = [])
    (hbetween : s.station.isBetween = true) : part = [] := by
  cases hw : s.writer with
  | none =>
    unfold HasWritten at h
    rw [hw] at h
    exact h
  | some w =>
    obtain ⟨p, left⟩ := w
    obtain ⟨m, hm, -⟩ := h.wants_of_writer hw
    cases p with
    | loop =>
      have hutters := hengaged.utters m hm
      cases hst : s.station <;> rw [hst] at hutters hbetween <;>
        first | exact hutters.elim | cases hbetween
    | task i =>
      obtain ⟨d, hd⟩ := hdelivers i m hm
      simp [Agent.stage?, htasks] at hd

variable [Backend.Server β] [Registry ρ]

/-- A decision is what dispatching the request comes to. -/
theorem Step.decided (h : Step s l t) {r : Rpc.Request} {d : Dispatch}
    (hd : .decided r d ∈ l) :
    l = [.decided r d] ∧ s.station = .dispatching r ∧ (s.agent.dispatch r).1 = d := by
  cases h with
  | loop free =>
    unfold loopStep at hd ⊢
    cases hst : s.station with
    | receiving =>
      rw [hst] at hd
      dsimp only [receive] at hd
      split at hd <;> simp at hd
    | judging m =>
      rw [hst] at hd
      dsimp only [judge] at hd
      split at hd <;> simp [want] at hd
    | replying r d =>
      rw [hst] at hd
      dsimp only [reply] at hd
      split at hd <;> simp [want] at hd
    | dispatching q =>
      rw [hst] at hd
      obtain ⟨rfl, rfl⟩ := Happening.decided.inj (List.mem_singleton.mp hd)
      exact ⟨rfl, rfl, rfl⟩
    | _ =>
      rw [hst] at hd
      cases hd
  | task i free =>
    obtain ⟨m, hm⟩ := mem_taskStep hd
    cases hm
  | finish wanted held => simp at hd
  | fail wanted => simp at hd
  | perish stage alive dead => split at hd <;> simp at hd
  | arrive more => simp at hd
  | _ => cases hd

theorem Execution.decided (run : Execution start hs s) {pre post : List Happening}
    {r : Rpc.Request} {d : Dispatch} (hd : hs = pre ++ .decided r d :: post) :
    ∃ u, Execution start pre u ∧ u.station = .dispatching r ∧ (u.agent.dispatch r).1 = d := by
  induction run generalizing post with
  | start => simp at hd
  | step before step ih =>
    obtain ⟨more, hhs⟩ | ⟨rfl, hnow⟩ := append_eq_append_cons hd fun hm => (step.decided hm).1
    · exact ih hhs
    · obtain ⟨-, hstation, hdispatch⟩ := step.decided (r := r) (d := d) (by simp [hnow])
      exact ⟨_, before, hstation, hdispatch⟩

/-- As long as no subscription has been accepted: all that has happened to the loop are exchanges,
each with one message of the client, in the order in which they have come in, and at most one that
has begun. What is written to the client are the frames of what has been said in the exchanges, one
behind the other, and the part that is out of the frame that the loop is about. Where the loop is
between two messages there is no such part. The replies are those of the dispatcher at the time. -/
theorem answers_in_order (fresh : start.IsFresh) (run : Execution start hs s)
    (whole : NoLoss hs) (unsubscribed : s.agent.tasks = []) :
    ∃ (es : List (List Happening)) (begun : List Happening) (part : Bytes),
      (∀ e ∈ es, Exchange e) ∧ s.station.Open begun ∧
      hs.filter Happening.isOfLoop = es.flatten ++ begun ∧ (∀ i m, .sent (.task i) m ∉ hs) ∧
      s.written = start.written ++ (es.flatMap sentMessages).flatMap start.frame ++ part ∧
      s.HasWritten part ∧ (s.station.isBetween = true → begun = [] ∧ part = []) ∧
      (∃ left, start.agent.session.framing.Takes start.agent.session.limit
          (allArrived start.agent.session.input hs)
          (es.flatMap takenMessages ++ takenMessages begun) left ∧
        (s.agent.session.input = left ∨ ∃ e, start.agent.session.framing.read
          start.agent.session.limit left = (.failure e, s.agent.session.input))) ∧
      ∀ pre r d post, hs = pre ++ .decided r d :: post → ∃ u, Execution start pre u ∧
        u.station = .dispatching r ∧ (u.agent.dispatch r).1 = d := by
  have hengaged := run.engaged fresh whole
  obtain ⟨es, begun, hes, hbegun, hhs⟩ := hengaged.exchanges
  obtain ⟨part, hpart, hwritten⟩ := (run.wire fresh whole).written
  obtain ⟨left, htakes, hleft⟩ := run.intake
  -- A task that has written something would have had a subscription accepted.
  have hloop : ∀ i m, .sent (.task i) m ∉ hs := by
    intro i m hm
    obtain ⟨pre, post, hsplit⟩ := List.append_of_mem hm
    obtain ⟨r, hr, -⟩ := run.promised_of_sent fresh whole hsplit
    simp [Agent.request?, unsubscribed] at hr
  have hsent : sentMessages hs = es.flatMap sentMessages := by
    rw [← sentMessages_filter_isOfLoop hloop, hhs, sentMessages_append,
      hbegun.sentMessages_eq_nil, List.append_nil, sentMessages, List.filterMap_flatten]
    rfl
  have htaken : takenMessages hs = es.flatMap takenMessages ++ takenMessages begun := by
    rw [← takenMessages_filter_isOfLoop, hhs, takenMessages_append, takenMessages,
      List.filterMap_flatten]
    rfl
  rw [hsent] at hpart
  rw [htaken] at htakes
  refine ⟨es, begun, part, hes, hbegun, hhs, hloop, hpart, hwritten, ?_, ⟨left, htakes, ?_⟩, ?_⟩
  · intro hbetween
    exact ⟨(Station.open_of_isBetween hbetween).mp hbegun,
      hwritten.eq_nil hengaged (run.delivers fresh) unsubscribed hbetween⟩
  · obtain hsame | ⟨hfailure, -⟩ := hleft
    · exact .inl hsame
    · exact .inr hfailure
  · intro pre r d post hsplit
    exact run.decided hsplit

/-- A client whose second message lacks an identifier and whose third is no text has been sent the
answers to its requests, with the refusal in between, and nothing else. -/
theorem conversed_in_order : ∃ s : Running Rehearsal.Server MemoryRegistry,
    Execution conversing conversed s ∧
      s.written = conversing.frame (.reply (asked "get") { reply := .ok }) ++
        (conversing.frame (.rejection [] FramedSession.noMessageId) ++
          conversing.frame (.reply (asked "get-config") { reply := .ok })) := by
  obtain ⟨s, run, htasks, hstation, -⟩ := conversing_conversed
  have hwhole : NoLoss conversed := by simp [NoLoss, conversed, answered, Happening.isLoss]
  obtain ⟨es, begun, part, -, -, hhs, hloop, hwritten, -, hbetween, -⟩ :=
    answers_in_order conversing_isFresh run hwhole htasks
  obtain ⟨rfl, rfl⟩ := hbetween (by rw [hstation]; rfl)
  have hsent : es.flatMap sentMessages = [.reply (asked "get") { reply := .ok },
      .rejection [] FramedSession.noMessageId,
      .reply (asked "get-config") { reply := .ok }] := by
    rw [List.append_nil] at hhs
    have hmessages := congrArg sentMessages hhs
    rw [sentMessages_filter_isOfLoop hloop, sentMessages, sentMessages,
      List.filterMap_flatten] at hmessages
    exact hmessages.symm
  have hnothing : conversing.written = [] := rfl
  rw [hsent, hnothing, List.nil_append, List.append_nil, List.flatMap_cons, List.flatMap_cons,
    List.flatMap_singleton] at hwritten
  exact ⟨s, run, hwritten⟩

end Running
end Netconf
