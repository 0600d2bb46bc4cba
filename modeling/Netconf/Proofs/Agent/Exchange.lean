import Netconf.Proofs.Agent.Wire
import Netconf.Proofs.Session.Verdict

/-! The loop's exchanges with the client: it takes a message, and what belongs to the message is out
before it takes the next one. -/
namespace Netconf

/-- Whether something happens to the loop: it takes a message, decides on it, or has answered. -/
def Happening.isOfLoop : Happening → Bool
  | took _ => true
  | decided _ _ => true
  | sent .loop _ => true
  | _ => false

/-- All that happens with one message. -/
inductive Exchange : List Happening → Prop
  | request {m : Bytes} {r : Rpc.Request} {d : Dispatch} (h : FramedSession.IsRequest m r) :
      Exchange [.took m, .decided r d, .sent .loop (.reply r d)]
  | noOperation {m : Bytes} {attributes : List Xml.Attribute}
      (h : FramedSession.LacksOperation m attributes) :
      Exchange [.took m, .sent .loop (.rejection attributes FramedSession.noOperation)]
  | noIdentifier {m : Bytes} {attributes : List Xml.Attribute}
      (h : FramedSession.LacksIdentifier m attributes) :
      Exchange [.took m, .sent .loop (.rejection attributes FramedSession.noMessageId)]
  | other {m : Bytes} (h : FramedSession.IsOther m) : Exchange [.took m]

namespace Station

/-- What has happened with the message that the loop is about, where it is not done with it. -/
def Open : Station → List Happening → Prop
  | judging m, l => l = [.took m]
  | heeding (.request r), l => ∃ m, FramedSession.IsRequest m r ∧ l = [.took m]
  | dispatching r, l => ∃ m, FramedSession.IsRequest m r ∧ l = [.took m]
  | replying r d, l => ∃ m, FramedSession.IsRequest m r ∧ l = [.took m, .decided r d]
  | _, l => l = []

/-- What the loop may write where it stands. -/
def Utters : Station → Message → Prop
  | judging m, u => ∃ attributes e,
      FramedSession.judge m = (.unknown, some (attributes, e)) ∧ u = .rejection attributes e
  | replying r d, u => u = .reply r d
  | _, _ => False

/-- The status that the session may have where the loop stands. -/
def Allows : Station → Status → Prop
  | waiting, status => status = .working
  | receiving, status => status = .working
  | judging _, status => status = .working
  | heeding (.request _), status => status = .working
  | dispatching _, status => status = .working
  | replying _ _, status => status ≠ .terminated
  | _, _ => True

/-- Whether the loop is done with the last message that it took. -/
def isBetween : Station → Bool
  | judging _ => false
  | heeding (.request _) => false
  | dispatching _ => false
  | replying _ _ => false
  | _ => true

theorem open_of_isBetween {station : Station} {l : List Happening}
    (h : station.isBetween = true) : station.Open l ↔ l = [] := by
  cases station with
  | heeding r => cases r <;> first | rfl | cases h
  | _ => first | rfl | cases h

end Station

namespace Running

variable {β ρ : Type} {start s t : Running β ρ} {hs l : List Happening}

/-- The loop has had complete exchanges, and one that is under way where it stands. -/
structure Engaged (hs : List Happening) (s : Running β ρ) : Prop where
  status : s.station.Allows s.agent.session.status
  utters : ∀ m, s.wants .loop = some m → s.station.Utters m
  answered : ∀ r d, s.station = .recording r d → .sent .loop (.reply r d) ∈ hs
  exchanges : ∃ (es : List (List Happening)) (begun : List Happening),
    (∀ e ∈ es, Exchange e) ∧ s.station.Open begun ∧
      hs.filter Happening.isOfLoop = es.flatten ++ begun

namespace Engaged

theorem status_at {station : Station} (h : Engaged hs s) (hstation : s.station = station) :
    station.Allows s.agent.session.status := by
  rw [← hstation]
  exact h.status

/-- A step that leaves the loop where it stands. -/
theorem of_same (h : Engaged hs s) (hstation : t.station = s.station)
    (hstatus : t.agent.session.status = s.agent.session.status)
    (hwants : t.wants .loop = s.wants .loop) (hl : ∀ e ∈ l, e.isOfLoop = false) :
    Engaged (hs ++ l) t := by
  have hnil : l.filter Happening.isOfLoop = [] := by
    rw [List.filter_eq_nil_iff]
    intro e he
    rw [hl e he]
    exact Bool.false_ne_true
  refine ⟨?_, ?_, ?_, ?_⟩
  · rw [hstation, hstatus]
    exact h.status
  · rw [hstation, hwants]
    exact h.utters
  · rw [hstation]
    intro r d hrd
    exact List.mem_append_left l (h.answered r d hrd)
  · obtain ⟨es, begun, hes, hbegun, heq⟩ := h.exchanges
    refine ⟨es, begun, hes, ?_, ?_⟩
    · rw [hstation]
      exact hbegun
    · rw [List.filter_append, hnil, List.append_nil, heq]

/-- A step of the loop after which it has nothing to write. It takes the exchange further. -/
theorem of_further (h : Engaged hs s) (free : t.wants .loop = none)
    (hstatus : t.station.Allows t.agent.session.status)
    (hplace : ∀ r d, t.station ≠ .recording r d)
    (hfurther : ∀ begun, s.station.Open begun →
      t.station.Open (begun ++ l.filter Happening.isOfLoop)) : Engaged (hs ++ l) t := by
  obtain ⟨es, begun, hes, hbegun, heq⟩ := h.exchanges
  refine ⟨hstatus, ?_, fun r d hrd => absurd hrd (hplace r d), es, _, hes,
    hfurther begun hbegun, ?_⟩
  · rw [free]
    intro m hm
    cases hm
  · rw [List.filter_append, heq, List.append_assoc]

/-- A step of the loop with which the exchange is complete. -/
theorem of_complete (h : Engaged hs s) (free : t.wants .loop = none)
    (hbetween : t.station.isBetween = true)
    (hstatus : t.station.Allows t.agent.session.status)
    (hanswered : ∀ r d, t.station = .recording r d → .sent .loop (.reply r d) ∈ hs ++ l)
    (hcomplete : ∀ begun, s.station.Open begun →
      Exchange (begun ++ l.filter Happening.isOfLoop)) : Engaged (hs ++ l) t := by
  obtain ⟨es, begun, hes, hbegun, heq⟩ := h.exchanges
  refine ⟨hstatus, ?_, hanswered, es ++ [begun ++ l.filter Happening.isOfLoop], [], ?_, ?_, ?_⟩
  · rw [free]
    intro m hm
    cases hm
  · intro e he
    obtain he | he := List.mem_append.mp he
    · exact hes e he
    · rw [List.mem_singleton.mp he]
      exact hcomplete begun hbegun
  · exact (Station.open_of_isBetween hbetween).mpr rfl
  · rw [List.filter_append, heq]
    simp

/-- A step between two exchanges. -/
theorem of_between (h : Engaged hs s) (free : t.wants .loop = none)
    (hbefore : s.station.isBetween = true) (hafter : t.station.isBetween = true)
    (hstatus : t.station.Allows t.agent.session.status)
    (hplace : ∀ r d, t.station ≠ .recording r d) : Engaged (hs ++ []) t := by
  refine h.of_further free hstatus hplace fun begun hbegun => ?_
  rw [(Station.open_of_isBetween hbefore).mp hbegun]
  exact (Station.open_of_isBetween hafter).mpr rfl

/-- The loop turns to a message. -/
theorem of_want {m : Message} (h : Engaged hs s) (hutters : s.station.Utters m) :
    Engaged (hs ++ (s.want .loop m).1) (s.want .loop m).2 := by
  obtain ⟨es, begun, hes, hbegun, heq⟩ := h.exchanges
  refine ⟨h.status, ?_, fun r d hrd => List.mem_append_left _ (h.answered r d hrd), es, begun, hes,
    hbegun, ?_⟩
  · intro m' hm'
    have hsame : m = m' := by simpa [want] using hm'
    rw [← hsame]
    exact hutters
  · rw [List.filter_append, heq]
    simp [want, Happening.isOfLoop]

end Engaged

theorem look_engaged (h : Engaged hs s) (free : s.wants .loop = none)
    (hstation : s.station = .looking) : Engaged (hs ++ []) s.look := by
  have hbefore : s.station.isBetween = true := by rw [hstation]; rfl
  have hagent : s.agent.look.2.session = s.agent.session := (Agent.Agrees.look _).session
  have hworks : s.agent.look.1 = none → s.agent.session.status = .working := by
    unfold Agent.look
    split
    · intro hnone
      cases hnone
    · dsimp only
      split
      · next hworking => exact fun _ => hworking
      · intro hnone
        cases hnone
  unfold look
  split
  · exact h.of_between free hbefore rfl trivial (by simp [goTo])
  · next heq =>
    rw [heq] at hagent hworks
    refine h.of_between free hbefore rfl ?_ (by simp [goTo])
    exact (congrArg FramedSession.status hagent).trans (hworks rfl)

theorem receive_engaged (h : Engaged hs s) (free : s.wants .loop = none)
    (hstation : s.station = .receiving) : Engaged (hs ++ s.receive.1) s.receive.2 := by
  have hbefore : s.station.isBetween = true := by rw [hstation]; rfl
  have hworks : s.agent.session.status = .working := h.status_at hstation
  unfold receive
  dsimp only
  split
  · refine h.of_further free hworks (by simp [goTo]) fun begun hbegun => ?_
    rw [(Station.open_of_isBetween hbefore).mp hbegun]
    rfl
  · exact h.of_between free hbefore rfl trivial (by simp [goTo])
  · exact h.of_between free hbefore rfl trivial (by simp [goTo])
  · exact h.of_between free hbefore rfl hworks (by simp [goTo])

theorem judge_engaged {m : Bytes} (h : Engaged hs s) (free : s.wants .loop = none)
    (hstation : s.station = .judging m) : Engaged (hs ++ (s.judge m).1) (s.judge m).2 := by
  have hworks : s.agent.session.status = .working := h.status_at hstation
  have hopen : ∀ begun, s.station.Open begun → begun = [.took m] := by
    rw [hstation]
    exact fun begun hbegun => hbegun
  have hjudged := FramedSession.judged_judge m
  unfold judge
  split
  · next r heq =>
    rw [heq] at hjudged
    cases hjudged with
    | request hr =>
      refine h.of_further free hworks (by simp [goTo]) fun begun hbegun => ?_
      exact ⟨m, hr, by rw [hopen begun hbegun]; rfl⟩
    | other hother =>
      refine h.of_complete free rfl trivial (by simp [goTo]) fun begun hbegun => ?_
      rw [hopen begun hbegun]
      exact .other hother
  · next r attributes e heq =>
    apply h.of_want
    rw [hstation]
    refine ⟨attributes, e, ?_, rfl⟩
    rw [heq] at hjudged ⊢
    cases hjudged <;> rfl

theorem reply_engaged {r : Rpc.Request} {d : Dispatch} (h : Engaged hs s)
    (hstation : s.station = .replying r d) : Engaged (hs ++ (s.reply r d).1) (s.reply r d).2 := by
  have hlives : s.agent.session.status ≠ .terminated := h.status_at hstation
  unfold reply
  -- The session has not ended, so the reply is not dropped.
  rw [if_neg hlives]
  apply h.of_want
  rw [hstation]
  rfl

variable [Backend.Server β]

theorem dispatch_engaged {r : Rpc.Request} (h : Engaged hs s) (free : s.wants .loop = none)
    (hstation : s.station = .dispatching r) :
    Engaged (hs ++ (s.dispatch r).1) (s.dispatch r).2 := by
  have hworks : s.agent.session.status = .working := h.status_at hstation
  have hlives : (s.agent.dispatch r).2.session.status ≠ .terminated := by
    obtain heq | heq := Agent.dispatch_session (a := s.agent) r <;> rw [heq]
    · simp [hworks]
    · simp
  refine h.of_further free hlives (by simp [dispatch, goTo]) fun begun hbegun => ?_
  rw [hstation] at hbegun
  obtain ⟨m, hm, rfl⟩ := hbegun
  exact ⟨m, hm, rfl⟩

theorem wait_engaged (h : Engaged hs s) (free : s.wants .loop = none)
    (hstation : s.station = .waiting) : Engaged (hs ++ []) s.wait := by
  have hbefore : s.station.isBetween = true := by rw [hstation]; rfl
  have hworks : s.agent.session.wait.2.status = .working := by
    rw [FramedSession.wait_status]
    exact h.status_at hstation
  unfold wait
  dsimp only
  split
  · exact h.of_between free hbefore rfl trivial (by simp [goTo])
  · exact h.of_between free hbefore rfl trivial (by simp [goTo])
  · exact h.of_between free hbefore rfl trivial (by simp [goTo])
  · exact h.of_between free hbefore rfl trivial (by simp [turned, goTo, Agent.hangUp, Turn.station])
  · exact h.of_between free hbefore rfl trivial (by simp [goTo])
  · exact h.of_between free hbefore rfl hworks (by simp [goTo])

variable [Registry ρ]

theorem heed_engaged {r : Received} (h : Engaged hs s) (free : s.wants .loop = none)
    (hstation : s.station = .heeding r) : Engaged (hs ++ []) (s.heed r) := by
  cases r with
  | request q =>
    have hworks : s.agent.session.status = .working := h.status_at hstation
    refine h.of_further free hworks (by simp [heed, goTo]) fun begun hbegun => ?_
    rw [hstation] at hbegun
    obtain ⟨m, hm, rfl⟩ := hbegun
    exact ⟨m, hm, rfl⟩
  | nothing =>
    have hbefore : s.station.isBetween = true := by rw [hstation]; rfl
    exact h.of_between free hbefore rfl trivial
      (by simp [heed, turned, goTo, Agent.heed, Turn.station])
  | hungUp =>
    have hbefore : s.station.isBetween = true := by rw [hstation]; rfl
    exact h.of_between free hbefore rfl trivial
      (by simp [heed, turned, goTo, Agent.heed, Agent.hangUp, Turn.station])
  | unknown =>
    have hbefore : s.station.isBetween = true := by rw [hstation]; rfl
    have hafter : (s.heed .unknown).station = .looking ∨
        ∃ exit, (s.heed .unknown).station = .closing exit := by
      unfold heed turned goTo Agent.heed Agent.reject
      dsimp only
      split
      · exact .inl rfl
      · exact .inr ⟨_, rfl⟩
    obtain heq | ⟨exit, heq⟩ := hafter
    · exact h.of_between free hbefore (by rw [heq]; rfl) (by rw [heq]; trivial) (by simp [heq])
    · exact h.of_between free hbefore (by rw [heq]; rfl) (by rw [heq]; trivial) (by simp [heq])

theorem loopStep_engaged (h : Engaged hs s) (free : s.wants .loop = none) :
    Engaged (hs ++ s.loopStep.1) s.loopStep.2 := by
  unfold loopStep
  cases hst : s.station with
  | looking => exact look_engaged h free hst
  | waiting => exact wait_engaged h free hst
  | receiving => exact receive_engaged h free hst
  | judging m => exact judge_engaged h free hst
  | heeding r => exact heed_engaged h free hst
  | dispatching r => exact dispatch_engaged h free hst
  | replying r d => exact reply_engaged h hst
  | recording r d => exact h.of_between free (by rw [hst]; rfl) rfl trivial (by simp [goTo])
  | closing exit => exact h.of_between free (by rw [hst]; rfl) rfl trivial (by simp [goTo])
  | dismissing exit => exact h.of_between free (by rw [hst]; rfl) rfl trivial (by simp [goTo])
  | leaving exit => exact h.of_between free (by rw [hst]; rfl) rfl trivial (by simp [goTo])
  | ended exit =>
    exact h.of_between free (by rw [hst]; rfl) (by rw [hst]; rfl) (by rw [hst]; trivial)
      (by simp [hst])

omit [Backend.Server β] [Registry ρ] in
/-- The loop's message is out, and with it the exchange is complete. -/
theorem finish_engaged {m : Message} (h : Engaged hs s) (wanted : s.wants .loop = some m) :
    Engaged (hs ++ [.sent .loop m]) ((s.quit .loop).goOn .loop m) := by
  have hutters := h.utters m wanted
  have free : ((s.quit .loop).goOn .loop m).wants .loop = none := by
    rw [(goOn_wants .loop m (s.quit .loop)).1]
    simp [quit]
  cases hst : s.station with
  | judging x =>
    rw [hst] at hutters
    obtain ⟨attributes, e, hjudge, rfl⟩ := hutters
    have hstation : ((s.quit .loop).goOn .loop (.rejection attributes e)).station =
        .heeding .unknown := by
      simp [goOn, quit, goTo, hst, hjudge]
    refine h.of_complete free ?_ ?_ ?_ fun begun hbegun => ?_
    · rw [hstation]
      rfl
    · rw [hstation]
      trivial
    · rw [hstation]
      intro r d hrd
      cases hrd
    · rw [hst] at hbegun
      rw [show begun = [.took x] from hbegun]
      have hjudged := FramedSession.judged_judge x
      rw [hjudge] at hjudged
      cases hjudged with
      | noOperation hlacks => exact .noOperation hlacks
      | noIdentifier hlacks => exact .noIdentifier hlacks
  | replying r d =>
    rw [hst] at hutters
    have hm : m = .reply r d := hutters
    subst hm
    have hstation : ((s.quit .loop).goOn .loop (.reply r d)).station = .recording r d := by
      simp [goOn, quit, goTo, hst]
    refine h.of_complete free ?_ ?_ ?_ fun begun hbegun => ?_
    · rw [hstation]
      rfl
    · rw [hstation]
      trivial
    · rw [hstation]
      intro r' d' hrd
      cases hrd
      simp
    · rw [hst] at hbegun
      obtain ⟨x, hx, rfl⟩ := hbegun
      exact .request hx
  | _ =>
    rw [hst] at hutters
    exact hutters.elim

/-- A step in which nothing gets lost. -/
theorem Step.engaged (h : Step s l t) (hl : NoLoss l) (he : Engaged hs s) :
    Engaged (hs ++ l) t := by
  cases h with
  | loop free => exact loopStep_engaged he free
  | task i free =>
    obtain ⟨hstation, hwants⟩ := s.taskStep_station i
    obtain ⟨source, hsession⟩ := s.taskStep_session i
    refine he.of_same hstation (by rw [hsession]) hwants fun e he => ?_
    obtain ⟨m, rfl⟩ := mem_taskStep he
    rfl
  | acquire wanted free => exact he.of_same rfl rfl rfl (by simp)
  | write held => exact he.of_same rfl rfl rfl (by simp)
  | @finish p m wanted held =>
    cases p with
    | loop => exact finish_engaged he wanted
    | task i =>
      refine he.of_same (goOn_task_station i m _) ?_ ?_ (by simp [Happening.isOfLoop])
      · rw [goOn_session]
      · rw [(goOn_wants (.task i) m (s.quit (.task i))).1]
        simp [quit]
  | fail wanted => exact absurd (hl _ (List.mem_singleton_self _)) (by simp [Happening.isLoss])
  | @perish i before last stage alive dead =>
    refine he.of_same rfl rfl (by simp [quit]) ?_
    split <;> simp [Happening.isOfLoop]
  | arrive more => exact he.of_same rfl rfl rfl (by simp [Happening.isOfLoop])
  | feed more stage => exact he.of_same rfl rfl rfl (by simp)
  | tick now => exact he.of_same rfl rfl rfl (by simp)
  | ask => exact he.of_same rfl rfl rfl (by simp)
  | serve server => exact he.of_same rfl rfl rfl (by simp)
  | enable canSpawn => exact he.of_same rfl rfl rfl (by simp)

theorem Execution.engaged (fresh : start.IsFresh) (run : Execution start hs s) (hl : NoLoss hs) :
    Engaged hs s := by
  induction run with
  | start =>
    refine ⟨?_, ?_, ?_, [], [], by simp, ?_, rfl⟩
    · rw [fresh.looks]
      trivial
    · rw [fresh.wants]
      intro m hm
      cases hm
    · rw [fresh.looks]
      intro r d hrd
      cases hrd
    · rw [fresh.looks]
      rfl
  | step before step ih =>
    obtain ⟨hbefore, hstep⟩ := noLoss_append.mp hl
    exact step.engaged hstep (ih hbefore)

end Running
end Netconf
