import Netconf.Proofs.Agent.Change
import Netconf.Proofs.Framing.Stream

/-! What the loop takes from its client: message after message of all that the client has sent so
far, up to a message in no proper frame, which is the last thing it reads. -/
namespace Netconf

def Happening.taken? : Happening → Option Bytes
  | took m => some m
  | _ => none

/-- What has come in from a client, behind something that had come before. -/
def Happening.arrive (input : Incoming) : Happening → Incoming
  | arrived more => input.append more
  | _ => input

/-- Whether something has to do with what comes from the client. -/
def Happening.isIntake : Happening → Bool
  | took _ => true
  | arrived _ => true
  | _ => false

def takenMessages (hs : List Happening) : List Bytes := hs.filterMap Happening.taken?

/-- All that the client has sent, behind what it had sent before. -/
def allArrived (input : Incoming) (hs : List Happening) : Incoming :=
  hs.foldl Happening.arrive input

@[simp] theorem takenMessages_append (hs l : List Happening) :
    takenMessages (hs ++ l) = takenMessages hs ++ takenMessages l := List.filterMap_append

@[simp] theorem allArrived_append (input : Incoming) (hs l : List Happening) :
    allArrived input (hs ++ l) = allArrived (allArrived input hs) l := List.foldl_append

theorem takenMessages_of_not_intake {l : List Happening} (h : ∀ e ∈ l, e.isIntake = false) :
    takenMessages l = [] := by
  rw [takenMessages, List.filterMap_eq_nil_iff]
  intro e he
  have hi := h e he
  cases e <;> first | rfl | cases hi

theorem allArrived_of_not_arrived {l : List Happening} (h : ∀ more, .arrived more ∉ l)
    (input : Incoming) : allArrived input l = input := by
  induction l with
  | nil => rfl
  | cons e l ih =>
    have hl := ih fun more hmore => h more (List.mem_cons_of_mem e hmore)
    cases e with
    | arrived more => exact absurd List.mem_cons_self (h more)
    | _ => exact hl

theorem allArrived_of_not_intake {l : List Happening} (h : ∀ e ∈ l, e.isIntake = false)
    (input : Incoming) : allArrived input l = input := by
  apply allArrived_of_not_arrived
  intro more hmore
  cases h _ hmore

namespace Running

variable {β ρ : Type} {start s t : Running β ρ} {hs l : List Happening}

/-- The loop reads no more. -/
def ReadsNoMore (s : Running β ρ) : Prop :=
  match s.station with
  | .heeding .hungUp => True
  | .heeding .unknown => s.agent.session.status = .terminated
  | .closing _ => True
  | .dismissing _ => True
  | .leaving _ => True
  | .ended _ => True
  | _ => False

/-- What the loop has taken, and what is left: all that comes behind, or, where the loop has met a
message in no proper frame, what comes behind that. -/
def Intake (start : Running β ρ) (hs : List Happening) (s : Running β ρ) : Prop :=
  ∃ left, start.agent.session.framing.Takes start.agent.session.limit
      (allArrived start.agent.session.input hs) (takenMessages hs) left ∧
    (s.agent.session.input = left ∨
      (∃ e, start.agent.session.framing.read start.agent.session.limit left =
        (.failure e, s.agent.session.input)) ∧ s.ReadsNoMore)

namespace Intake

/-- A step that has nothing to do with what comes from the client. -/
theorem of_same (h : Intake start hs s) (hl : ∀ e ∈ l, e.isIntake = false)
    (hinput : t.agent.session.input = s.agent.session.input)
    (hlast : s.ReadsNoMore → t.ReadsNoMore) : Intake start (hs ++ l) t := by
  obtain ⟨left, htakes, hleft⟩ := h
  refine ⟨left, ?_, ?_⟩
  · rw [takenMessages_append, takenMessages_of_not_intake hl, List.append_nil, allArrived_append,
      allArrived_of_not_intake hl]
    exact htakes
  · rw [hinput]
    obtain hsame | ⟨hfailure, hmore⟩ := hleft
    · exact .inl hsame
    · exact .inr ⟨hfailure, hlast hmore⟩

theorem of_reading (h : Intake start hs s) (hreads : ¬ s.ReadsNoMore)
    (hl : ∀ e ∈ l, e.isIntake = false)
    (hinput : t.agent.session.input = s.agent.session.input) : Intake start (hs ++ l) t :=
  h.of_same hl hinput fun hlast => absurd hlast hreads

/-- While the loop still reads, everything that is left is still to be read. -/
theorem of_reads (h : Intake start hs s) (hreads : ¬ s.ReadsNoMore) :
    start.agent.session.framing.Takes start.agent.session.limit
      (allArrived start.agent.session.input hs) (takenMessages hs) s.agent.session.input := by
  obtain ⟨left, htakes, hleft⟩ := h
  obtain hsame | ⟨-, hmore⟩ := hleft
  · rw [hsame]
    exact htakes
  · exact absurd hmore hreads

theorem arrive (h : Intake start hs s) (more : Incoming) :
    Intake start (hs ++ [.arrived more])
      { s with agent.session.input := s.agent.session.input.append more } := by
  obtain ⟨left, htakes, hleft⟩ := h
  refine ⟨left.append more, ?_, ?_⟩
  · have hmore := htakes.append more
    rw [← List.append_nil (takenMessages hs)] at hmore
    rw [takenMessages_append, allArrived_append]
    exact hmore
  · obtain hsame | ⟨⟨e, hfailure⟩, hmore⟩ := hleft
    · exact .inl (congrArg (·.append more) hsame)
    -- The reader has failed before it has come to what is new.
    · exact .inr ⟨⟨e, Framing.read_append more hfailure (by simp)⟩, hmore⟩

end Intake

theorem readsNoMore_of_same (hstation : t.station = s.station)
    (hstatus : t.agent.session.status = s.agent.session.status) (h : s.ReadsNoMore) :
    t.ReadsNoMore := by
  unfold ReadsNoMore at h ⊢
  rw [hstation, hstatus]
  exact h

theorem receive_intake (h : Intake start hs s) (hstation : s.station = .receiving)
    (hframing : s.agent.session.framing = start.agent.session.framing)
    (hlimit : s.agent.session.limit = start.agent.session.limit) :
    Intake start (hs ++ s.receive.1) s.receive.2 := by
  have htakes := h.of_reads (by simp [ReadsNoMore, hstation])
  unfold receive
  dsimp only
  rw [hframing, hlimit]
  split
  · next m rest heq =>
    refine ⟨rest, ?_, .inl rfl⟩
    rw [takenMessages_append, allArrived_append]
    exact htakes.take heq
  · next rest heq =>
    refine ⟨s.agent.session.input, ?_, .inr ⟨⟨.closed, heq⟩, trivial⟩⟩
    rw [List.append_nil]
    exact htakes
  · next e rest _ heq =>
    refine ⟨s.agent.session.input, ?_, .inr ⟨⟨e, heq⟩, rfl⟩⟩
    rw [List.append_nil]
    exact htakes
  · refine ⟨s.agent.session.input, ?_, .inl rfl⟩
    rw [List.append_nil]
    exact htakes

variable [Backend.Server β]

theorem wait_intake (h : Intake start hs s) (hstation : s.station = .waiting) :
    Intake start (hs ++ []) s.wait := by
  have htakes := h.of_reads (by simp [ReadsNoMore, hstation])
  have hagent : s.wait.agent.session.input = s.agent.session.wait.2.input := by
    unfold wait
    dsimp only
    split <;> rfl
  rw [List.append_nil]
  refine ⟨s.agent.session.wait.2.input, ?_, .inl hagent⟩
  unfold FramedSession.wait
  split
  · exact htakes
  · split
    · exact htakes
    · exact htakes
    · exact htakes
    · next rest heq => exact htakes.pass heq
    · next f rest _ heq => exact htakes.pass heq

variable [Registry ρ]

/-- Once the loop reads no more it goes on to its end. -/
theorem heed_readsNoMore {r : Received} (hstation : s.station = .heeding r) (h : s.ReadsNoMore) :
    (s.heed r).ReadsNoMore := by
  unfold ReadsNoMore at h
  rw [hstation] at h
  cases r with
  | nothing => exact h.elim
  | request q => exact h.elim
  | hungUp => trivial
  | unknown =>
    have hstatus : s.agent.session.status = .terminated := h
    have hnot : Conversation.status (s.agent.did (.received .unknown)).session ≠ .working := by
      rw [show Conversation.status (s.agent.did (.received .unknown)).session = .terminated from
        hstatus]
      simp
    have hends : (s.heed .unknown).station = .closing (.fatal .unusable) :=
      congrArg Turn.station (Agent.reject_of_ended hnot)
    unfold ReadsNoMore
    rw [hends]
    trivial

theorem loopStep_intake (h : Intake start hs s)
    (hframing : s.agent.session.framing = start.agent.session.framing)
    (hlimit : s.agent.session.limit = start.agent.session.limit) :
    Intake start (hs ++ s.loopStep.1) s.loopStep.2 := by
  have hsession := s.loopStep_session
  unfold nextSession at hsession
  unfold loopStep at hsession ⊢
  cases hst : s.station with
  | looking =>
    rw [hst] at hsession
    exact h.of_reading (by simp [ReadsNoMore, hst]) (by simp) (by rw [hsession])
  | waiting => exact wait_intake h hst
  | receiving => exact receive_intake h hst hframing hlimit
  | judging m =>
    rw [hst] at hsession
    refine h.of_reading (by simp [ReadsNoMore, hst]) ?_ (by rw [hsession])
    dsimp only [judge]
    split <;> simp [want, Happening.isIntake]
  | heeding r =>
    rw [hst] at hsession
    exact h.of_same (by simp) (by rw [hsession]) (heed_readsNoMore hst)
  | dispatching r =>
    have hinput : (s.agent.dispatch r).2.session.input = s.agent.session.input := by
      obtain heq | heq := Agent.dispatch_session (a := s.agent) r <;> rw [heq]
    exact h.of_reading (by simp [ReadsNoMore, hst]) (by simp [dispatch, Happening.isIntake]) hinput
  | replying r d =>
    rw [hst] at hsession
    refine h.of_reading (by simp [ReadsNoMore, hst]) ?_ (by rw [hsession])
    dsimp only [reply]
    split <;> simp [want, Happening.isIntake]
  | recording r d =>
    rw [hst] at hsession
    exact h.of_reading (by simp [ReadsNoMore, hst]) (by simp) (by rw [hsession])
  | closing exit =>
    rw [hst] at hsession
    exact h.of_same (by simp) (by rw [hsession]; rfl) fun _ => trivial
  | dismissing exit =>
    rw [hst] at hsession
    exact h.of_same (by simp) (by rw [hsession]) fun _ => trivial
  | leaving exit =>
    rw [hst] at hsession
    exact h.of_same (by simp) (by rw [hsession]) fun _ => trivial
  | ended exit => exact h.of_same (by simp) rfl fun hlast => hlast

omit [Backend.Server β] [Registry ρ] in
theorem taskStep_intake (h : Intake start hs s) (i : Nat) :
    Intake start (hs ++ (s.taskStep i).1) (s.taskStep i).2 := by
  obtain ⟨source, hsession⟩ := s.taskStep_session i
  refine h.of_same ?_ (by rw [hsession])
    (readsNoMore_of_same (s.taskStep_station i).1 (by rw [hsession]))
  intro e he
  obtain ⟨m, rfl⟩ := mem_taskStep he
  rfl

omit [Backend.Server β] [Registry ρ] in
/-- Going on after a message, the loop still reads, or it reads no more than before. -/
theorem goOn_readsNoMore (p : Party) (m : Message) (h : s.ReadsNoMore) :
    ((s.quit p).goOn p m).ReadsNoMore := by
  refine readsNoMore_of_same ?_ (by rw [goOn_session]) h
  unfold ReadsNoMore at h
  cases p with
  | loop =>
    unfold goOn
    dsimp only [quit]
    split
    · next hst =>
      rw [hst] at h
      exact h.elim
    · next hst =>
      rw [hst] at h
      exact h.elim
    · rfl
  | task i => exact goOn_task_station i m _

theorem Step.intake (h : Step s l t) (hi : Intake start hs s)
    (hframing : s.agent.session.framing = start.agent.session.framing)
    (hlimit : s.agent.session.limit = start.agent.session.limit) : Intake start (hs ++ l) t := by
  cases h with
  | loop free => exact loopStep_intake hi hframing hlimit
  | task i free => exact taskStep_intake hi i
  | acquire wanted free => exact hi.of_same (by simp) rfl id
  | write held => exact hi.of_same (by simp) rfl id
  | @finish p m wanted held =>
    exact hi.of_same (by simp [Happening.isIntake]) (by rw [goOn_session]) (goOn_readsNoMore p m)
  | @fail m wanted =>
    exact hi.of_same (by simp [Happening.isIntake]) (by rw [goOn_session])
      (goOn_readsNoMore .loop m)
  | perish stage alive dead =>
    refine hi.of_same ?_ rfl id
    split <;> simp [Happening.isIntake]
  | arrive more => exact hi.arrive more
  | feed more stage => exact hi.of_same (by simp) rfl id
  | tick now => exact hi.of_same (by simp) rfl id
  | ask => exact hi.of_same (by simp) rfl id
  | serve server => exact hi.of_same (by simp) rfl id
  | enable canSpawn => exact hi.of_same (by simp) rfl id

theorem Execution.intake (run : Execution start hs s) : Intake start hs s := by
  induction run with
  | start => exact ⟨start.agent.session.input, .nil _, .inl rfl⟩
  | step before step ih =>
    obtain ⟨hframing, hlimit, -⟩ := before.terms
    exact step.intake ih hframing hlimit

end Running
end Netconf
