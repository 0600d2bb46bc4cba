import Netconf.Proofs.Agent.Acceptance
import Netconf.Proofs.Agent.Running
import Netconf.Proofs.Session.Framed

/-! What a step of an agent at work can do to the agent's tasks and slot, and that writing is done
by none but the one who holds the writer. -/
namespace Netconf

namespace Agent

variable {β ρ : Type} {a : Agent FramedSession Delivery β ρ} {i : Nat}

/-- A task has nothing to say. -/
def QuietAt (a : Agent FramedSession Delivery β ρ) (i : Nat) : Prop :=
  ∀ d, a.stage? i = some (.delivering d) → (d.next a.session.tornDown a.now).isQuiet = true

theorem quietAt_or_loud (a : Agent FramedSession Delivery β ρ) (i : Nat) : a.QuietAt i ∨
    ∃ d, a.stage? i = some (.delivering d) ∧
      (d.next a.session.tornDown a.now).isQuiet = false := by
  by_cases h : ∃ d, a.stage? i = some (.delivering d) ∧
      (d.next a.session.tornDown a.now).isQuiet = false
  · exact .inr h
  · exact .inl fun d hd => eq_true_of_ne_false fun hloud => h ⟨d, hd, hloud⟩

/-- A step of a task with nothing to say. Unless nothing happens, the task was alive, and the step
has come to some progress; of the session it has changed the source at most. -/
theorem stepTask_of_quiet (h : a.QuietAt i) :
    (a.stepTask i).1 = a ∨ ∃ before source acts p, a.stage? i = some before ∧
      before.isAlive = true ∧ (before.hasBegun = true ∨ p = .ended 0) ∧
        (a.stepTask i).1 =
          ({ a with session := { a.session with source }, acts }.progress i p).1 := by
  unfold stepTask
  cases ht : a.tasks[i]? with
  | none => exact .inl rfl
  | some t =>
    have hstage : a.stage? i = some t.stage := by
      rw [stage?, ht]
      rfl
    cases hs : t.stage with
    | parked => exact .inl (by simp only [hs])
    | ended sent => exact .inl (by simp only [hs])
    | lost => exact .inl (by simp only [hs])
    | withdrawn =>
      refine .inr ⟨.withdrawn, a.session.source, a.acts, .ended 0, by rw [hstage, hs], rfl,
        .inr rfl, ?_⟩
      simp only [hs]
      rfl
    | released =>
      obtain ⟨source, hsource⟩ := a.session.subscribe_session a.now t.request
      refine .inr ⟨.released, source, a.acts ++ [.beganDelivery t.request],
        (a.session.subscribe a.now t.request).1, by rw [hstage, hs], rfl, .inl rfl, ?_⟩
      simp only [hs, Conversation.subscribe, hsource]
      rfl
    | delivering d =>
      have hsession := FramedSession.deliver_of_quiet (h d (by rw [hstage, hs]))
      refine .inr ⟨.delivering d, a.session.source, a.acts, (a.session.deliver a.now d).1,
        by rw [hstage, hs], rfl, .inl rfl, ?_⟩
      simp only [hs, Conversation.deliver, hsession]

end Agent

namespace Running

variable {β ρ : Type} {s t : Running β ρ}

/-- What a party can do to the tasks and the slot. The loop starts tasks, and releases or withdraws
those that have not begun; a task can do something to itself only. -/
inductive Shift (s t : Running β ρ) : Party → Prop
  | same {p : Party} (tasks : t.agent.tasks = s.agent.tasks)
      (slot : t.agent.record.slot = s.agent.record.slot) : Shift s t p
  | spawn {r : Rpc.Request} (accepts : s.agent.Accepts r)
      (tasks : t.agent.tasks = s.agent.tasks ++ [{ request := r }])
      (slot : t.agent.record.slot.active = true) : Shift s t .loop
  | release {r : Rpc.Request} {d : Dispatch} {i : Nat} (station : s.station = .recording r d)
      (task : d.task = some i) (stage : s.agent.stage? i = some .parked)
      (tasks : t.agent.tasks = (s.agent.setStage i .released).tasks)
      (slot : t.agent.record.slot = s.agent.record.slot) : Shift s t .loop
  | withdraw {i : Nat} (stage : s.agent.stage? i = some .parked)
      (tasks : t.agent.tasks = (s.agent.setStage i .withdrawn).tasks)
      (slot : t.agent.record.slot = s.agent.record.slot) : Shift s t .loop
  | deliver {i : Nat} {before : Stage Delivery} {d : Delivery}
      (stage : s.agent.stage? i = some before) (begun : before.hasBegun = true)
      (tasks : t.agent.tasks = (s.agent.setStage i (.delivering d)).tasks)
      (slot : t.agent.record.slot = s.agent.record.slot) : Shift s t (.task i)
  | finish {i : Nat} {before last : Stage Delivery} (stage : s.agent.stage? i = some before)
      (alive : before.isAlive = true) (dead : last.isAlive = false)
      (tasks : t.agent.tasks = (s.agent.setStage i last).tasks)
      (slot : t.agent.record.slot.active = false) : Shift s t (.task i)

theorem Shift.of_agrees {p : Party} (h : s.agent.Agrees t.agent) : Shift s t p :=
  .same h.tasks h.slot

/-- A delivery goes on as it is while its own task does nothing. -/
theorem Shift.stage_of_ne {p : Party} {i : Nat} {d : Delivery} (h : Shift s t p)
    (hp : p ≠ .task i) (hd : s.agent.stage? i = some (.delivering d)) :
    t.agent.stage? i = some (.delivering d) := by
  -- What the loop changes is parked, and what another task changes is that task.
  have hparked : ∀ {j}, s.agent.stage? j = some .parked → j ≠ i := by
    rintro j hj rfl
    rw [hj] at hd
    cases hd
  cases h with
  | same tasks slot => rw [Agent.stage?_of_tasks tasks, hd]
  | spawn accepts tasks slot => exact Agent.stage?_of_append tasks hd
  | release station task stage tasks slot => rw [Agent.stage?_of_ne tasks (hparked stage), hd]
  | withdraw stage tasks slot => rw [Agent.stage?_of_ne tasks (hparked stage), hd]
  | deliver stage begun tasks slot =>
    rw [Agent.stage?_of_ne tasks (fun heq => hp (by rw [heq])), hd]
  | finish stage alive dead tasks slot =>
    rw [Agent.stage?_of_ne tasks (fun heq => hp (by rw [heq])), hd]

/-- A task keeps its request. -/
theorem Shift.request? {p : Party} {i : Nat} {r : Rpc.Request} (h : Shift s t p)
    (hr : s.agent.request? i = some r) : t.agent.request? i = some r := by
  have hstage : ∀ {j stage}, t.agent.tasks = (s.agent.setStage j stage).tasks →
      t.agent.request? i = some r := by
    intro j stage htasks
    rw [Agent.request?_of_tasks htasks, Agent.request?_setStage, hr]
  cases h with
  | same tasks slot => rw [Agent.request?_of_tasks tasks, hr]
  | spawn accepts tasks slot => exact Agent.request?_of_append tasks hr
  | release station task stage tasks slot => exact hstage tasks
  | withdraw stage tasks slot => exact hstage tasks
  | deliver stage begun tasks slot => exact hstage tasks
  | finish stage alive dead tasks slot => exact hstage tasks

/-- The progress of a task that has begun, or that ends. -/
theorem Shift.of_progress {i : Nat} {before : Stage Delivery} {session : FramedSession}
    {acts : List Act} {p : Progress Delivery} (stage : s.agent.stage? i = some before)
    (alive : before.isAlive = true) (begun : before.hasBegun = true ∨ p = .ended 0)
    (h : t.agent = ({ s.agent with session, acts }.progress i p).1) : Shift s t (.task i) := by
  cases p with
  | going d =>
    have htasks : t.agent.tasks = (s.agent.setStage i (.delivering d)).tasks := by rw [h]; rfl
    exact .deliver stage (begun.resolve_right (by simp)) htasks (by rw [h]; rfl)
  | waiting d =>
    have htasks : t.agent.tasks = (s.agent.setStage i (.delivering d)).tasks := by rw [h]; rfl
    exact .deliver stage (begun.resolve_right (by simp)) htasks (by rw [h]; rfl)
  | ended sent =>
    have htasks : t.agent.tasks = (s.agent.setStage i (.ended sent)).tasks := by rw [h]; rfl
    exact .finish stage alive rfl htasks (by rw [h]; rfl)
  | failed =>
    have htasks : t.agent.tasks = (s.agent.setStage i .lost).tasks := by rw [h]; rfl
    exact .finish stage alive rfl htasks (by rw [h]; rfl)

theorem taskStep_of_quiet {i : Nat} (h : s.agent.QuietAt i) :
    s.taskStep i = ([], { s with agent := (s.agent.stepTask i).1 }) := by
  unfold taskStep
  split
  · next d hd =>
    have hquiet := h d hd
    split
    · next e rest hn => simp [hn, Delivery.Move.isQuiet] at hquiet
    · next hn => simp [hn, Delivery.Move.isQuiet] at hquiet
    · rfl
  · rfl

/-- A task with a message to write turns to it and does nothing else. -/
theorem taskStep_of_loud {i : Nat} {d : Delivery} (hd : s.agent.stage? i = some (.delivering d))
    (h : (d.next s.agent.session.tornDown s.agent.now).isQuiet = false) :
    ∃ m, s.taskStep i = s.want (.task i) m := by
  unfold taskStep
  simp only [hd]
  cases hn : d.next s.agent.session.tornDown s.agent.now with
  | wait => simp [hn, Delivery.Move.isQuiet] at h
  | stop => simp [hn, Delivery.Move.isQuiet] at h
  | pass rest => simp [hn, Delivery.Move.isQuiet] at h
  | notify e rest => exact ⟨.notification e, rfl⟩
  | complete => exact ⟨.completion s.agent.now, rfl⟩

/-- The step of a task is that of the agent's task, or leaves the agent alone. -/
theorem taskStep_agent (s : Running β ρ) (i : Nat) :
    (s.taskStep i).2.agent = s.agent ∨ (s.taskStep i).2.agent = (s.agent.stepTask i).1 := by
  obtain hquiet | ⟨d, hd, hloud⟩ := s.agent.quietAt_or_loud i
  · rw [taskStep_of_quiet hquiet]
    exact .inr rfl
  · obtain ⟨m, hm⟩ := taskStep_of_loud hd hloud
    rw [hm]
    exact .inl rfl

theorem taskStep_shift (s : Running β ρ) (i : Nat) : Shift s (s.taskStep i).2 (.task i) := by
  obtain hquiet | ⟨d, hd, hloud⟩ := s.agent.quietAt_or_loud i
  · rw [taskStep_of_quiet hquiet]
    obtain heq | ⟨before, source, acts, p, hstage, halive, hbegun, heq⟩ :=
      Agent.stepTask_of_quiet hquiet
    · exact .same (by rw [heq]) (by rw [heq])
    · exact .of_progress hstage halive hbegun heq
  · obtain ⟨m, hm⟩ := taskStep_of_loud hd hloud
    rw [hm]
    exact .same rfl rfl

/-- Going on after a message, a task has one event less to deliver, or is at its end. -/
theorem goOn_shift (p : Party) (m : Message) (s : Running β ρ) :
    Shift s ((s.quit p).goOn p m) p := by
  cases p with
  | loop =>
    unfold goOn
    dsimp only
    split <;> exact .same rfl rfl
  | task i =>
    unfold goOn
    dsimp only
    split
    · next d hd =>
      split
      · exact .deliver hd rfl rfl rfl
      · exact .finish hd rfl rfl rfl rfl
    · exact .same rfl rfl

theorem look_agent (s : Running β ρ) : s.look.agent = s.agent.look.2 := by
  unfold look
  split
  · next heq =>
    rw [heq]
    rfl
  · next heq =>
    rw [heq]
    rfl

theorem callOff_shift (h : t.agent = callOff s.agent) : Shift s t .loop := by
  unfold callOff at h
  split at h
  · next i hi =>
    unfold Agent.withdraw at h
    split at h
    · next hstage =>
      have htasks : t.agent.tasks = (s.agent.setStage i .withdrawn).tasks := by rw [h]
      exact .withdraw hstage htasks (by rw [h]; rfl)
    · exact .same (by rw [h]) (by rw [h])
  · exact .same (by rw [h]) (by rw [h])

/-- Letting the task of a request begin that has its reply. -/
theorem launch_shift [Registry ρ] {r : Rpc.Request} {d : Dispatch}
    (station : s.station = .recording r d)
    (h : t.agent = (s.agent.launch d).count r d.reply) : Shift s t .loop := by
  have hcount := Agent.Agrees.count r d.reply (s.agent.launch d)
  rw [← h] at hcount
  cases hd : d.task with
  | none =>
    have hlaunch : s.agent.launch d = s.agent := by rw [Agent.launch, hd]
    rw [hlaunch] at hcount
    exact .of_agrees hcount
  | some i =>
    have hrelease := (Agent.Agrees.launch hd s.agent).trans hcount
    have htasks := hrelease.tasks
    have hslot := hrelease.slot
    unfold Agent.release at htasks hslot
    split at htasks
    · next hstage =>
      simp only [hstage] at hslot
      exact .release station hd hstage htasks hslot
    · refine .same htasks ?_
      rw [hslot]
      split <;> rfl

variable [Backend.Server β]

theorem dispatch_shift (r : Rpc.Request) (s : Running β ρ) :
    Shift s (s.dispatch r).2 .loop := by
  by_cases h : s.agent.Accepts r
  · have hagent : (s.dispatch r).2.agent =
        (s.agent.did (.checked r)).spawn r { active := true } := by
      rw [dispatch, Agent.dispatch_of_accepts h]
      rfl
    exact .spawn h (by rw [hagent]; rfl) (by rw [hagent]; rfl)
  · have hsame := Agent.dispatch_of_not_accepts h
    exact .same hsame.2.1 hsame.2.2

variable [Registry ρ]

theorem heed_shift (r : Received) (s : Running β ρ) : Shift s (s.heed r) .loop := by
  by_cases h : ∃ q, r = .request q
  · obtain ⟨q, rfl⟩ := h
    exact .same rfl rfl
  · have hr : ∀ q, r ≠ .request q := fun q hq => h ⟨q, hq⟩
    have hagent : (s.heed r).agent = (s.agent.heed r).2 := by
      cases r with
      | request q => exact absurd rfl (hr q)
      | _ => rfl
    exact .of_agrees (by rw [hagent]; exact .heed hr _)

theorem loopStep_shift (s : Running β ρ) : Shift s s.loopStep.2 .loop := by
  unfold loopStep
  cases hs : s.station with
  | looking =>
    exact .of_agrees (by rw [look_agent]; exact .look _)
  | waiting =>
    have hagent : s.wait.agent.tasks = s.agent.tasks ∧
        s.wait.agent.record.slot = s.agent.record.slot := by
      unfold wait
      dsimp only
      split <;> exact ⟨rfl, rfl⟩
    exact .same hagent.1 hagent.2
  | receiving =>
    have hagent : s.receive.2.agent.tasks = s.agent.tasks ∧
        s.receive.2.agent.record.slot = s.agent.record.slot := by
      unfold receive
      dsimp only
      split <;> exact ⟨rfl, rfl⟩
    exact .same hagent.1 hagent.2
  | judging m =>
    have hagent : (s.judge m).2.agent = s.agent := by
      unfold judge
      split <;> rfl
    exact .same (by rw [hagent]) (by rw [hagent])
  | heeding r => exact heed_shift r s
  | dispatching r => exact dispatch_shift r s
  | replying r d =>
    have hagent : (s.reply r d).2.agent.tasks = s.agent.tasks ∧
        (s.reply r d).2.agent.record.slot = s.agent.record.slot := by
      unfold reply
      split <;> exact ⟨rfl, rfl⟩
    exact .same hagent.1 hagent.2
  | recording r d => exact launch_shift hs rfl
  | closing exit => exact .same rfl rfl
  | dismissing exit => exact callOff_shift rfl
  | leaving exit =>
    have h := Agent.Agrees.leave exit { s.agent with current := none }
    exact .same h.tasks h.slot
  | ended exit => exact .same rfl rfl

/-- In every step one party does something of that. -/
theorem Step.shift {l : List Happening} (h : Step s l t) : ∃ p, Shift s t p := by
  cases h with
  | loop free => exact ⟨_, loopStep_shift s⟩
  | task i free => exact ⟨_, taskStep_shift s i⟩
  | finish wanted held => exact ⟨_, goOn_shift _ _ s⟩
  | fail wanted => exact ⟨_, goOn_shift _ _ s⟩
  | perish stage alive dead => exact ⟨_, .finish stage alive dead rfl rfl⟩
  | feed more stage => exact ⟨_, .deliver stage rfl rfl rfl⟩
  | _ => exact ⟨.loop, .same rfl rfl⟩

/-! Sessions. -/

omit [Backend.Server β] [Registry ρ] in
/-- A task changes of the session the source at most. -/
theorem taskStep_session (s : Running β ρ) (i : Nat) :
    ∃ source, (s.taskStep i).2.agent.session = { s.agent.session with source } := by
  obtain hquiet | ⟨d, hd, hloud⟩ := s.agent.quietAt_or_loud i
  · rw [taskStep_of_quiet hquiet]
    obtain heq | ⟨before, source, acts, p, -, -, -, heq⟩ := Agent.stepTask_of_quiet hquiet
    · exact ⟨s.agent.session.source, by rw [heq]⟩
    · refine ⟨source, ?_⟩
      rw [heq]
      cases p <;> rfl
  · obtain ⟨m, hm⟩ := taskStep_of_loud hd hloud
    rw [hm]
    exact ⟨s.agent.session.source, rfl⟩

omit [Backend.Server β] [Registry ρ] in
theorem goOn_session (p : Party) (m : Message) (s : Running β ρ) :
    ((s.quit p).goOn p m).agent.session = s.agent.session := by
  cases p with
  | loop =>
    unfold goOn
    dsimp only
    split <;> rfl
  | task i =>
    unfold goOn
    dsimp only
    split
    · split <;> rfl
    · rfl

omit [Backend.Server β] [Registry ρ] in
/-- A task that goes on after its message leaves the loop where it stands. -/
theorem goOn_task_station (i : Nat) (m : Message) (s : Running β ρ) :
    (s.goOn (.task i) m).station = s.station := by
  unfold goOn
  dsimp only
  split
  · split <;> rfl
  · rfl

omit [Backend.Server β] [Registry ρ] in
theorem taskStep_station (s : Running β ρ) (i : Nat) :
    (s.taskStep i).2.station = s.station ∧ (s.taskStep i).2.wants .loop = s.wants .loop := by
  unfold taskStep
  split
  · split <;> simp [want]
  · simp

omit [Backend.Server β] [Registry ρ] in
/-- All that happens in the step of a task is that it turns to a message. -/
theorem mem_taskStep {i : Nat} {e : Happening} (h : e ∈ (s.taskStep i).1) :
    ∃ m, e = .turned (.task i) m := by
  obtain hquiet | ⟨d, hd, hloud⟩ := s.agent.quietAt_or_loud i
  · rw [taskStep_of_quiet hquiet] at h
    cases h
  · obtain ⟨m, hm⟩ := taskStep_of_loud hd hloud
    rw [hm] at h
    exact ⟨m, List.mem_singleton.mp h⟩

/-- What the step of the loop makes of the session. -/
def nextSession (s : Running β ρ) : FramedSession :=
  match s.station with
  | .waiting => s.agent.session.wait.2
  | .receiving => s.receive.2.agent.session
  | .dispatching r => (s.agent.dispatch r).2.session
  | .closing _ => s.agent.session.close
  | _ => s.agent.session

theorem loopStep_session (s : Running β ρ) : s.loopStep.2.agent.session = s.nextSession := by
  unfold loopStep nextSession
  cases hs : s.station with
  | looking =>
    dsimp only
    rw [look_agent, (Agent.Agrees.look s.agent).session]
  | waiting =>
    dsimp only [wait]
    split <;> rfl
  | receiving => rfl
  | judging m =>
    dsimp only [judge]
    split <;> rfl
  | heeding r =>
    cases r with
    | request q => rfl
    | _ => exact (Agent.Agrees.heed (by simp) s.agent).session
  | dispatching r => rfl
  | replying r d =>
    dsimp only [reply]
    split <;> rfl
  | recording r d =>
    have hlaunch : (s.agent.launch d).session = s.agent.session := by
      unfold Agent.launch
      split
      · unfold Agent.release
        split <;> rfl
      · rfl
    exact (Agent.Agrees.count r d.reply _).session.trans hlaunch
  | closing exit => rfl
  | dismissing exit =>
    dsimp only [callOff, Agent.withdraw]
    split
    · split <;> rfl
    · rfl
  | leaving exit => exact (Agent.Agrees.leave exit { s.agent with current := none }).session
  | ended exit => rfl

omit [Backend.Server β] [Registry ρ] in
theorem taskStep_alike (s : Running β ρ) (i : Nat) :
    s.agent.session.Alike (s.taskStep i).2.agent.session := by
  obtain ⟨source, h⟩ := s.taskStep_session i
  rw [h]
  exact ⟨rfl, rfl, rfl, rfl⟩

theorem loopStep_alike (s : Running β ρ) : s.agent.session.Alike s.loopStep.2.agent.session := by
  rw [loopStep_session]
  unfold nextSession
  split
  · exact .wait _
  · unfold receive
    dsimp only
    split <;> exact ⟨rfl, rfl, rfl, rfl⟩
  · next r _ =>
    obtain heq | heq := Agent.dispatch_session (a := s.agent) r <;> rw [heq]
    · exact .refl _
    · exact ⟨rfl, rfl, rfl, rfl⟩
  · exact .close _
  · exact .refl _

/-- The terms of the session never change. -/
theorem Step.terms {l : List Happening} (h : Step s l t) :
    t.agent.session.framing = s.agent.session.framing ∧
      t.agent.session.limit = s.agent.session.limit ∧
      t.agent.session.capabilities = s.agent.session.capabilities := by
  have hterms : ∀ {u : FramedSession}, s.agent.session.Alike u →
      u.framing = s.agent.session.framing ∧ u.limit = s.agent.session.limit ∧
        u.capabilities = s.agent.session.capabilities :=
    fun h => ⟨h.framing, h.limit, h.capabilities⟩
  cases h with
  | loop free => exact hterms (loopStep_alike s)
  | task i free => exact hterms (taskStep_alike s i)
  | finish wanted held => exact hterms (.of_eq (goOn_session _ _ s))
  | fail wanted => exact hterms (.of_eq (goOn_session _ _ s))
  | _ => exact ⟨rfl, rfl, rfl⟩

theorem Execution.terms {start : Running β ρ} {hs : List Happening} (run : Execution start hs s) :
    s.agent.session.framing = start.agent.session.framing ∧
      s.agent.session.limit = start.agent.session.limit ∧
      s.agent.session.capabilities = start.agent.session.capabilities := by
  induction run with
  | start => exact ⟨rfl, rfl, rfl⟩
  | step before step ih =>
    obtain ⟨hframing, hlimit, hcapabilities⟩ := step.terms
    exact ⟨hframing.trans ih.1, hlimit.trans ih.2.1, hcapabilities.trans ih.2.2⟩

end Running
end Netconf
