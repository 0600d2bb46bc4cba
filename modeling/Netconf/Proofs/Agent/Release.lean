import Netconf.Proofs.Agent.Exchange
import Netconf.Proofs.Agent.Progress
import Netconf.Proofs.Framing.Stream

/-! The release of a delivery. A task begins to deliver when the loop releases it, which it does
behind the reply that accepts the subscription. Whatever a delivery writes is behind that reply. -/
namespace Netconf

/-- The request that the loop replies to or has just replied to, and what it has come to. -/
def Station.reply? : Station → Option (Rpc.Request × Dispatch)
  | replying r d => some (r, d)
  | recording r d => some (r, d)
  | _ => none

namespace Running

variable {β ρ : Type} {start s t : Running β ρ} {hs l : List Happening}

/-- The subscription of a task has been accepted, and its client has been told so. -/
def Promised (hs : List Happening) (s : Running β ρ) (i : Nat) : Prop :=
  ∃ r, s.agent.request? i = some r ∧ r.operation = .createSubscription ∧
    .sent .loop (.reply r { reply := .ok, task := some i }) ∈ hs

/-- If the request that the loop replies to has started a task, the reply accepts the subscription
of the task. -/
def Grants (s : Running β ρ) : Prop :=
  ∀ r d i, s.station.reply? = some (r, d) → d.task = some i →
    s.agent.request? i = some r ∧ r.operation = .createSubscription ∧
      d = { reply := .ok, task := some i }

variable [Backend.Server β] [Registry ρ]

/-! The reply that accepts a subscription. -/

theorem loopStep_reply? (s : Running β ρ) : s.loopStep.2.station.reply? =
    match s.station with
    | .dispatching r => some (r, (s.agent.dispatch r).1)
    | .replying r d => some (r, d)
    | _ => none := by
  unfold loopStep
  cases hst : s.station with
  | looking =>
    dsimp only [look]
    split <;> rfl
  | waiting =>
    dsimp only [wait]
    split <;> rfl
  | receiving =>
    dsimp only [receive]
    split <;> rfl
  | judging m =>
    dsimp only [judge]
    split
    · rfl
    · rw [want, hst]
      rfl
  | heeding r =>
    cases r with
    | unknown =>
      dsimp only [heed, turned, goTo, Agent.heed, Agent.reject]
      split <;> rfl
    | _ => rfl
  | dispatching r => rfl
  | replying r d =>
    dsimp only [reply]
    split
    · rfl
    · rw [want, hst]
      rfl
  | ended exit =>
    dsimp only
    rw [hst]
    rfl
  | _ => rfl

omit [Backend.Server β] [Registry ρ] in
/-- Behind its reply the loop is still about the same request. -/
theorem goOn_reply? (p : Party) (m : Message) (s : Running β ρ) :
    ((s.quit p).goOn p m).station.reply? = s.station.reply? := by
  cases p with
  | loop =>
    unfold goOn
    dsimp only [quit]
    split
    · next hst =>
      rw [hst]
      rfl
    · next hst =>
      rw [hst]
      rfl
    · rfl
  | task i => rw [goOn_task_station, quit]

/-- The loop replies to what it has dispatched. -/
theorem Step.reply? {r : Rpc.Request} {d : Dispatch} (h : Step s l t)
    (hreply : t.station.reply? = some (r, d)) : s.station.reply? = some (r, d) ∨
      (s.agent.dispatch r).1 = d ∧ t.agent = (s.agent.dispatch r).2 := by
  cases h with
  | loop free =>
    rw [loopStep_reply?] at hreply
    cases hst : s.station with
    | dispatching q =>
      rw [hst] at hreply
      obtain ⟨rfl, rfl⟩ := Prod.mk.inj (Option.some.inj hreply)
      refine .inr ⟨rfl, ?_⟩
      rw [loopStep, hst]
      rfl
    | replying q e =>
      rw [hst] at hreply
      exact .inl hreply
    | _ =>
      rw [hst] at hreply
      cases hreply
  | task i free =>
    rw [(s.taskStep_station i).1] at hreply
    exact .inl hreply
  | finish wanted held =>
    rw [goOn_reply?] at hreply
    exact .inl hreply
  | fail wanted =>
    rw [goOn_reply?] at hreply
    exact .inl hreply
  | _ => exact .inl hreply

theorem Step.grants (h : Step s l t) (hg : Grants s) : Grants t := by
  intro r d i hreply htask
  obtain hbefore | ⟨hdispatch, hagent⟩ := h.reply? hreply
  · obtain ⟨hrequest, hasks, hd⟩ := hg r d i hbefore htask
    obtain ⟨p, hshift⟩ := h.shift
    exact ⟨hshift.request? hrequest, hasks, hd⟩
  · have haccepts := Agent.accepts_of_task (hdispatch ▸ htask)
    rw [Agent.dispatch_of_accepts haccepts] at hdispatch hagent
    have hi : s.agent.tasks.length = i := by
      rw [← hdispatch] at htask
      exact Option.some.inj htask
    refine ⟨?_, haccepts.asks, by rw [← hdispatch, hi]⟩
    rw [hagent, ← hi]
    simp [Agent.request?, Agent.spawn, Agent.did]

theorem Execution.grants (fresh : start.IsFresh) (run : Execution start hs s) : Grants s := by
  induction run with
  | start =>
    intro r d i hreply
    rw [fresh.looks] at hreply
    cases hreply
  | step before step ih => exact step.grants ih

/-! What a delivery writes. -/

omit [Backend.Server β] [Registry ρ] in
theorem Promised.of_shift {p : Party} {i : Nat} (h : Promised hs s i) (hshift : Shift s t p) :
    Promised hs t i := by
  obtain ⟨r, hr, hasks, hsent⟩ := h
  exact ⟨r, hshift.request? hr, hasks, hsent⟩

omit [Backend.Server β] [Registry ρ] in
theorem Promised.append {i : Nat} (h : Promised hs s i) (l : List Happening) :
    Promised (hs ++ l) s i := by
  obtain ⟨r, hr, hasks, hsent⟩ := h
  exact ⟨r, hr, hasks, List.mem_append_left l hsent⟩

/-- A task that has begun has been promised to the client. -/
theorem Step.promised (h : Step s l t) (hg : Grants s)
    (hanswered : ∀ r d, s.station = .recording r d → .sent .loop (.reply r d) ∈ hs)
    (hp : ∀ i stage, s.agent.stage? i = some stage → stage.hasBegun = true → Promised hs s i)
    (i : Nat) (stage : Stage Delivery) (hstage : t.agent.stage? i = some stage)
    (hbegun : stage.hasBegun = true) : Promised (hs ++ l) t i := by
  obtain ⟨p, hshift⟩ := h.shift
  have hkeep : s.agent.stage? i = some stage → Promised (hs ++ l) t i :=
    fun hbefore => ((hp i stage hbefore hbegun).of_shift hshift).append l
  cases hshift with
  | same tasks slot =>
    rw [Agent.stage?_of_tasks tasks] at hstage
    exact hkeep hstage
  | spawn accepts tasks slot =>
    obtain rfl | hsame := Agent.stage_of_spawn tasks hstage
    · cases hbegun
    · exact hkeep hsame
  | @release r d j station task before tasks slot =>
    -- The loop has the reply behind it, and the reply is the one that accepts this task's request.
    obtain ⟨rfl, rfl⟩ | hsame := Agent.stage_of_setStage before tasks hstage
    · obtain ⟨hrequest, hasks, hd⟩ := hg r d j (by rw [station]; rfl) task
      have hsent := hanswered r d station
      rw [hd] at hsent
      refine ⟨r, ?_, hasks, List.mem_append_left l hsent⟩
      rw [Agent.request?_of_tasks tasks, Agent.request?_setStage, hrequest]
    · exact hkeep hsame
  | withdraw before tasks slot =>
    obtain ⟨-, rfl⟩ | hsame := Agent.stage_of_setStage before tasks hstage
    · cases hbegun
    · exact hkeep hsame
  | deliver before begun tasks slot =>
    have hshift : Shift s t (.task _) := .deliver before begun tasks slot
    obtain ⟨rfl, -⟩ | hsame := Agent.stage_of_setStage before tasks hstage
    · exact ((hp _ _ before begun).of_shift hshift).append l
    · exact hkeep hsame
  | finish before alive dead tasks slot =>
    obtain ⟨-, rfl⟩ | hsame := Agent.stage_of_setStage before tasks hstage
    · rw [Stage.isAlive_of_hasBegun hbegun] at dead
      cases dead
    · exact hkeep hsame

theorem Execution.promised (fresh : start.IsFresh) (run : Execution start hs s) (hl : NoLoss hs) :
    ∀ i stage, s.agent.stage? i = some stage → stage.hasBegun = true → Promised hs s i := by
  induction run with
  | start =>
    intro i stage hstage
    simp [Agent.stage?, fresh.noTasks] at hstage
  | step before step ih =>
    obtain ⟨hbefore, -⟩ := noLoss_append.mp hl
    exact step.promised (before.grants fresh) (before.engaged fresh hbefore).answered (ih hbefore)

/-- Before a task has a message out the client has been told that its subscription is accepted. -/
theorem Execution.promised_of_sent (fresh : start.IsFresh) (run : Execution start hs s)
    (hl : NoLoss hs) {pre post : List Happening} {i : Nat} {m : Message}
    (hsent : hs = pre ++ .sent (.task i) m :: post) : Promised pre s i := by
  induction run generalizing post with
  | start => simp at hsent
  | step before step ih =>
    obtain ⟨hbefore, -⟩ := noLoss_append.mp hl
    obtain ⟨p, hshift⟩ := step.shift
    obtain ⟨more, hhs⟩ | ⟨rfl, hnow⟩ :=
      append_eq_append_cons hsent fun hm => (step.sent hm).1
    -- Either it has been out before, or the last step has put it out.
    · exact (ih hbefore hhs).of_shift hshift
    · obtain ⟨d, hd⟩ := before.delivers fresh i m (step.sent (by simp [hnow])).2
      exact (before.promised fresh hbefore i _ hd rfl).of_shift hshift

/-- Whatever the loop and the tasks have written in whatever order: on the stream are whole frames
one behind the other, and behind them the part of a frame that whoever holds the writer has got
out. A client that reads them gets the messages that are out; those of each party are in the order
in which it has turned to them, but for one that it is still about or that a task has kept at its
end. No message of a task is before the reply that accepts its subscription. -/
theorem frames_interleaved (limit : Nat) (fresh : start.IsFresh) (run : Execution start hs s)
    (whole : NoLoss hs)
    (carried : ∀ m ∈ sentMessages hs, start.agent.session.framing.Carries limit m.payload) :
    (∃ part, s.written = start.written ++ (sentMessages hs).flatMap start.frame ++ part ∧
      s.HasWritten part) ∧
    start.agent.session.framing.Reads limit
      (.ofBytes ((sentMessages hs).flatMap start.frame) .closed)
      ((sentMessages hs).map Message.payload) .closed ∧
    (∀ p, InOrder hs s p) ∧
    ∀ pre i m post, hs = pre ++ .sent (.task i) m :: post →
      ∃ r, s.agent.request? i = some r ∧ r.operation = .createSubscription ∧
        .sent .loop (.reply r { reply := .ok, task := some i }) ∈ pre := by
  have hwire := run.wire fresh whole
  refine ⟨hwire.written, ?_, run.inOrder fresh whole, ?_⟩
  · have hcarried : ∀ p ∈ (sentMessages hs).map Message.payload,
        start.agent.session.framing.Carries limit p := by
      intro p hp
      obtain ⟨m, hm, rfl⟩ := List.mem_map.mp hp
      exact carried m hm
    have hreads := Framing.reads_frames hcarried .closed
    rw [List.flatMap_map] at hreads
    exact hreads
  · intro pre i m post hsent
    exact run.promised_of_sent fresh whole hsent

/-- The client that has subscribed reads the reply first and then the event. -/
theorem subscribed_interleaved :
    ∃ s : Running Rehearsal.Server MemoryRegistry, ∃ part, s.HasWritten part ∧
      s.written = (sentMessages (subscribed happened)).flatMap
        (rehearsal subscribing (.event happened .silent)).frame ++ part ∧
      Framing.endOfMessage.Reads Framing.defaultLimit
        (.ofBytes ((sentMessages (subscribed happened)).flatMap
          (rehearsal subscribing (.event happened .silent)).frame) .closed)
        [(Message.reply subscription { reply := .ok, task := some 0 }).payload,
          (Message.notification happened).payload] .closed ∧
      ∃ r, s.agent.request? 0 = some r ∧ r.operation = .createSubscription := by
  obtain ⟨s, d, run, hd⟩ := rehearsal_subscribed happened
  have hwhole : NoLoss (subscribed happened) := by
    simp [NoLoss, subscribed, Happening.isLoss]
  have hreply : Framing.endOfMessage.Carries Framing.defaultLimit
      (Message.reply subscription { reply := .ok, task := some 0 }).payload := by decide +kernel
  have hevent : Framing.endOfMessage.Carries Framing.defaultLimit
      (Message.notification happened).payload := by decide +kernel
  have hcarried : ∀ m ∈ sentMessages (subscribed happened),
      Framing.endOfMessage.Carries Framing.defaultLimit m.payload := by
    intro m hm
    simp only [sentMessages, subscribed, List.filterMap_cons, Happening.sent?, List.filterMap_nil,
      List.mem_cons, List.not_mem_nil, or_false] at hm
    obtain rfl | rfl := hm
    · exact hreply
    · exact hevent
  obtain ⟨⟨part, hwritten, hpart⟩, hreads, -, hpromised⟩ :=
    frames_interleaved _ (rehearsal_isFresh _ _) run hwhole hcarried
  obtain ⟨r, hr, hasks, -⟩ :=
    hpromised (subscribed happened).dropLast 0 (.notification happened) [] rfl
  exact ⟨s, part, hpart, hwritten, hreads, r, hr, hasks⟩

end Running
end Netconf
