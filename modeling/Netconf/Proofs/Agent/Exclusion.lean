import Netconf.Proofs.Agent.Change
import Netconf.Proofs.Agent.Progress

/-! At most one subscription at a time. All copies of the slot of a session are one slot, which is
active exactly while the task of a subscription is alive, however tasks and requests follow each
other. -/
namespace Netconf

namespace Agent

variable {β ρ : Type} {a b : Agent FramedSession Delivery β ρ} {i j : Nat}

/-- A task is alive, and so holds the slot. -/
def AliveAt (a : Agent FramedSession Delivery β ρ) (i : Nat) : Prop :=
  ∃ stage, a.stage? i = some stage ∧ stage.isAlive = true

/-- The slot is active exactly if some task holds it, and no task but its holder is alive. -/
def SlotHeld (a : Agent FramedSession Delivery β ρ) : Prop :=
  ∃ holder : Option Nat, a.record.slot.active = holder.isSome ∧ ∀ i, a.AliveAt i ↔ holder = some i

theorem aliveAt_of_tasks (h : b.tasks = a.tasks) : b.AliveAt i ↔ a.AliveAt i := by
  rw [AliveAt, AliveAt, stage?_of_tasks h]

theorem aliveAt_of_stage {stage : Stage Delivery} (h : a.stage? i = some stage) :
    a.AliveAt i ↔ stage.isAlive = true := by
  simp [AliveAt, h]

theorem aliveAt_setStage {before after : Stage Delivery} (h : a.stage? i = some before)
    (htasks : b.tasks = (a.setStage i after).tasks) :
    b.AliveAt j ↔ if i = j then after.isAlive = true else a.AliveAt j := by
  rw [aliveAt_of_tasks htasks]
  by_cases hij : i = j
  · subst hij
    simp [AliveAt, h]
  · simp [AliveAt, hij]

theorem aliveAt_spawn {r : Rpc.Request} (h : b.tasks = a.tasks ++ [{ request := r }]) :
    b.AliveAt j ↔ a.AliveAt j ∨ a.tasks.length = j := by
  rw [AliveAt, AliveAt, stage?, stage?, h]
  by_cases hj : j < a.tasks.length
  · rw [List.getElem?_append_left hj]
    simp only [or_iff_left (Nat.ne_of_gt hj)]
  · have hnone : a.tasks[j]? = none := List.getElem?_eq_none (Nat.le_of_not_lt hj)
    rw [List.getElem?_append_right (Nat.le_of_not_lt hj), hnone]
    by_cases heq : a.tasks.length = j
    · subst heq
      simp [Stage.isAlive]
    · have hpos : j - a.tasks.length ≠ 0 := by omega
      simp [heq, hpos]

namespace SlotHeld

theorem of_noTasks (htasks : a.tasks = []) (hslot : a.record.slot.active = false) :
    SlotHeld a := by
  refine ⟨none, hslot, fun i => ?_⟩
  simp [AliveAt, stage?, htasks]

theorem active_iff (h : SlotHeld a) : a.record.slot.active = true ↔ ∃ i, a.AliveAt i := by
  obtain ⟨holder, hactive, halive⟩ := h
  rw [hactive]
  cases holder <;> simp [halive]

theorem eq_of_alive (h : SlotHeld a) (hi : a.AliveAt i) (hj : a.AliveAt j) : i = j := by
  obtain ⟨holder, -, halive⟩ := h
  have hij := ((halive i).mp hi).symm.trans ((halive j).mp hj)
  exact Option.some.inj hij

theorem vacant_iff (h : SlotHeld a) : a.record.slot.active = false ↔ ¬ ∃ i, a.AliveAt i := by
  rw [← h.active_iff, Bool.not_eq_true]

end SlotHeld
end Agent

namespace Running

variable {β ρ : Type} {start s t : Running β ρ} {hs : List Happening}

/-- While a task is alive it keeps the slot whatever it comes to. -/
theorem slotHeld_of_alive {i : Nat} {before after : Stage Delivery} (h : s.agent.SlotHeld)
    (hstage : s.agent.stage? i = some before) (hbefore : before.isAlive = true)
    (hafter : after.isAlive = true) (htasks : t.agent.tasks = (s.agent.setStage i after).tasks)
    (hslot : t.agent.record.slot = s.agent.record.slot) : t.agent.SlotHeld := by
  obtain ⟨holder, hactive, halive⟩ := h
  refine ⟨holder, by rw [hslot, hactive], fun j => ?_⟩
  rw [Agent.aliveAt_setStage hstage htasks, ← halive]
  split
  · next hij =>
    subst hij
    simp [Agent.aliveAt_of_stage hstage, hbefore, hafter]
  · rfl

/-- Nothing makes a second task alive, and the slot goes with its task. -/
theorem Shift.slotHeld {p : Party} (h : Shift s t p) (hs : s.agent.SlotHeld) :
    t.agent.SlotHeld := by
  cases h with
  | same htasks hslot =>
    obtain ⟨holder, hactive, halive⟩ := hs
    exact ⟨holder, by rw [hslot, hactive], fun j => by rw [Agent.aliveAt_of_tasks htasks, halive]⟩
  | spawn accepts htasks hslot =>
    refine ⟨some s.agent.tasks.length, by rw [hslot]; rfl, fun j => ?_⟩
    have hnone : ¬ s.agent.AliveAt j := fun hj => hs.vacant_iff.mp accepts.vacant ⟨j, hj⟩
    rw [Agent.aliveAt_spawn htasks, or_iff_right hnone, Option.some_inj]
  | release station task stage htasks hslot =>
    exact slotHeld_of_alive hs stage rfl rfl htasks hslot
  | withdraw stage htasks hslot => exact slotHeld_of_alive hs stage rfl rfl htasks hslot
  | deliver stage begun htasks hslot =>
    exact slotHeld_of_alive hs stage (Stage.isAlive_of_hasBegun begun) rfl htasks hslot
  | finish stage alive dead htasks hslot =>
    -- The task at its end is the one that holds the slot.
    obtain ⟨holder, hactive, halive⟩ := hs
    have hholder := (halive _).mp ((Agent.aliveAt_of_stage stage).mpr alive)
    refine ⟨none, by rw [hslot]; rfl, fun j => ?_⟩
    rw [Agent.aliveAt_setStage stage htasks, halive, hholder]
    split
    · simp [dead]
    · next hij => simpa using hij

variable [Backend.Server β] [Registry ρ]

/-- Tasks are started only in sessions that can be notified of events. -/
theorem Step.supported {l : List Happening} (h : Step s l t)
    (hs : s.agent.tasks ≠ [] → s.agent.session.capabilities.supportsNotifications = true)
    (ht : t.agent.tasks ≠ []) : t.agent.session.capabilities.supportsNotifications = true := by
  rw [h.terms.2.2]
  obtain ⟨p, hshift⟩ := h.shift
  have hnonempty : ∀ {i stage}, s.agent.stage? i = some stage → s.agent.tasks ≠ [] := by
    intro i stage hstage hnil
    simp [Agent.stage?, hnil] at hstage
  cases hshift with
  | same htasks hslot => exact hs (htasks ▸ ht)
  | spawn accepts htasks hslot => exact accepts.supported
  | release station task stage htasks hslot => exact hs (hnonempty stage)
  | withdraw stage htasks hslot => exact hs (hnonempty stage)
  | deliver stage begun htasks hslot => exact hs (hnonempty stage)
  | finish stage alive dead htasks hslot => exact hs (hnonempty stage)

theorem Execution.slotHeld (fresh : start.IsFresh) (run : Execution start hs s) :
    s.agent.SlotHeld := by
  induction run with
  | start => exact .of_noTasks fresh.noTasks fresh.slot
  | step before step ih =>
    obtain ⟨p, hshift⟩ := step.shift
    exact hshift.slotHeld ih

theorem Execution.supported (fresh : start.IsFresh) (run : Execution start hs s) :
    s.agent.tasks ≠ [] → s.agent.session.capabilities.supportsNotifications = true := by
  induction run with
  | start => exact fun h => absurd fresh.noTasks h
  | step before step ih => exact step.supported ih

/-- Whatever has happened, in whatever order: at most one task is alive, and the slot is active
exactly if one is. A subscription that is asked for then is refused and changes nothing; a refused
one never touches the slot or the tasks; and one is accepted, with a task of its own that holds the
slot, exactly if the session works and can be notified of events, the parameters are valid, a task
can be started and none is alive. -/
theorem subscription_exclusive (fresh : start.IsFresh) (run : Execution start hs s) :
    (∀ i j, s.agent.AliveAt i → s.agent.AliveAt j → i = j) ∧
    (s.agent.record.slot.active = true ↔ ∃ i, s.agent.AliveAt i) ∧
    ∀ r : Rpc.Request, r.operation = .createSubscription →
      ((∃ i, s.agent.AliveAt i) →
        s.agent.dispatch r = ({ reply := Agent.subscriptionActive }, s.agent) ∧
          Agent.subscriptionActive.errorList.map (·.tag) = [.operationFailed]) ∧
      ((s.agent.dispatch r).1.task = none →
        (s.agent.dispatch r).1.reply.isOk = false ∧
          (s.agent.dispatch r).2.tasks = s.agent.tasks ∧
          (s.agent.dispatch r).2.record.slot = s.agent.record.slot) ∧
      (s.agent.session.capabilities.supportsNotifications = true ∧
          s.agent.session.status = .working ∧ s.agent.IsValid r ∧ s.agent.canSpawn = true ∧
          (¬ ∃ i, s.agent.AliveAt i) ↔
        (s.agent.dispatch r).1 = { reply := .ok, task := some s.agent.tasks.length } ∧
          (s.agent.dispatch r).2.tasks = s.agent.tasks ++ [{ request := r }] ∧
          (s.agent.dispatch r).2.record.slot.active = true) := by
  have hheld := run.slotHeld fresh
  have hvacant := hheld.vacant_iff
  refine ⟨fun i j => hheld.eq_of_alive, hheld.active_iff, fun r hr => ⟨?_, ?_, ?_⟩⟩
  · intro halive
    -- That a task is alive tells that the session can be notified, which is asked first.
    have htasks : s.agent.tasks ≠ [] := by
      intro hnil
      obtain ⟨i, stage, hstage, -⟩ := halive
      simp [Agent.stage?, hnil] at hstage
    refine ⟨?_, rfl⟩
    rw [Agent.dispatch_of_asks hr]
    exact Agent.createSubscription_of_active (run.supported fresh htasks)
      (hheld.active_iff.mpr halive)
  · intro htask
    have hrefused : ¬ s.agent.Accepts r := by
      intro haccepts
      rw [Agent.dispatch_of_accepts haccepts] at htask
      cases htask
    obtain ⟨hreply, -, hagrees⟩ := Agent.createSubscription_of_not_accepts hr hrefused
    rw [Agent.dispatch_of_asks hr]
    exact ⟨hreply, hagrees.tasks, hagrees.slot⟩
  · constructor
    · rintro ⟨hsupported, hworks, hvalid, hspawn, hnone⟩
      rw [Agent.dispatch_of_accepts ⟨hr, hsupported, hworks, hvacant.mpr hnone, hvalid, hspawn⟩]
      exact ⟨rfl, rfl, rfl⟩
    · rintro ⟨hdispatch, -, -⟩
      have haccepts := Agent.accepts_of_task (congrArg Dispatch.task hdispatch)
      exact ⟨haccepts.supported, haccepts.works, haccepts.valid, haccepts.canSpawn,
        hvacant.mp haccepts.vacant⟩

/-- The client that has subscribed cannot subscribe again while its events are delivered. -/
theorem subscribed_exclusive : ∃ s d, s.agent.stage? 0 = some (.delivering d) ∧
    Execution (rehearsal subscribing (.event happened .silent)) (subscribed happened) s ∧
      s.agent.dispatch subscription = ({ reply := Agent.subscriptionActive }, s.agent) := by
  obtain ⟨s, d, run, hd⟩ := rehearsal_subscribed happened
  have hexclusive := subscription_exclusive (rehearsal_isFresh _ _) run
  exact ⟨s, d, hd, run, ((hexclusive.2.2 subscription rfl).1 ⟨0, _, hd, rfl⟩).1⟩

end Running
end Netconf
