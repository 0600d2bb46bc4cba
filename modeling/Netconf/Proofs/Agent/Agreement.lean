import Netconf.Agent.Loop

/-! What the parts of an agent's work leave alone. Most of them touch neither the session nor the
tasks nor the slot, but only write into books: the record, the registry, the journal. The others
change the stage of one task, or start one. -/
namespace Netconf

/-- Whether a task at a stage has begun to deliver, or is about to. -/
def Stage.hasBegun {δ : Type} : Stage δ → Bool
  | .released => true
  | .delivering _ => true
  | _ => false

theorem Stage.isAlive_of_hasBegun {δ : Type} {stage : Stage δ} (h : stage.hasBegun = true) :
    stage.isAlive = true := by
  cases stage <;> first | rfl | cases h

namespace Agent

variable {σ δ β ρ : Type}

/-- Two agents that agree in their sessions, their tasks and their slots. -/
structure Agrees (a b : Agent σ δ β ρ) : Prop where
  session : b.session = a.session
  tasks : b.tasks = a.tasks
  slot : b.record.slot = a.record.slot

namespace Agrees

variable {a b c : Agent σ δ β ρ}

theorem refl (a : Agent σ δ β ρ) : Agrees a a := ⟨rfl, rfl, rfl⟩

theorem trans (hab : Agrees a b) (hbc : Agrees b c) : Agrees a c :=
  ⟨hbc.session.trans hab.session, hbc.tasks.trans hab.tasks, hbc.slot.trans hab.slot⟩

theorem did (act : Act) (a : Agent σ δ β ρ) : Agrees a (a.did act) := ⟨rfl, rfl, rfl⟩

theorem note {entry : SessionRecord × SessionEvent} (h : entry.1.slot = a.record.slot) :
    Agrees a (a.note entry) := ⟨rfl, rfl, h⟩

theorem publish [Registry ρ] (a : Agent σ δ β ρ) : Agrees a a.publish := ⟨rfl, rfl, rfl⟩

theorem look [Conversation σ δ] (a : Agent σ δ β ρ) : Agrees a a.look.2 := by
  have h : (a.record.observe (Conversation.status a.session)).slot = a.record.slot := by
    rw [SessionRecord.observe]
    split <;> rfl
  unfold Agent.look
  split
  · exact refl a
  · dsimp only
    split <;> exact ⟨rfl, rfl, h⟩

theorem hangUp [Conversation σ δ] [Backend.Server β] (a : Agent σ δ β ρ) : Agrees a a.hangUp.2 :=
  ⟨rfl, rfl, rfl⟩

theorem reject [Conversation σ δ] [Registry ρ] (a : Agent σ δ β ρ) : Agrees a a.reject.2 := by
  have h : Agrees a (a.note a.record.rejected).publish := (note rfl).trans (publish _)
  unfold Agent.reject
  dsimp only
  split <;> exact h

theorem count [Registry ρ] (r : Rpc.Request) (reply : Rpc.Reply) (a : Agent σ δ β ρ) :
    Agrees a (a.count r reply) := by
  unfold Agent.count
  split
  · next entry h =>
    have hslot : entry.1.slot = a.record.slot := by
      unfold SessionRecord.handled at h
      split at h
      · exact absurd h (by simp)
      · rw [← Except.ok.inj h]
    exact (note hslot).trans (publish _)
  · exact publish a

/-- Letting a task begin that a request has started. -/
theorem launch {d : Dispatch} {i : Nat} (h : d.task = some i) (a : Agent σ δ β ρ) :
    Agrees (a.release i) (a.launch d) := by
  have hslot : a.record.slot = (a.release i).record.slot := by
    unfold Agent.release
    split <;> rfl
  rw [Agent.launch, h]
  exact ⟨rfl, rfl, hslot⟩

/-- Taking note of anything but a request. -/
theorem heed [Conversation σ δ] [Backend.Server β] [Registry ρ] {r : Received}
    (h : ∀ q, r ≠ .request q) (a : Agent σ δ β ρ) : Agrees a (a.heed r).2 := by
  cases r with
  | nothing => exact did _ a
  | unknown => exact (did _ a).trans (reject _)
  | hungUp => exact (did _ a).trans (hangUp _)
  | request q => exact absurd rfl (h q)

theorem leave [Registry ρ] (exit : Exit) (a : Agent σ δ β ρ) : Agrees a (a.leave exit) := by
  unfold Agent.leave
  dsimp only
  split
  · next entry h =>
    have hslot : entry.1.slot = a.record.slot := by
      unfold SessionRecord.close at h
      split at h
      · exact absurd h (by simp)
      · rw [← Except.ok.inj h]
        rfl
    exact ⟨rfl, rfl, hslot⟩
  · exact ⟨rfl, rfl, rfl⟩

end Agrees

/-- A message that is no request is the end of a session that has ended. -/
theorem reject_of_ended [Conversation σ δ] [Registry ρ] {a : Agent σ δ β ρ}
    (h : Conversation.status a.session ≠ .working) :
    a.reject.1 = .stop (.fatal .unusable) := by
  unfold reject
  dsimp only
  rw [if_neg]
  exact h

/-! Stages of tasks, and their requests. -/

/-- The request of a task. -/
def request? (a : Agent σ δ β ρ) (i : Nat) : Option Rpc.Request := a.tasks[i]?.map (·.request)

@[simp] theorem request?_setStage (i j : Nat) (stage : Stage δ) (a : Agent σ δ β ρ) :
    (a.setStage i stage).request? j = a.request? j := by
  simp only [request?, setStage, List.getElem?_modify]
  split <;> cases a.tasks[j]? <;> simp_all

theorem request?_of_tasks {a b : Agent σ δ β ρ} (h : b.tasks = a.tasks) (i : Nat) :
    b.request? i = a.request? i := by
  rw [request?, h, request?]

@[simp] theorem stage?_setStage (i j : Nat) (stage : Stage δ) (a : Agent σ δ β ρ) :
    (a.setStage i stage).stage? j =
      if i = j then (a.stage? j).map fun _ => stage else a.stage? j := by
  simp only [stage?, setStage, List.getElem?_modify]
  split <;> cases a.tasks[j]? <;> simp_all

theorem stage?_of_tasks {a b : Agent σ δ β ρ} (h : b.tasks = a.tasks) (i : Nat) :
    b.stage? i = a.stage? i := by
  rw [stage?, h, stage?]

variable {a b : Agent σ δ β ρ} {i j : Nat} {before after stage : Stage δ}

theorem stage?_of_ne (htasks : b.tasks = (a.setStage i after).tasks) (hij : i ≠ j) :
    b.stage? j = a.stage? j := by
  rw [stage?_of_tasks htasks, stage?_setStage, if_neg hij]

/-- When a task has been brought to a stage, it is there, and the others are where they were. -/
theorem stage_of_setStage (hbefore : a.stage? i = some before)
    (htasks : b.tasks = (a.setStage i after).tasks) (h : b.stage? j = some stage) :
    (i = j ∧ stage = after) ∨ a.stage? j = some stage := by
  by_cases hij : i = j
  · subst hij
    rw [stage?_of_tasks htasks, stage?_setStage, if_pos rfl, hbefore] at h
    exact .inl ⟨rfl, (Option.some.inj h).symm⟩
  · rw [stage?_of_ne htasks hij] at h
    exact .inr h

/-- When a task has been started, it is parked, and the others are where they were. -/
theorem stage_of_spawn {r : Rpc.Request} (htasks : b.tasks = a.tasks ++ [{ request := r }])
    (h : b.stage? j = some stage) : stage = .parked ∨ a.stage? j = some stage := by
  rw [stage?, htasks] at h
  by_cases hj : j < a.tasks.length
  · rw [List.getElem?_append_left hj] at h
    exact .inr h
  · rw [List.getElem?_append_right (Nat.le_of_not_lt hj), List.getElem?_singleton] at h
    split at h
    · exact .inl (Option.some.inj h).symm
    · cases h

theorem map_getElem?_append {α γ : Type} {f : α → γ} {xs : List α} {y : γ}
    (h : xs[i]?.map f = some y) (ys : List α) : (xs ++ ys)[i]?.map f = some y := by
  obtain ⟨x, hx, -⟩ := Option.map_eq_some_iff.mp h
  obtain ⟨hi, -⟩ := List.getElem?_eq_some_iff.mp hx
  rw [List.getElem?_append_left hi]
  exact h

theorem stage?_of_append {ts : List (DeliveryTask δ)} (htasks : b.tasks = a.tasks ++ ts)
    (h : a.stage? i = some stage) : b.stage? i = some stage := by
  rw [stage?, htasks]
  exact map_getElem?_append h ts

theorem request?_of_append {r : Rpc.Request} {ts : List (DeliveryTask δ)}
    (htasks : b.tasks = a.tasks ++ ts) (h : a.request? i = some r) : b.request? i = some r := by
  rw [request?, htasks]
  exact map_getElem?_append h ts

end Agent
end Netconf
