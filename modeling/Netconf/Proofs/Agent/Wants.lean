import Netconf.Proofs.Agent.Change

/-! What the parties have to write. It changes where a party turns to a message or is done with one,
and nowhere else. A task that has something to write is delivering, and one that has come to its
end never writes again. -/
namespace Netconf

/-- Whether something has to do with writing. -/
def Happening.isWriting : Happening → Bool
  | turned _ _ => true
  | sent _ _ => true
  | broke _ => true
  | _ => false

namespace Running

variable {β ρ : Type} {start s t : Running β ρ} {hs l : List Happening}

/-- A task that has something to write is delivering. -/
def Delivers (s : Running β ρ) : Prop :=
  ∀ i m, s.wants (.task i) = some m → ∃ d, s.agent.stage? i = some (.delivering d)

/-- A task has come to its end. -/
def DeadAt (s : Running β ρ) (i : Nat) : Prop :=
  ∃ stage, s.agent.stage? i = some stage ∧ stage.isAlive = false

theorem goOn_wants (p : Party) (m : Message) (s : Running β ρ) :
    (s.goOn p m).wants = s.wants ∧ (s.goOn p m).writer = s.writer := by
  cases p with
  | loop =>
    unfold goOn
    dsimp only
    split <;> exact ⟨rfl, rfl⟩
  | task i =>
    unfold goOn
    dsimp only
    split
    · split <;> exact ⟨rfl, rfl⟩
    · exact ⟨rfl, rfl⟩

/-- The step of a task is the turn to a message, or has nothing to do with writing. -/
theorem taskStep_writing (s : Running β ρ) (i : Nat) :
    (∃ m, s.taskStep i = s.want (.task i) m) ∨
      (s.taskStep i).1 = [] ∧ (s.taskStep i).2.wants = s.wants ∧
        (s.taskStep i).2.writer = s.writer := by
  obtain hquiet | ⟨d, hd, hloud⟩ := s.agent.quietAt_or_loud i
  · rw [taskStep_of_quiet hquiet]
    exact .inr ⟨rfl, rfl, rfl⟩
  · exact .inl (taskStep_of_loud hd hloud)

/-- Whoever writes for a task that goes on is the task itself. -/
theorem Delivers.of_shift {p : Party} (h : Delivers s) (hshift : Shift s t p)
    (hwants : ∀ i m, t.wants (.task i) = some m → p ≠ .task i ∧ s.wants (.task i) = some m) :
    Delivers t := by
  intro i m hm
  obtain ⟨hp, hs⟩ := hwants i m hm
  obtain ⟨d, hd⟩ := h i m hs
  exact ⟨d, hshift.stage_of_ne hp hd⟩

theorem delivers_taskStep (h : Delivers s) {i : Nat} (free : s.wants (.task i) = none) :
    Delivers (s.taskStep i).2 := by
  obtain hquiet | ⟨d, hd, hloud⟩ := s.agent.quietAt_or_loud i
  · have hsame : (s.taskStep i).2.wants = s.wants := by rw [taskStep_of_quiet hquiet]
    refine h.of_shift (taskStep_shift s i) fun j m hm => ?_
    rw [hsame] at hm
    refine ⟨?_, hm⟩
    intro heq
    rw [heq, hm] at free
    cases free
  · obtain ⟨m, hm⟩ := taskStep_of_loud hd hloud
    rw [hm]
    intro j m' hm'
    by_cases hij : j = i
    · subst hij
      exact ⟨d, hd⟩
    · have hne : (Party.task j) ≠ .task i := fun heq => hij (Party.task.inj heq)
      rw [want_wants_of_ne hne] at hm'
      exact h j m' hm'

theorem Delivers.not_deadAt (h : Delivers s) {i : Nat} {m : Message}
    (wanted : s.wants (.task i) = some m) : ¬ s.DeadAt i := by
  rintro ⟨stage, hstage, hdead⟩
  obtain ⟨d, hd⟩ := h i m wanted
  rw [hstage] at hd
  rw [Option.some.inj hd] at hdead
  cases hdead

/-- A task at its end stays there. -/
theorem Shift.deadAt {p : Party} {i : Nat} (h : Shift s t p) (hd : s.DeadAt i) : t.DeadAt i := by
  obtain ⟨last, hlast, hdead⟩ := hd
  -- What changes is alive.
  have hne : ∀ {j before}, s.agent.stage? j = some before → before.isAlive = true → j ≠ i := by
    rintro j before hbefore halive rfl
    rw [hlast] at hbefore
    rw [← Option.some.inj hbefore, hdead] at halive
    cases halive
  refine ⟨last, ?_, hdead⟩
  cases h with
  | same tasks slot => rw [Agent.stage?_of_tasks tasks, hlast]
  | spawn accepts tasks slot => exact Agent.stage?_of_append tasks hlast
  | release station task stage tasks slot => rw [Agent.stage?_of_ne tasks (hne stage rfl), hlast]
  | withdraw stage tasks slot => rw [Agent.stage?_of_ne tasks (hne stage rfl), hlast]
  | deliver stage begun tasks slot =>
    rw [Agent.stage?_of_ne tasks (hne stage (Stage.isAlive_of_hasBegun begun)), hlast]
  | finish stage alive dead tasks slot => rw [Agent.stage?_of_ne tasks (hne stage alive), hlast]

variable [Backend.Server β] [Registry ρ]

/-- The step of the loop is the turn to a message, or has nothing to do with writing. -/
theorem loopStep_writing (s : Running β ρ) :
    (∃ m, s.loopStep = s.want .loop m) ∨
      (∀ e ∈ s.loopStep.1, e.isWriting = false) ∧ s.loopStep.2.wants = s.wants ∧
        s.loopStep.2.writer = s.writer := by
  unfold loopStep
  cases hs : s.station with
  | looking =>
    refine .inr ⟨by simp, ?_⟩
    dsimp only [look]
    split <;> exact ⟨rfl, rfl⟩
  | waiting =>
    refine .inr ⟨by simp, ?_⟩
    dsimp only [wait]
    split <;> exact ⟨rfl, rfl⟩
  | receiving =>
    refine .inr ?_
    dsimp only [receive]
    split <;> exact ⟨by simp [Happening.isWriting], rfl, rfl⟩
  | judging m =>
    dsimp only [judge]
    split
    · exact .inr ⟨by simp, rfl, rfl⟩
    · exact .inl ⟨_, rfl⟩
  | heeding r => cases r <;> exact .inr ⟨by simp, rfl, rfl⟩
  | dispatching r => exact .inr ⟨by simp [dispatch, Happening.isWriting], rfl, rfl⟩
  | replying r d =>
    dsimp only [reply]
    split
    · exact .inr ⟨by simp, rfl, rfl⟩
    · exact .inl ⟨_, rfl⟩
  | recording r d => exact .inr ⟨by simp, rfl, rfl⟩
  | closing exit => exact .inr ⟨by simp, rfl, rfl⟩
  | dismissing exit => exact .inr ⟨by simp, rfl, rfl⟩
  | leaving exit => exact .inr ⟨by simp, rfl, rfl⟩
  | ended exit => exact .inr ⟨by simp, rfl, rfl⟩

theorem loopStep_wants_task (s : Running β ρ) (i : Nat) :
    s.loopStep.2.wants (.task i) = s.wants (.task i) := by
  obtain ⟨m, hm⟩ | ⟨-, hwants, -⟩ := loopStep_writing s
  · rw [hm, want_wants_of_ne (by simp)]
  · rw [hwants]

/-- When the frame of a message is out, that is all that happens. -/
theorem Step.sent (h : Step s l t) {p : Party} {m : Message} (hm : .sent p m ∈ l) :
    l = [.sent p m] ∧ s.wants p = some m := by
  cases h with
  | loop free =>
    obtain ⟨m', hm'⟩ | ⟨hsilent, -, -⟩ := loopStep_writing s
    · rw [hm'] at hm
      simp [want] at hm
    · cases hsilent _ hm
  | task j free =>
    obtain ⟨m', hm'⟩ := mem_taskStep hm
    cases hm'
  | @finish q m' wanted held =>
    obtain ⟨rfl, rfl⟩ := Happening.sent.inj (List.mem_singleton.mp hm)
    exact ⟨rfl, wanted⟩
  | fail wanted => simp at hm
  | perish stage alive dead =>
    split at hm <;> simp at hm
  | arrive more => simp at hm
  | _ => cases hm

theorem Step.delivers (h : Step s l t) (hd : Delivers s) : Delivers t := by
  have hquit : ∀ {p q : Party} {m : Message}, (s.quit p).wants q = some m →
      p ≠ q ∧ s.wants q = some m := by
    intro p q m hm
    have hne : q ≠ p := by
      rintro rfl
      simp at hm
    exact ⟨fun heq => hne heq.symm, by rw [← quit_wants_of_ne hne, hm]⟩
  cases h with
  | loop free =>
    refine hd.of_shift (loopStep_shift s) fun i m hm => ⟨by simp, ?_⟩
    rw [loopStep_wants_task] at hm
    exact hm
  | task i free => exact delivers_taskStep hd free
  | @finish p m wanted held =>
    refine hd.of_shift (goOn_shift p m s) fun i m' hm' => ?_
    rw [(goOn_wants p m (s.quit p)).1] at hm'
    exact hquit hm'
  | @fail m wanted =>
    refine hd.of_shift (goOn_shift .loop m s) fun i m' hm' => ?_
    rw [(goOn_wants .loop m (s.quit .loop)).1] at hm'
    exact hquit hm'
  | @perish i before last stage alive dead =>
    have hshift : Shift s { s.quit (.task i) with agent := s.agent.endTask i last } (.task i) :=
      .finish stage alive dead rfl rfl
    exact hd.of_shift hshift fun j m hm => hquit hm
  | @feed i d more stage =>
    intro j m hm
    obtain ⟨d', hd'⟩ := hd j m hm
    by_cases hij : i = j
    · subst hij
      exact ⟨{ d with feed := d.feed.append more }, by simp [stage]⟩
    · exact ⟨d', by simp [hij, hd']⟩
  | _ => exact hd

theorem Execution.delivers (fresh : start.IsFresh) (run : Execution start hs s) : Delivers s := by
  induction run with
  | start =>
    rw [Delivers, fresh.wants]
    intro i m hm
    cases hm
  | step before step ih => exact step.delivers ih

end Running
end Netconf
