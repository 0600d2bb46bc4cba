import Netconf.Proofs.Agent.Exchange

/-! When the loop moves. In a step of another party it stays where it is, and has as much to write
as before. When it moves it goes elsewhere or turns to a message, unless it is at its end. So a loop
that gets to move again and again either comes to its end or never stays where it is for good. -/
namespace Netconf.Running

variable {β ρ : Type} {start s t : Running β ρ} {hs l : List Happening}

/-- Whatever the loop has to write belongs to where it stands. -/
def Utters (s : Running β ρ) : Prop := ∀ m, s.wants .loop = some m → s.station.Utters m

/-- After what it had to say the loop goes on elsewhere. -/
theorem goOn_loop_moves {m : Message} (h : s.station.Utters m) :
    ((s.quit .loop).goOn .loop m).station ≠ s.station ∧
      ((s.quit .loop).goOn .loop m).wants .loop = none := by
  refine ⟨?_, ?_⟩
  · cases hst : s.station with
    | judging x => simp [goOn, quit, goTo, hst]
    | replying r d => simp [goOn, quit, goTo, hst]
    | _ =>
      rw [hst] at h
      exact h.elim
  · rw [(goOn_wants .loop m (s.quit .loop)).1]
    exact quit_wants_self .loop s

variable [Backend.Server β] [Registry ρ]

/-- The loop takes its step, or goes on after a message. -/
inductive Moves (s : Running β ρ) : Running β ρ → Prop
  | free (free : s.wants .loop = none) : Moves s s.loopStep.2
  | goOn {m : Message} (wanted : s.wants .loop = some m) : Moves s ((s.quit .loop).goOn .loop m)

/-- A loop that takes its step goes elsewhere, or turns to a message, or is at its end. -/
theorem loopStep_moves (s : Running β ρ) :
    (s.loopStep.2.station ≠ s.station ∧ s.loopStep.2.wants = s.wants) ∨
      (∃ m, s.loopStep = s.want .loop m ∧ s.station.Utters m) ∨
      ∃ exit, s.station = .ended exit ∧ s.loopStep.2 = s := by
  unfold loopStep
  cases hst : s.station with
  | looking =>
    refine .inl ?_
    dsimp only [look]
    split <;> exact ⟨by simp [goTo], rfl⟩
  | waiting =>
    refine .inl ?_
    dsimp only [wait]
    split <;> exact ⟨by simp [goTo, turned, Agent.hangUp, Turn.station], rfl⟩
  | receiving =>
    refine .inl ?_
    dsimp only [receive]
    split <;> exact ⟨by simp [goTo], rfl⟩
  | judging m =>
    dsimp only [judge]
    split
    · exact .inl ⟨by simp [goTo], rfl⟩
    · next r attributes e hjudge =>
      refine .inr (.inl ⟨_, rfl, attributes, e, ?_, rfl⟩)
      have hjudged := FramedSession.judged_judge m
      rw [hjudge] at hjudged
      cases hjudged <;> exact hjudge
  | heeding r =>
    refine .inl ⟨?_, ?_⟩
    · cases r with
      | request q => simp [heed, goTo]
      | _ =>
        simp only [heed, turned, goTo]
        unfold Turn.station
        split <;> simp
    · cases r <;> rfl
  | dispatching r => exact .inl ⟨by simp [dispatch, goTo], rfl⟩
  | replying r d =>
    dsimp only [reply]
    split
    · exact .inl ⟨by simp [goTo], rfl⟩
    · exact .inr (.inl ⟨_, rfl, rfl⟩)
  | ended exit => exact .inr (.inr ⟨exit, rfl, rfl⟩)
  | _ => exact .inl ⟨by simp [goTo], rfl⟩

/-- In a step of another party the loop stays where it is. -/
theorem Step.rests_or_moves (h : Step s l t) :
    (t.station = s.station ∧ t.wants .loop = s.wants .loop) ∨ s.Moves t := by
  cases h with
  | loop free => exact .inr (.free free)
  | task i free => exact .inl (s.taskStep_station i)
  | @finish p m wanted held =>
    cases p with
    | loop => exact .inr (.goOn wanted)
    | task i =>
      refine .inl ⟨goOn_task_station i m _, ?_⟩
      rw [(goOn_wants (.task i) m (s.quit (.task i))).1]
      exact quit_wants_of_ne (by simp) s
  | fail wanted => exact .inr (.goOn wanted)
  | @perish i before last stage alive dead =>
    have hne : Party.loop ≠ .task i := by simp
    exact .inl ⟨rfl, quit_wants_of_ne hne s⟩
  | _ => exact .inl ⟨rfl, rfl⟩

theorem Moves.cases (h : s.Moves t) (hs : s.Utters) :
    (t.station ≠ s.station ∧ t.wants .loop = none) ∨
      (s.wants .loop = none ∧ t.station = s.station ∧
        ∃ m, t.wants .loop = some m ∧ s.station.Utters m) ∨
      ∃ exit, s.station = .ended exit ∧ t = s := by
  cases h with
  | free free =>
    obtain ⟨hstation, hwants⟩ | ⟨m, hwant, hm⟩ | hended := s.loopStep_moves
    · exact .inl ⟨hstation, by rw [hwants, free]⟩
    · rw [hwant]
      exact .inr (.inl ⟨free, rfl, m, want_wants_self .loop m s, hm⟩)
    · exact .inr (.inr hended)
  | goOn wanted => exact .inl (goOn_loop_moves (hs _ wanted))

/-- A loop that has something to write and gets to move goes elsewhere. -/
theorem Moves.elsewhere (h : s.Moves t) (hs : s.Utters) (hm : s.wants .loop ≠ none) :
    t.station ≠ s.station := by
  cases h with
  | free free => exact absurd free hm
  | goOn wanted => exact (goOn_loop_moves (hs _ wanted)).1

theorem Step.utters (h : Step s l t) (hs : s.Utters) : t.Utters := by
  intro m hm
  obtain ⟨hstation, hwants⟩ | hmoves := h.rests_or_moves
  · rw [hstation]
    exact hs m (by rw [← hwants, hm])
  · obtain ⟨-, hfree⟩ | ⟨-, hstation, m', hm', hutters⟩ | ⟨-, -, rfl⟩ := hmoves.cases hs
    · rw [hfree] at hm
      cases hm
    · rw [hm] at hm'
      cases hm'
      rw [hstation]
      exact hutters
    · exact hs m hm

theorem Execution.utters (fresh : start.IsFresh) (run : Execution start hs s) : s.Utters := by
  induction run with
  | start =>
    intro m hm
    rw [fresh.wants] at hm
    cases hm
  | step before step ih => exact step.utters ih

/-- A message of the loop that is out is what the loop had to say where it stood. -/
theorem Execution.sent_loop (fresh : start.IsFresh) (run : Execution start hs s)
    {pre post : List Happening} {m : Message} (hm : hs = pre ++ .sent .loop m :: post) :
    ∃ u, Execution start pre u ∧ u.station.Utters m := by
  induction run generalizing post with
  | start => simp at hm
  | step before step ih =>
    obtain ⟨more, hhs⟩ | ⟨rfl, hnow⟩ := append_eq_append_cons hm fun hm => (step.sent hm).1
    · exact ih hhs
    · have hwanted := (step.sent (p := .loop) (m := m) (by simp [hnow])).2
      exact ⟨_, before, before.utters fresh m hwanted⟩

end Netconf.Running
