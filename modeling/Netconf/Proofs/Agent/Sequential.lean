import Netconf.Proofs.Agent.Wire

/-! An agent that does one thing after the other. Whatever it does as a whole is done in steps, one
of many orders in which they may come, and where writing does not fail nothing gets lost. -/
namespace Netconf

/-- Where the loop stands when the agent can do no more. -/
def Outcome.station : Outcome → Station
  | idle => .looking
  | blocked => .waiting
  | ended exit => .closing exit

/-- Where it stands when the agent has cleaned up, if it has come to its end. -/
def Outcome.restingStation : Outcome → Station
  | ended exit => .ended exit
  | outcome => outcome.station

namespace Running

variable {β ρ : Type} {s t u : Running β ρ} {l : List Happening}

/-- An agent whose loop stands somewhere, while nobody writes. -/
def at_ (station : Station) (a : Agent FramedSession Delivery β ρ) : Running β ρ :=
  { agent := a, station }

/-- An agent that is about to begin its work stands like that. -/
theorem IsFresh.at_looking (fresh : s.IsFresh) : at_ .looking s.agent = s := by
  obtain ⟨hlooks, -, -, hwants, hwriter⟩ := fresh
  cases s
  cases hlooks
  cases hwants
  cases hwriter
  rfl

/-- Writing to the client does not fail. -/
def WritesWell (s : FramedSession) : Prop :=
  s.output.writeFault = none ∧ s.output.flushFault = none

/-- A session on which a text has been written. -/
def withText (s : FramedSession) (text : String) : FramedSession :=
  { s with output.written := s.output.written ++ s.framing.encode (Bytes.ofString text) }

/-- Where writing fails, the text may still have been written. -/
theorem write_cases (s : FramedSession) (text : String) :
    WritesWell s ∧ s.write text = (.ok (), withText s text) ∨
      ¬ WritesWell s ∧ ∃ e session, s.write text = (.error e, session) ∧
        (session = s ∨ session = withText s text) := by
  cases hw : s.output.writeFault with
  | some f =>
    refine .inr ⟨by simp [WritesWell, hw], .write f, s, ?_, .inl rfl⟩
    rw [FramedSession.write, Outgoing.send, hw]
    rfl
  | none =>
    cases hf : s.output.flushFault with
    | some f =>
      refine .inr ⟨by simp [WritesWell, hf], .write f, withText s text, ?_, .inr rfl⟩
      simp only [FramedSession.write, Outgoing.send, withText, hw, hf]
      rfl
    | none =>
      refine .inl ⟨⟨hw, hf⟩, ?_⟩
      rw [FramedSession.write, Outgoing.send_of_no_fault hw hf]
      rfl

variable [Backend.Server β] [Registry ρ]

omit [Registry ρ] in
theorem nextSession_writesWell (h : WritesWell s.agent.session) : WritesWell s.nextSession := by
  unfold nextSession
  split
  · unfold FramedSession.wait
    split
    · exact h
    · split <;> exact h
  · unfold receive
    dsimp only
    split <;> exact h
  · next r _ =>
    obtain heq | heq := Agent.dispatch_session (a := s.agent) r <;> rw [heq] <;> exact h
  · exact h
  · exact h

theorem Step.writesWell (h : Step s l t) (hs : WritesWell s.agent.session) :
    WritesWell t.agent.session := by
  cases h with
  | loop free =>
    rw [loopStep_session]
    exact nextSession_writesWell hs
  | task i free =>
    obtain ⟨source, hsource⟩ := s.taskStep_session i
    rw [hsource]
    exact hs
  | finish wanted held =>
    rw [goOn_session]
    exact hs
  | fail wanted =>
    rw [goOn_session]
    exact hs
  | _ => exact hs

theorem Execution.writesWell {hs : List Happening} (run : Execution s hs t)
    (h : WritesWell s.agent.session) : WritesWell t.agent.session := by
  induction run with
  | start => exact h
  | step before step ih => exact step.writesWell ih

/-- One state leads to another, without any loss if writing does not fail. -/
def Reaches (s t : Running β ρ) : Prop :=
  ∃ hs, Execution s hs t ∧ (WritesWell s.agent.session → NoLoss hs)

namespace Reaches

theorem refl (s : Running β ρ) : Reaches s s := ⟨[], .start, fun _ => by simp [NoLoss]⟩

theorem trans (hst : Reaches s t) (htu : Reaches t u) : Reaches s u := by
  obtain ⟨hs, run, hl⟩ := hst
  obtain ⟨more, run', hl'⟩ := htu
  exact ⟨hs ++ more, run.trans run',
    fun h => noLoss_append.mpr ⟨hl h, hl' (run.writesWell h)⟩⟩

theorem of_step (h : Step s l t) (hl : WritesWell s.agent.session → NoLoss l) : Reaches s t :=
  ⟨[] ++ l, Execution.start.step h, hl⟩

end Reaches

/-- A step of the loop is no loss. -/
theorem reaches_loopStep (free : s.wants .loop = none) : Reaches s s.loopStep.2 := by
  refine .of_step (.loop s free) fun _ => ?_
  obtain ⟨m, hm⟩ | ⟨hsilent, -, -⟩ := loopStep_writing s
  · rw [hm]
    simp [want, NoLoss, Happening.isLoss]
  · intro e he
    have hwriting := hsilent e he
    cases e <;> first | rfl | cases hwriting

/-! Getting a message out. -/

omit [Backend.Server β] [Registry ρ] in
theorem want_quit {p : Party} (m : Message) (hwriter : s.writer = none)
    (hwants : s.wants p = none) : (s.want p m).2.quit p = s := by
  have hback : Function.update (Function.update s.wants p (some m)) p none = s.wants := by
    rw [Function.update_idem, ← hwants, Function.update_eq_self]
  simp only [quit, want, hback, hwriter, Option.filter_none]
  rw [← hwriter]

omit [Backend.Server β] [Registry ρ] in
/-- Letting the writer go, with the frame out, leaves nothing but the frame. -/
theorem put_quit {p : Party} {m : Message} (hwriter : s.writer = none) (hwants : s.wants p = none) :
    ({ (s.want p m).2.put (s.frame m) with writer := some (p, []) } : Running β ρ).quit p =
      s.put (s.frame m) := by
  have hback : Function.update (Function.update s.wants p (some m)) p none = s.wants := by
    rw [Function.update_idem, ← hwants, Function.update_eq_self]
  simp [quit, put, want, hback, hwriter, Option.filter]

theorem reaches_put {p : Party} {m : Message} (hwriter : s.writer = none) :
    Reaches (s.want p m).2
      { (s.want p m).2.put (s.frame m) with writer := some (p, []) } :=
  ⟨[], Execution.start.putFrame (want_wants_self p m s) hwriter, fun _ => by simp [NoLoss]⟩

/-- A party that gets its message out goes on. -/
theorem reaches_goOn {p : Party} {m : Message} (hwriter : s.writer = none)
    (hwants : s.wants p = none) : Reaches (s.want p m).2 ((s.put (s.frame m)).goOn p m) := by
  have hfinish : Step { (s.want p m).2.put (s.frame m) with writer := some (p, []) } _ _ :=
    .finish _ (want_wants_self p m s) rfl
  rw [put_quit hwriter hwants] at hfinish
  exact (reaches_put hwriter).trans (.of_step hfinish fun _ => by simp [NoLoss, Happening.isLoss])

/-- The loop goes on after its message in any case. -/
theorem reaches_loopWrite {m : Message} (hwriter : s.writer = none)
    (hwants : s.wants .loop = none) : Reaches (s.want .loop m).2
      (({ s with agent.session := (s.agent.session.write m.text).2 } : Running β ρ).goOn
        .loop m) := by
  obtain ⟨-, hwrite⟩ | ⟨hfails, e, session, hwrite, rfl | rfl⟩ :=
      write_cases s.agent.session m.text <;> rw [hwrite]
  · exact reaches_goOn hwriter hwants
  · have hfail : Step (s.want .loop m).2 _ _ := .fail _ (want_wants_self .loop m s)
    rw [want_quit m hwriter hwants] at hfail
    exact .of_step hfail fun h => absurd h hfails
  · have hfail : Step { (s.want .loop m).2.put (s.frame m) with writer := some (.loop, []) } _ _ :=
      .fail _ (want_wants_self .loop m s)
    rw [put_quit hwriter hwants] at hfail
    exact (reaches_put hwriter).trans (.of_step hfail fun h => absurd h hfails)

/-- A task whose message does not get out comes to its end. -/
theorem reaches_taskBreak {i : Nat} {m : Message} {before last : Stage Delivery}
    {session : FramedSession} (hwriter : s.writer = none) (hwants : s.wants (.task i) = none)
    (hfails : ¬ WritesWell s.agent.session)
    (hsession : session = s.agent.session ∨ session = withText s.agent.session m.text)
    (hstage : s.agent.stage? i = some before) (alive : before.isAlive = true)
    (dead : last.isAlive = false) : Reaches (s.want (.task i) m).2
      { s with agent := ({ s.agent with session }).endTask i last } := by
  obtain rfl | rfl := hsession
  · have hperish : Step (s.want (.task i) m).2 _ _ := .perish _ hstage alive dead
    rw [want_quit m hwriter hwants] at hperish
    exact .of_step hperish fun h => absurd h hfails
  · have hperish : Step { (s.want (.task i) m).2.put (s.frame m) with
        writer := some (.task i, []) } _ _ := .perish _ hstage alive dead
    rw [put_quit hwriter hwants] at hperish
    exact (reaches_put hwriter).trans (.of_step hperish fun h => absurd h hfails)

/-! The parts of a turn. -/

variable {a : Agent FramedSession Delivery β ρ}

omit [Backend.Server β] [Registry ρ] in
theorem stepTask_of_delivering {i : Nat} {d : Delivery} (hd : a.stage? i = some (.delivering d)) :
    (a.stepTask i).1 = ({ a with session := (a.session.deliver a.now d).2 }.progress i
      (a.session.deliver a.now d).1).1 := by
  obtain ⟨t, ht, hstage⟩ := Option.map_eq_some_iff.mp hd
  simp only [Agent.stepTask, ht, hstage, Conversation.deliver]

omit [Backend.Server β] [Registry ρ] in
theorem feed_of_next_notify {d : Delivery} {tornDown : Bool} {now : Time.Instant} {e : Event}
    {rest : Feed} (h : d.next tornDown now = .notify e rest) : d.feed.tail = rest := by
  unfold Delivery.next at h
  split at h
  · cases h
  · split at h
    · next e' rest' hfeed =>
      split at h
      · cases h
      · split at h
        · cases h
        · cases h
          rw [hfeed]
          rfl
    · cases h
    · split at h <;> cases h
    · split at h <;> cases h

theorem reaches_notify (station : Station) {i : Nat} {d : Delivery} {e : Event} {rest : Feed}
    (hd : a.stage? i = some (.delivering d))
    (hn : d.next a.session.tornDown a.now = .notify e rest) :
    Reaches (at_ station a) (at_ station (a.stepTask i).1) := by
  have hturn : (at_ station a).taskStep i = (at_ station a).want (.task i) (.notification e) := by
    simp only [taskStep, at_, hd, hn]
  have hstep : Step (at_ station a) _ _ := .task _ i rfl
  rw [hturn] at hstep
  have hwant := Reaches.of_step hstep fun _ => by simp [want, NoLoss, Happening.isLoss]
  rw [stepTask_of_delivering hd]
  simp only [FramedSession.deliver, hn]
  obtain ⟨-, hwrite⟩ | ⟨hfails, e', session, hwrite, hsession⟩ :=
      write_cases a.session (Notification.ofEvent e) <;> rw [hwrite]
  · have hgo := hwant.trans (reaches_goOn rfl rfl)
    have hstage : ((at_ station a).put ((at_ station a).frame (.notification e))).agent.stage? i =
      some (.delivering d) := hd
    rw [goOn] at hgo
    simp only [hstage, feed_of_next_notify hn] at hgo
    exact hgo
  · exact hwant.trans (reaches_taskBreak rfl rfl hfails hsession hd rfl rfl)

theorem reaches_complete (station : Station) {i : Nat} {d : Delivery}
    (hd : a.stage? i = some (.delivering d))
    (hn : d.next a.session.tornDown a.now = .complete) :
    Reaches (at_ station a) (at_ station (a.stepTask i).1) := by
  have hturn : (at_ station a).taskStep i = (at_ station a).want (.task i) (.completion a.now) := by
    simp only [taskStep, at_, hd, hn]
  have hstep : Step (at_ station a) _ _ := .task _ i rfl
  rw [hturn] at hstep
  have hwant := Reaches.of_step hstep fun _ => by simp [want, NoLoss, Happening.isLoss]
  rw [stepTask_of_delivering hd]
  simp only [FramedSession.deliver, hn, FramedSession.complete]
  obtain ⟨-, hwrite⟩ | ⟨hfails, e', session, hwrite, hsession⟩ :=
      write_cases a.session (Notification.complete a.now) <;> rw [hwrite]
  · have hgo := hwant.trans (reaches_goOn rfl rfl)
    have hstage : ((at_ station a).put ((at_ station a).frame (.completion a.now))).agent.stage?
      i = some (.delivering d) := hd
    rw [goOn] at hgo
    simp only [hstage] at hgo
    exact hgo
  · exact hwant.trans (reaches_taskBreak rfl rfl hfails hsession hd rfl rfl)

theorem reaches_stepTask (station : Station) (a : Agent FramedSession Delivery β ρ) (i : Nat) :
    Reaches (at_ station a) (at_ station (a.stepTask i).1) := by
  obtain hquiet | ⟨d, hd, hloud⟩ := a.quietAt_or_loud i
  · have hstep : Step (at_ station a) _ _ := .task _ i rfl
    have hsilent : (at_ station a).taskStep i = ([], at_ station (a.stepTask i).1) :=
      taskStep_of_quiet hquiet
    rw [hsilent] at hstep
    exact .of_step hstep fun _ => by simp [NoLoss]
  · cases hn : d.next a.session.tornDown a.now with
    | notify e rest => exact reaches_notify station hd hn
    | complete => exact reaches_complete station hd hn
    | _ => simp [hn, Delivery.Move.isQuiet] at hloud

theorem reaches_stepsOfTask (station : Station) (a : Agent FramedSession Delivery β ρ)
    (i n : Nat) : Reaches (at_ station a) (at_ station (a.stepsOfTask i n)) := by
  induction n generalizing a with
  | zero => exact .refl _
  | succ n ih =>
    have hstep := reaches_stepTask station a i
    unfold Agent.stepsOfTask
    split
    · next b heq =>
      rw [heq] at hstep
      exact hstep.trans (ih b)
    · next b heq =>
      rw [heq] at hstep
      exact hstep

theorem reaches_runTask (station : Station) (a : Agent FramedSession Delivery β ρ) (i : Nat) :
    Reaches (at_ station a) (at_ station (a.runTask i)) := by
  have hstep := reaches_stepTask station a i
  unfold Agent.runTask
  split
  · next b heq =>
    rw [heq] at hstep
    exact hstep.trans (reaches_stepsOfTask station b i _)
  · next b heq =>
    rw [heq] at hstep
    exact hstep

theorem reaches_settle (station : Station) (a : Agent FramedSession Delivery β ρ) :
    Reaches (at_ station a) (at_ station a.settle) := by
  unfold Agent.settle
  generalize List.range a.tasks.length = is
  induction is generalizing a with
  | nil => exact .refl _
  | cons i is ih => exact (reaches_runTask station a i).trans (ih (a.runTask i))

theorem reaches_answer (r : Rpc.Request) (d : Dispatch) (a : Agent FramedSession Delivery β ρ) :
    Reaches (at_ (.replying r d) a) (at_ (.recording r d) (a.answer r d.reply)) := by
  have hstep := reaches_loopStep (s := at_ (.replying r d) a) rfl
  unfold Agent.answer
  simp only [Conversation.reply, FramedSession.reply]
  by_cases hended : a.session.status = .terminated
  · have hreply : (at_ (.replying r d) a).loopStep =
        ([], at_ (.recording r d) (a.did (.replied r d.reply))) := if_pos hended
    rw [hreply] at hstep
    rw [if_pos hended]
    exact hstep
  · have hreply : (at_ (.replying r d) a).loopStep =
        (at_ (.replying r d) a).want .loop (.reply r d) := if_neg hended
    rw [hreply] at hstep
    rw [if_neg hended]
    exact hstep.trans (reaches_loopWrite rfl rfl)

theorem reaches_handle (r : Rpc.Request) (a : Agent FramedSession Delivery β ρ) :
    Reaches (at_ (.dispatching r) a) (at_ .looking (a.handle r)) := by
  have hdispatch : Reaches (at_ (.dispatching r) a)
      (at_ (.replying r (a.dispatch r).1) (a.dispatch r).2) := reaches_loopStep rfl
  have hanswer := reaches_answer r (a.dispatch r).1 (a.dispatch r).2
  exact (hdispatch.trans hanswer).trans (reaches_loopStep rfl)

theorem reaches_heed (r : Received) (a : Agent FramedSession Delivery β ρ) :
    Reaches (at_ (.heeding r) a) (at_ (a.heed r).1.station (a.heed r).2) := by
  have hstep := reaches_loopStep (s := at_ (.heeding r) a) rfl
  cases r with
  | request q => exact hstep.trans (reaches_handle q _)
  | _ => exact hstep

theorem reaches_classify (m : Bytes) (a : Agent FramedSession Delivery β ρ) :
    Reaches (at_ (.judging m) a) (at_ (.heeding (a.session.classify m).1)
      { a with session := (a.session.classify m).2 }) := by
  have hstep := reaches_loopStep (s := at_ (.judging m) a) rfl
  unfold FramedSession.classify
  cases hj : FramedSession.judge m with
  | mk r answer =>
    simp only [loopStep, at_, judge, hj] at hstep
    cases answer with
    | none => exact hstep
    | some p =>
      have hgo := hstep.trans (reaches_loopWrite rfl rfl)
      simp only [goOn, hj] at hgo
      exact hgo

theorem reaches_receive (a : Agent FramedSession Delivery β ρ) :
    Reaches (at_ .receiving a) (at_ a.receive.1.station a.receive.2) := by
  have hstep := reaches_loopStep (s := at_ .receiving a) rfl
  simp only [loopStep, at_, receive] at hstep
  unfold Agent.receive
  simp only [Conversation.receive, FramedSession.receive]
  cases hread : a.session.framing.read a.session.limit a.session.input with
  | mk outcome rest =>
    rw [hread] at hstep
    cases outcome with
    | message m => exact (hstep.trans (reaches_classify m _)).trans (reaches_heed _ _)
    | failure e => cases e <;> exact hstep.trans (reaches_heed _ _)
    | blocked => exact hstep

theorem reaches_proceed (a : Agent FramedSession Delivery β ρ) :
    Reaches (at_ .waiting a) (at_ a.proceed.1.station a.proceed.2) := by
  have hstep := reaches_loopStep (s := at_ .waiting a) rfl
  simp only [loopStep, at_, wait] at hstep
  unfold Agent.proceed
  simp only [Conversation.wait]
  cases hwait : a.session.wait with
  | mk outcome session =>
    rw [hwait] at hstep
    cases outcome with
    | error e => exact hstep
    | ok readiness =>
      cases readiness with
      | timeout => exact hstep.trans (reaches_settle .looking _)
      | ready => exact hstep.trans (reaches_receive _)
      | _ => exact hstep

theorem reaches_turn (a : Agent FramedSession Delivery β ρ) :
    Reaches (at_ .looking a) (at_ a.turn.1.station a.turn.2) := by
  have hstep := reaches_loopStep (s := at_ .looking a) rfl
  simp only [loopStep, at_, look] at hstep
  unfold Agent.turn
  cases hlook : a.look with
  | mk exit? b =>
    rw [hlook] at hstep
    cases exit? with
    | some exit => exact hstep
    | none => exact hstep.trans (reaches_proceed b)

/-! Whole runs. -/

/-- As many turns as there are. -/
theorem reaches_run (a : Agent FramedSession Delivery β ρ) :
    Reaches (at_ .looking a) (at_ a.run.1.station a.run.2) := by
  -- Each turn that is followed by another has used up something of what is pending.
  induction hn : a.pending using Nat.strongRecOn generalizing a with
  | ind n ih =>
    have hturn := reaches_turn a
    unfold Agent.run
    cases ht : a.turn with
    | mk turn b =>
      rw [ht] at hturn
      cases turn with
      | stop exit => exact hturn
      | blocked => exact hturn.trans (reaches_settle .waiting b)
      | again =>
        dsimp only
        split
        · next hless => exact hturn.trans (ih b.pending (hn ▸ hless) b rfl)
        · exact hturn

/-- The rest of a turn, and as many turns as there are. -/
theorem reaches_resume (a : Agent FramedSession Delivery β ρ) :
    Reaches (at_ .waiting a) (at_ a.resume.1.station a.resume.2) := by
  have hproceed := reaches_proceed a
  unfold Agent.resume
  cases ht : a.proceed with
  | mk turn b =>
    rw [ht] at hproceed
    cases turn with
    | stop exit => exact hproceed
    | blocked => exact hproceed.trans (reaches_settle .waiting b)
    | again => exact hproceed.trans (reaches_run b)

theorem reaches_perish {i : Nat} {before last : Stage Delivery} (station : Station)
    (hstage : a.stage? i = some before) (alive : before.isAlive = true)
    (dead : last.isAlive = false) : Reaches (at_ station a) (at_ station (a.endTask i last)) := by
  have hstep : Step (at_ station a) _ _ := .perish _ hstage alive dead
  have hwants : Function.update (fun _ : Party => (none : Option Message)) (.task i) none =
      fun _ => none := Function.update_eq_self _ _
  simp only [at_, quit, hwants, Option.filter_none] at hstep
  exact .of_step hstep fun _ => by simp [NoLoss, holds]

theorem reaches_finish (station : Station) (i : Nat) (a : Agent FramedSession Delivery β ρ) :
    Reaches (at_ station (a.withdraw i)) (at_ station (a.finish i).2) := by
  have hrun := reaches_runTask station (a.withdraw i) i
  unfold Agent.finish
  dsimp only
  split
  · exact hrun
  · next hstage =>
    split
    · next halive => exact hrun.trans (reaches_perish station hstage halive rfl)
    · exact hrun
  · exact hrun

/-- The end of the agent. -/
theorem reaches_cleanup (exit : Exit) (a : Agent FramedSession Delivery β ρ) :
    Reaches (at_ (.closing exit) a) (at_ (.ended exit) (a.cleanup exit)) := by
  have hclose : Reaches (at_ (.closing exit) a) (at_ (.dismissing exit) a.endSession) :=
    reaches_loopStep rfl
  have hcall : Reaches (at_ (.dismissing exit) a.endSession)
      (at_ (.leaving exit) (callOff a.endSession)) := reaches_loopStep rfl
  have hleave : ∀ b : Agent FramedSession Delivery β ρ, Reaches (at_ (.leaving exit) b)
      (at_ (.ended exit) ({ b with current := none }.leave exit)) := fun b => reaches_loopStep rfl
  have hbefore := hclose.trans hcall
  unfold Agent.cleanup Agent.dismiss
  cases hcurrent : a.endSession.current with
  | none =>
    have hcalled : callOff a.endSession = a.endSession := by
      rw [callOff, hcurrent]
    rw [hcalled] at hbefore
    have hsame : ({ a.endSession with current := none } : Agent FramedSession Delivery β ρ) =
        a.endSession := congrArg (fun c => { a.endSession with current := c }) hcurrent.symm
    have hover := hbefore.trans (hleave _)
    rw [hsame] at hover
    exact hover
  | some i =>
    have hwithdraw : callOff a.endSession = a.endSession.withdraw i := by
      rw [callOff, hcurrent]
    rw [hwithdraw] at hbefore
    exact (hbefore.trans (reaches_finish (.leaving exit) i _)).trans (hleave _)

theorem reaches_conclude (p : Outcome × Agent FramedSession Delivery β ρ) :
    Reaches (at_ p.1.station p.2)
      (at_ (Agent.conclude p).1.restingStation (Agent.conclude p).2) := by
  obtain ⟨outcome, b⟩ := p
  cases outcome with
  | ended exit => exact reaches_cleanup exit b
  | _ => exact .refl _

/-- The service of a session, up to its end if that is at hand. -/
theorem reaches_serve (a : Agent FramedSession Delivery β ρ) :
    Reaches (at_ .looking a) (at_ a.serve.1.restingStation a.serve.2) :=
  (reaches_run a).trans (reaches_conclude a.run)

end Running
end Netconf
