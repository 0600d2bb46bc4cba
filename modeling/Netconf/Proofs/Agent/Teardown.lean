import Netconf.Proofs.Agent.Books
import Netconf.Proofs.Agent.Exits
import Netconf.Proofs.Agent.Handshake
import Netconf.Session.Accept

/-! How an agent takes leave of its session. Up to the end the record stays open, so that whatever
brings the session to its end, it is recorded once that it has been closed, and nothing after that.
Once the session is closed the loop does nothing with it any more. -/
namespace Netconf

/-- Whose doing something is, if it is that of a party. -/
def Happening.party? : Happening → Option Party
  | arrived _ => none
  | took _ => some .loop
  | decided _ _ => some .loop
  | turned p _ => some p
  | sent p _ => some p
  | broke p => some p

namespace Station

/-- Whether the session has been closed where the loop stands. -/
def isPast : Station → Bool
  | dismissing _ => true
  | leaving _ => true
  | ended _ => true
  | _ => false

/-- Where the loop may stand when the session has ended. -/
def seesEnd : Station → Bool
  | heeding .unknown => true
  | station => station.exit?.isSome

end Station

section

variable {terms : Terms} {start v w : Standing} {hs l : List Happening}

/-- A session that has ended is not looked at any more. -/
theorem Stride.seesEnd (h : Stride terms v l w)
    (hv : v.status = .terminated → v.station.seesEnd = true)
    (hw : w.status = .terminated) : w.station.seesEnd = true := by
  -- Where the loop comes from the session has not ended yet, but for a few places.
  have hnot : ∀ {station : Station}, v.station = station → station.seesEnd = false →
      v.status ≠ .terminated := by
    rintro station rfl hsees hover
    rw [hv hover] at hsees
    cases hsees
  cases h with
  | rest | arrive | ask => exact hv hw
  | obey | retire | refuse | fault | vanish | lose | giveUp | hangUp | shut | dismiss | leave => rfl
  | proceed _ _ works | pass _ works =>
    rw [works] at hw
    cases hw
  | @decide r d call at_ asks =>
    have hstatus : r.statusAfter v.status = .terminated := hw
    unfold Rpc.Request.statusAfter at hstatus
    split at hstatus
    · cases hstatus
    · exact absurd hstatus (hnot at_ rfl)
  | _ at_ => exact absurd hw (hnot at_ rfl)

theorem Course.seesEnd (h : Course terms start hs v) (hstart : start.status = .working)
    (hv : v.status = .terminated) : v.station.seesEnd = true := by
  induction h with
  | start =>
    rw [hstart] at hv
    cases hv
  | step _ stride ih => exact stride.seesEnd ih hv

theorem Stride.isPast (h : Stride terms v l w) (hv : v.station.isPast = true) :
    w.station.isPast = true := by
  cases h with
  | rest | arrive | ask => exact hv
  | dismiss | leave => rfl
  | _ at_ =>
    rw [at_] at hv
    cases hv

/-- The loop gets past the end of the session by closing it. -/
theorem Stride.closing_of_isPast (h : Stride terms v l w) (hv : v.station.isPast = false)
    (hw : w.station.isPast = true) : ∃ exit, v.station = .closing exit := by
  cases h with
  | rest | arrive | ask =>
    rw [hv] at hw
    cases hw
  | shut at_ => exact ⟨_, at_⟩
  | dismiss at_ | leave at_ =>
    rw [at_] at hv
    cases hv
  | _ => cases hw

end

namespace Running

variable {β ρ : Type} {start c s t : Running β ρ} {hs l : List Happening} {exit : Exit}

/-- A step in which the loop has no part. -/
structure Rests (s : Running β ρ) (l : List Happening) (t : Running β ρ) : Prop where
  station : t.station = s.station
  wants : t.wants .loop = s.wants .loop
  others : ∀ e ∈ l, e.party? ≠ some .loop
  input : t.agent.session.input = allArrived s.agent.session.input l
  status : t.agent.session.status = s.agent.session.status
  tornDown : t.agent.session.tornDown = s.agent.session.tornDown
  idles : s.agent.Idles t.agent

theorem taskStep_idles (s : Running β ρ) (i : Nat) : s.agent.Idles (s.taskStep i).2.agent := by
  obtain hsame | hstep := s.taskStep_agent i
  · rw [hsame]
    exact .refl _
  · rw [hstep]
    exact .stepTask i s.agent

theorem goOn_task_idles (i : Nat) (m : Message) (s : Running β ρ) :
    s.agent.Idles (s.goOn (.task i) m).agent := by
  unfold goOn
  dsimp only
  split
  · split
    · exact .setStage i _ _
    · exact .endTask i _ _
  · exact .refl _

theorem callOff_idles (a : Agent FramedSession Delivery β ρ) : a.Idles (callOff a) := by
  unfold callOff
  split
  · exact .withdraw _ a
  · exact .refl a

variable [Backend.Server β] [Registry ρ]

/-- In any step the loop has no part, or it takes its step, or it goes on after a message. -/
theorem Step.rests_or_own (h : Step s l t) : Rests s l t ∨
    (s.wants .loop = none ∧ l = s.loopStep.1 ∧ t = s.loopStep.2) ∨
      ∃ m, s.wants .loop = some m ∧ (l = [.sent .loop m] ∨ l = [.broke .loop]) ∧
        t = (s.quit .loop).goOn .loop m := by
  have hidle : ∀ {a b : Agent FramedSession Delivery β ρ}, b.record = a.record →
      b.registry = a.registry → b.acts = a.acts → a.Idles b :=
    fun hrecord hregistry hacts => ⟨by rw [hrecord], hregistry, .of_same hacts⟩
  cases h with
  | loop free => exact .inr (.inl ⟨free, rfl, rfl⟩)
  | task i free =>
    obtain ⟨source, hsession⟩ := s.taskStep_session i
    obtain ⟨hstation, hwants⟩ := s.taskStep_station i
    have hhappen : ∀ e ∈ (s.taskStep i).1, ∃ m, e = .turned (.task i) m := fun e => mem_taskStep
    refine .inl ⟨hstation, hwants, ?_, ?_, by rw [hsession], by rw [hsession],
      s.taskStep_idles i⟩
    · intro e he
      obtain ⟨m, rfl⟩ := hhappen e he
      simp [Happening.party?]
    · rw [hsession, allArrived_of_not_arrived]
      intro more hmore
      obtain ⟨m, hm⟩ := hhappen _ hmore
      cases hm
  | acquire wanted free => exact .inl ⟨rfl, rfl, by simp, rfl, rfl, rfl, .refl _⟩
  | write held => exact .inl ⟨rfl, rfl, by simp, rfl, rfl, rfl, hidle rfl rfl rfl⟩
  | @finish p m wanted held =>
    cases p with
    | loop => exact .inr (.inr ⟨m, wanted, .inl rfl, rfl⟩)
    | task i =>
      refine .inl ⟨goOn_task_station i m _, ?_, by simp [Happening.party?], ?_, ?_, ?_,
        goOn_task_idles i m (s.quit (.task i))⟩
      · rw [(goOn_wants (.task i) m (s.quit (.task i))).1]
        exact quit_wants_of_ne (by simp) s
      · rw [goOn_session]
        rfl
      · rw [goOn_session]
      · rw [goOn_session]
  | fail wanted => exact .inr (.inr ⟨_, wanted, .inr rfl, rfl⟩)
  | @perish i before last stage alive dead =>
    have hne : Party.loop ≠ .task i := by simp
    refine .inl ⟨rfl, quit_wants_of_ne hne s, ?_, ?_, rfl, rfl, .endTask i last s.agent⟩
    · split <;> simp [Happening.party?]
    · split <;> rfl
  | arrive more =>
    exact .inl ⟨rfl, rfl, by simp [Happening.party?], rfl, rfl, rfl, hidle rfl rfl rfl⟩
  | feed more stage => exact .inl ⟨rfl, rfl, by simp, rfl, rfl, rfl, .setStage _ _ _⟩
  | _ => exact .inl ⟨rfl, rfl, by simp, rfl, rfl, rfl, hidle rfl rfl rfl⟩

/-! Up to the end. -/

/-- The agent at the beginning of a session: the session works, the record is its own, and is
open. -/
structure IsEstablished (s : Running β ρ) : Prop extends s.IsFresh where
  works : s.agent.session.status = .working
  records : s.agent.record.id = s.agent.session.id
  isOpen : s.agent.record.status ≠ .terminated

omit [Registry ρ] in
theorem wait_carriesOn (s : Running β ρ) : s.agent.CarriesOn s.wait.agent := by
  have hwaited : ∀ session outcome,
      s.agent.CarriesOn ({ s.agent with session }.did (.waited outcome)) := fun session outcome =>
    (Agent.CarriesOn.of_same rfl rfl : s.agent.CarriesOn { s.agent with session }).trans
      (.did rfl _ trivial)
  unfold wait
  dsimp only
  split
  · exact hwaited _ _
  · exact hwaited _ _
  · exact hwaited _ _
  · exact (hwaited _ _).trans (.closeAtServer _)
  · exact hwaited _ _
  · exact hwaited _ _

/-- Until the session is closed the loop does what is usual. -/
theorem loopStep_carriesOn (s : Running β ρ) (hopen : s.loopStep.2.station.isPast = false)
    (hlives : s.station = .looking → s.agent.session.status ≠ .terminated) :
    s.agent.CarriesOn s.loopStep.2.agent := by
  unfold loopStep at hopen ⊢
  cases hst : s.station with
  | looking =>
    have hlook := Agent.CarriesOn.look s.agent (hlives hst)
    unfold look
    generalize s.agent.look = p at hlook
    obtain ⟨exit?, a⟩ := p
    cases exit? <;> exact hlook
  | waiting => exact s.wait_carriesOn
  | receiving =>
    dsimp only [receive]
    split <;> exact .of_same rfl rfl
  | judging m =>
    dsimp only [judge]
    split <;> exact .refl _
  | heeding r =>
    cases r with
    | request q => exact .did rfl _ trivial
    | _ => exact .heed (by simp) s.agent
  | dispatching r => exact .dispatch r s.agent
  | replying r d =>
    dsimp only [reply]
    split
    · exact .did rfl _ trivial
    · exact .refl _
  | recording r d => exact (Agent.CarriesOn.launch d s.agent).trans (.count r d.reply _)
  | closing exit | dismissing exit | leaving exit =>
    rw [hst] at hopen
    cases hopen
  | ended exit => exact .refl _

omit [Backend.Server β] [Registry ρ] in
theorem goOn_loop_carriesOn (m : Message) (s : Running β ρ) :
    s.agent.CarriesOn (s.goOn .loop m).agent := by
  unfold goOn
  dsimp only
  split
  · exact .refl _
  · exact .did rfl _ trivial
  · exact .refl _

/-- Until the session is closed the agent does what is usual, and its record is open. -/
theorem Execution.carriesOn (h : start.IsEstablished) (run : Execution start hs s)
    (hopen : s.station.isPast = false) : start.agent.CarriesOn s.agent := by
  induction run with
  | start => exact .refl _
  | @step hs l s t before step ih =>
    have hbefore : s.station.isPast = false := by
      apply eq_false_of_ne_true
      intro hpast
      have hafter := step.stride.isPast hpast
      change t.station.isPast = true at hafter
      rw [hopen] at hafter
      cases hafter
    refine (ih hbefore).trans ?_
    obtain hrests | ⟨-, -, rfl⟩ | ⟨m, -, -, rfl⟩ := step.rests_or_own
    · exact hrests.idles.carriesOn
    · -- The record takes over the status of the session, which has not ended where it is looked at.
      refine s.loopStep_carriesOn hopen fun hlooks hover => ?_
      have hsees := before.course.seesEnd h.works hover
      change s.station.seesEnd = true at hsees
      rw [hlooks] at hsees
      cases hsees
    · exact goOn_loop_carriesOn m (s.quit .loop)

/-! Behind the end. -/

/-- How far an agent has got that was to close its session as `a`. -/
inductive Departure (a : Agent FramedSession Delivery β ρ) (exit : Exit) :
    Station → Agent FramedSession Delivery β ρ → Prop
  | dismissing {b : Agent FramedSession Delivery β ρ} (idles : a.endSession.Idles b) :
      Departure a exit (.dismissing exit) b
  | leaving {b : Agent FramedSession Delivery β ρ} (idles : a.endSession.Idles b) :
      Departure a exit (.leaving exit) b
  | ended {b c : Agent FramedSession Delivery β ρ} (idles : a.endSession.Idles b)
      (left : (b.leave exit).Idles c) : Departure a exit (.ended exit) c

/-- An agent that stood at `c` when it was to close its session. It has closed it, and the loop
does nothing more that is worth telling. -/
structure Departs (c : Running β ρ) (exit : Exit) (hs : List Happening) (s : Running β ρ) :
    Prop where
  silent : s.wants .loop = none
  others : ∀ e ∈ hs, e.party? ≠ some .loop
  input : s.agent.session.input = allArrived c.agent.session.input hs
  status : s.agent.session.status = .terminated
  tornDown : s.agent.session.tornDown = true
  departure : Departure c.agent exit s.station s.agent

omit [Backend.Server β] in
theorem Departure.idle {a b b' : Agent FramedSession Delivery β ρ} {station : Station}
    (h : Departure a exit station b) (idles : b.Idles b') : Departure a exit station b' := by
  cases h with
  | dismissing h => exact .dismissing (h.trans idles)
  | leaving h => exact .leaving (h.trans idles)
  | ended h left => exact .ended h (left.trans idles)

omit [Backend.Server β] in
theorem Departs.next (h : Departs c exit hs s) (wants : t.wants .loop = s.wants .loop)
    (others : ∀ e ∈ l, e.party? ≠ some .loop)
    (input : t.agent.session.input = allArrived s.agent.session.input l)
    (status : t.agent.session.status = s.agent.session.status)
    (tornDown : t.agent.session.tornDown = s.agent.session.tornDown)
    (departure : Departure c.agent exit t.station t.agent) : Departs c exit (hs ++ l) t where
  silent := wants.trans h.silent
  others := List.forall_mem_append.mpr ⟨h.others, others⟩
  input := by rw [input, h.input, allArrived_append]
  status := status.trans h.status
  tornDown := tornDown.trans h.tornDown
  departure := departure

theorem Departs.loopStep (h : Departs c exit hs s) :
    Departs c exit (hs ++ s.loopStep.1) s.loopStep.2 := by
  have hdeparture := h.departure
  have hsession := s.loopStep_session
  generalize hst : s.station = station at hdeparture
  cases hdeparture with
  | dismissing idles =>
    simp only [Running.loopStep, nextSession, hst] at hsession ⊢
    refine h.next rfl (by simp) (by rw [hsession]; rfl) (by rw [hsession]) (by rw [hsession]) ?_
    exact .leaving (idles.trans (callOff_idles s.agent))
  | leaving idles =>
    simp only [Running.loopStep, nextSession, hst] at hsession ⊢
    refine h.next rfl (by simp) (by rw [hsession]; rfl) (by rw [hsession]) (by rw [hsession]) ?_
    have hforgot : s.agent.Idles { s.agent with current := none } := ⟨rfl, rfl, .of_same rfl⟩
    exact .ended (idles.trans hforgot) (.refl _)
  | ended idles left =>
    simp only [Running.loopStep, hst]
    exact h.next rfl (by simp) rfl rfl rfl h.departure

theorem Step.departs (h : Step s l t) (hdeparts : Departs c exit hs s) :
    Departs c exit (hs ++ l) t := by
  obtain ⟨hstation, hwants, hothers, hinput, hstatus, htornDown, hidles⟩ | ⟨-, rfl, rfl⟩ |
    ⟨m, hm, -⟩ := h.rests_or_own
  · refine hdeparts.next hwants hothers hinput hstatus htornDown ?_
    rw [hstation]
    exact hdeparts.departure.idle hidles
  · exact hdeparts.loopStep
  · rw [hdeparts.silent] at hm
    cases hm

/-- From the moment when it closes its session an agent only takes its leave. -/
theorem Execution.departs (hclosing : c.station = .closing exit) (free : c.wants .loop = none)
    (run : Execution c.loopStep.2 hs s) : Departs c exit hs s := by
  induction run with
  | start =>
    rw [Running.loopStep, hclosing]
    exact ⟨free, by simp, rfl, rfl, rfl, .dismissing (.refl _)⟩
  | step before step ih => exact step.departs ih

/-- An agent that is past the end of its session has closed it. -/
theorem Execution.exists_closing (fresh : start.IsFresh) (run : Execution start hs s)
    (hpast : s.station.isPast = true) : ∃ before c after exit, hs = before ++ after ∧
      Execution start before c ∧ c.station = .closing exit ∧ c.wants .loop = none ∧
      Execution c.loopStep.2 after s := by
  induction run with
  | start =>
    rw [fresh.looks] at hpast
    cases hpast
  | @step hs l s t before step ih =>
    cases hs : s.station.isPast with
    | true =>
      obtain ⟨pre, c, after, exit, rfl, hpre, hclosing, free, hafter⟩ := ih hs
      exact ⟨pre, c, after ++ l, exit, List.append_assoc .., hpre, hclosing, free,
        hafter.step step⟩
    | false =>
      obtain ⟨exit, hclosing⟩ := step.stride.closing_of_isPast hs hpast
      change s.station = .closing exit at hclosing
      obtain hrests | ⟨free, rfl, rfl⟩ | ⟨m, hm, -⟩ := step.rests_or_own
      · rw [hrests.station, hs] at hpast
        cases hpast
      · have hsilent : s.loopStep.1 = [] := by rw [Running.loopStep, hclosing]
        rw [hsilent]
        exact ⟨_, s, [], exit, rfl, before, hclosing, free, .start⟩
      · -- A loop that is to close the session has nothing to write.
        have hutters := before.utters fresh m hm
        rw [hclosing] at hutters
        exact hutters.elim

/-! The whole of it. -/

/-- What there is to see of an agent that stood at `c` when it closed its session, and has left it
with an exit: but for deliveries that have begun, it has done three things since. It has made no
call, has neither received anything nor replied, and has only taken the session out of the
registry. -/
structure HasLeft (c : Running β ρ) (exit : Exit) (hs : List Happening) (s : Running β ρ) :
    Prop where
  acts : c.agent.Adds s.agent [.endedSession, .removed c.agent.record.id,
    .noted c.agent.record.id (.closed exit.reason)]
  registry : s.agent.registry = Registry.remove c.agent.record.id c.agent.registry
  others : ∀ e ∈ hs, e.party? ≠ some .loop
  input : s.agent.session.input = allArrived c.agent.session.input hs

omit [Backend.Server β] in
theorem Departs.hasLeft (h : Departs c exit hs s) (hended : s.station = .ended exit)
    (isOpen : c.agent.record.status ≠ .terminated) : HasLeft c exit hs s := by
  have hdeparture := h.departure
  rw [hended] at hdeparture
  cases hdeparture with
  | @ended b c' idles left =>
    have hclosed : c.agent.Adds c.agent.endSession [.endedSession] :=
      .did rfl { c.agent with session := c.agent.session.close }
    have hopen : b.record.status ≠ .terminated := by
      rw [idles.status]
      exact isOpen
    have hid : b.record.id = c.agent.record.id := idles.sameId
    obtain ⟨hregistry, hacts⟩ := Agent.leave_of_open exit hopen
    rw [hid] at hregistry hacts
    refine ⟨?_, ?_, h.others, h.input⟩
    · exact (hclosed.trans idles.acts).trans (hacts.trans left.acts)
    · rw [left.registry, hregistry, idles.registry]
      rfl

/-- Nothing is left of a session: it has ended, deliveries of its events have been told to end, and
the registry does not know it. The last thing that its record has entered into the journal, and the
only one of its kind, is that the session was closed, and why. The session was ended once, and
afterwards the agent has only left it. -/
structure IsTornDown (start : Running β ρ) (hs : List Happening) (s : Running β ρ) (exit : Exit) :
    Prop where
  status : s.agent.session.status = .terminated
  tornDown : s.agent.session.tornDown = true
  unregistered : Registry.get? start.agent.session.id s.agent.registry = none
  journal : ∃ events : List SessionEvent, (∀ e ∈ events, ∀ reason, e ≠ .closed reason) ∧
    s.agent.journal = start.agent.journal ++
      (events ++ [SessionEvent.closed exit.reason]).map fun e => (start.agent.session.id, e)
  closedOnce : ∃ before c after, hs = before ++ after ∧ Execution start before c ∧
    c.station = .closing exit ∧ (∃ l, start.agent.Adds c.agent l ∧ Act.endedSession ∉ l) ∧
    Execution c.loopStep.2 after s ∧ HasLeft c exit after s

theorem Execution.isTornDown [LawfulRegistry ρ] (h : start.IsEstablished)
    (run : Execution start hs s) (hended : s.station = .ended exit) :
    IsTornDown start hs s exit := by
  have hpast : s.station.isPast = true := by
    rw [hended]
    rfl
  obtain ⟨before, c, after, exit', hhs, hbefore, hclosing, free, hafter⟩ :=
    run.exists_closing h.toIsFresh hpast
  have hdeparts := hafter.departs hclosing free
  obtain rfl : exit' = exit := by
    have hdeparture := hdeparts.departure
    rw [hended] at hdeparture
    cases hdeparture
    rfl
  have hcarries := hbefore.carriesOn h (by rw [hclosing]; rfl)
  have hleft := hdeparts.hasLeft hended (hcarries.lives h.isOpen)
  have hid : c.agent.record.id = start.agent.session.id := hcarries.sameId.trans h.records
  obtain ⟨l, hadds, husual⟩ := hcarries.acts
  refine ⟨hdeparts.status, hdeparts.tornDown, ?_, ?_, before, c, after, hhs, hbefore, hclosing,
    ⟨l, hadds, fun hmem => husual _ hmem⟩, hafter, hleft⟩
  · rw [hleft.registry, hid, LawfulRegistry.get?_remove, if_pos rfl]
  · obtain ⟨events, hevents, heq⟩ := Act.entries_of_isUsual husual
    refine ⟨events, hevents, ?_⟩
    rw [(hadds.trans hleft.acts).journal, List.filterMap_append, heq, h.records, hid,
      List.map_append]
    rfl

/-- However the life of an agent ends, and whatever its client, the management server and whoever
may ask it to end do on the way, nothing is left of its session. -/
theorem ended_isTornDown [LawfulRegistry ρ] (h : start.IsEstablished) :
    (∀ hs s exit, Execution start hs s → s.station = .ended exit → IsTornDown start hs s exit) ∧
      ∀ exit a, start.agent.serve = (.ended exit, a) →
        ∃ hs, IsTornDown start hs (at_ (.ended exit) a) exit := by
  refine ⟨fun hs s exit run hended => run.isTornDown h hended, fun exit a hserve => ?_⟩
  obtain ⟨hs, run, -⟩ := reaches_serve start.agent
  rw [h.at_looking, hserve] at run
  exact ⟨hs, run.isTornDown h rfl⟩

theorem departing_isTornDown : departing.IsEstablished ∧
    ∃ a hs, departing.agent.serve = (.ended .closed, a) ∧
      IsTornDown departing hs (at_ (.ended .closed) a) .closed := by
  have h : departing.IsEstablished := ⟨⟨rfl, rfl, rfl, rfl, rfl⟩, rfl, rfl, by decide⟩
  have hserve : departing.agent.serve = (.ended .closed, departing.agent.serve.2) :=
    Prod.ext departing_exit rfl
  obtain ⟨hs, htorn⟩ := (ended_isTornDown h).2 .closed _ hserve
  exact ⟨h, _, hs, hserve, htorn⟩

end Running

theorem ClientStream.accept_status {c : ClientStream} {server : Capabilities}
    {username : Option String} {session : FramedSession}
    (h : (c.accept server username).1 = .ok session) : session.status = .working := by
  unfold accept at h
  split at h
  · cases h
  · split at h
    · cases h
    · split at h
      · cases h
      · cases h
        rfl

/-- An agent that has come out of a handshake is about to begin its work. -/
theorem Handshake.isEstablished_of_ok {β ρ : Type} [Backend.Server β] [Registry ρ]
    {h : Handshake ClientStream β ρ}
    {a : Agent FramedSession Delivery β ρ}
    (hok : (h.run : Result ClientStream FramedSession Delivery β ρ).outcome = .ok a) :
    Running.IsEstablished { agent := a } := by
  obtain ⟨e, he, -⟩ | ⟨server, caps, user, session, ha⟩ := fails_or_accepts h
  · rw [outcome_of_fails he] at hok
    cases hok
  · have hworks : session.status = .working := by
      obtain ⟨-, -, hs⟩ := ha
      change (h.acceptor.accept caps user).1.mapError SessionError.accept = .ok session at hs
      generalize haccepted : (h.acceptor.accept caps user).1 = accepted at hs
      cases accepted with
      | error e => cases hs
      | ok session' =>
        cases hs
        exact ClientStream.accept_status haccepted
    cases hi : (Backend.Server.inform (infoOf (h.recordOf user session)) server).1 with
    | error e =>
      rw [run_of_uninformed ha hi] at hok
      cases hok
    | ok u =>
      rw [run_of_informed ha hi] at hok
      cases hok
      exact ⟨⟨rfl, rfl, rfl, rfl, rfl⟩, hworks, rfl, by simp [recordOf]⟩

end Netconf
