import Netconf.Proofs.Agent.Call
import Netconf.Proofs.Agent.Intake

/-! What can be told of the loop of an agent at work, and all that a step can do to it. Whatever
else the steps do, to tasks and to the writer, leaves the loop where it stands. -/
namespace Netconf

namespace Station

/-- How the agent's life ends, where it is at its end. -/
def exit? : Station → Option Exit
  | closing exit => some exit
  | dismissing exit => some exit
  | leaving exit => some exit
  | ended exit => some exit
  | _ => none

end Station

def Happening.decided? : Happening → Option Rpc.Request
  | decided r _ => some r
  | _ => none

/-- Whether something changes what has come in, what has been taken or what has been decided. -/
def Happening.isCourse (e : Happening) : Bool := e.isIntake || e.decided?.isSome

/-- The status of a session after a request. -/
def Rpc.Request.statusAfter (r : Rpc.Request) (status : Status) : Status :=
  if r.operation = .closeSession then .terminating else status

/-- How the loop stands: where, in a session of which status, with what still to be read, whether
the agent has been asked to end, and with which calls made. -/
structure Standing where
  station : Station
  status : Status
  input : Incoming
  asked : Bool
  calls : List Backend.Call

/-- The terms of a session, which never change. -/
structure Terms where
  id : SessionId
  framing : Framing
  limit : Nat

namespace Terms

def read (terms : Terms) (input : Incoming) : Framing.Outcome × Incoming :=
  terms.framing.read terms.limit input

end Terms

/-- What a step can do to the loop. -/
inductive Stride (terms : Terms) : Standing → List Happening → Standing → Prop
  /-- The step is another party's, or the loop is about to write or has nothing to do. -/
  | rest {v : Standing} {l : List Happening} (quiet : ∀ e ∈ l, e.isCourse = false) :
      Stride terms v l v
  | arrive {v : Standing} (more : Incoming) :
      Stride terms v [.arrived more] { v with input := v.input.append more }
  | ask {v : Standing} : Stride terms v [] { v with asked := true }
  | obey {v : Standing} (at_ : v.station = .looking) (asked : v.asked = true) :
      Stride terms v [] { v with station := .closing .shutdown }
  | retire {v : Standing} (at_ : v.station = .looking) (unasked : v.asked = false)
      (idle : v.status ≠ .working) : Stride terms v [] { v with station := .closing .closed }
  | proceed {v : Standing} (at_ : v.station = .looking) (unasked : v.asked = false)
      (works : v.status = .working) : Stride terms v [] { v with station := .waiting }
  | refuse {v : Standing} (at_ : v.station = .waiting) (ended : v.status = .terminated)
      (e : SessionError) : Stride terms v [] { v with station := .closing (.fatal (.wait e)) }
  | timeout {v : Standing} (at_ : v.station = .waiting) (input : v.input = .silent) :
      Stride terms v [] { v with station := .looking }
  | interrupt {v : Standing} {rest : Incoming} (at_ : v.station = .waiting)
      (input : v.input = .fault .interrupted rest) :
      Stride terms v [] { v with station := .looking, input := rest }
  | fault {v : Standing} {f : Fault} {rest : Incoming} (at_ : v.station = .waiting)
      (input : v.input = .fault f rest) :
      Stride terms v [] { v with station := .closing (.fatal (.transport f)), input := rest }
  | vanish {v : Standing} (at_ : v.station = .waiting) (input : v.input = .closed) :
      Stride terms v [] { v with
        station := .closing .hungUp, calls := v.calls ++ [.close terms.id] }
  | ready {v : Standing} {b : UInt8} {rest : Incoming} (at_ : v.station = .waiting)
      (input : v.input = .byte b rest) : Stride terms v [] { v with station := .receiving }
  | take {v : Standing} {m : Bytes} {rest : Incoming} (at_ : v.station = .receiving)
      (read : terms.read v.input = (.message m, rest)) :
      Stride terms v [.took m] { v with station := .judging m, input := rest }
  | close {v : Standing} {rest : Incoming} (at_ : v.station = .receiving)
      (read : terms.read v.input = (.failure .closed, rest)) :
      Stride terms v [] { v with station := .heeding .hungUp, input := rest }
  | lose {v : Standing} {e : FramingError} {rest : Incoming} (at_ : v.station = .receiving)
      (read : terms.read v.input = (.failure e, rest)) (broken : e ≠ .closed) :
      Stride terms v [] { v with
        station := .heeding .unknown, input := rest, status := .terminated }
  | starve {v : Standing} {rest : Incoming} (at_ : v.station = .receiving)
      (read : terms.read v.input = (.blocked, rest)) :
      Stride terms v [] { v with station := .waiting }
  | judge {v : Standing} {l : List Happening} {m : Bytes} (at_ : v.station = .judging m)
      (quiet : ∀ e ∈ l, e.isCourse = false) :
      Stride terms v l { v with station := .heeding (FramedSession.judge m).1 }
  | attend {v : Standing} {r : Rpc.Request} (at_ : v.station = .heeding (.request r)) :
      Stride terms v [] { v with station := .dispatching r }
  | ignore {v : Standing} (at_ : v.station = .heeding .nothing) :
      Stride terms v [] { v with station := .looking }
  | pass {v : Standing} (at_ : v.station = .heeding .unknown) (works : v.status = .working) :
      Stride terms v [] { v with station := .looking }
  | giveUp {v : Standing} (at_ : v.station = .heeding .unknown) (idle : v.status ≠ .working) :
      Stride terms v [] { v with station := .closing (.fatal .unusable) }
  | hangUp {v : Standing} (at_ : v.station = .heeding .hungUp) :
      Stride terms v [] { v with
        station := .closing .hungUp, calls := v.calls ++ [.close terms.id] }
  | decide {v : Standing} {r : Rpc.Request} {d : Dispatch} {call : Option Backend.Call}
      (at_ : v.station = .dispatching r) (asks : r.Asks terms.id call) :
      Stride terms v [.decided r d] { v with
        station := .replying r d, status := r.statusAfter v.status
        calls := v.calls ++ call.toList }
  | reply {v : Standing} {l : List Happening} {r : Rpc.Request} {d : Dispatch}
      (at_ : v.station = .replying r d) (quiet : ∀ e ∈ l, e.isCourse = false) :
      Stride terms v l { v with station := .recording r d }
  | record {v : Standing} {r : Rpc.Request} {d : Dispatch} (at_ : v.station = .recording r d) :
      Stride terms v [] { v with station := .looking }
  | shut {v : Standing} {exit : Exit} (at_ : v.station = .closing exit) :
      Stride terms v [] { v with station := .dismissing exit, status := .terminated }
  | dismiss {v : Standing} {exit : Exit} (at_ : v.station = .dismissing exit) :
      Stride terms v [] { v with station := .leaving exit }
  | leave {v : Standing} {exit : Exit} (at_ : v.station = .leaving exit) :
      Stride terms v [] { v with station := .ended exit }

namespace Agent

variable {β ρ : Type} {a b c : Agent FramedSession Delivery β ρ}

/-- Two agents of which the one has made no more calls than the other, and has been asked to end
if the other has. -/
structure Discreet (a b : Agent FramedSession Delivery β ρ) : Prop where
  shutdown : b.shutdown = a.shutdown
  calls : b.calls = a.calls

namespace Discreet

theorem refl (a : Agent FramedSession Delivery β ρ) : Discreet a a := ⟨rfl, rfl⟩

theorem trans (hab : Discreet a b) (hbc : Discreet b c) : Discreet a c :=
  ⟨hbc.shutdown.trans hab.shutdown, hbc.calls.trans hab.calls⟩

theorem did (act : Act) (h : act.call? = none) (a : Agent FramedSession Delivery β ρ) :
    Discreet a (a.did act) := by
  refine ⟨rfl, ?_⟩
  rw [calls_did, h]
  exact List.append_nil _

theorem note (entry : SessionRecord × SessionEvent) (a : Agent FramedSession Delivery β ρ) :
    Discreet a (a.note entry) :=
  ⟨rfl, (did (.noted entry.1.id entry.2) rfl { a with record := entry.1 }).calls⟩

theorem publish [Registry ρ] (a : Agent FramedSession Delivery β ρ) : Discreet a a.publish :=
  ⟨rfl, (did (.updated a.record.snapshot) rfl
    { a with registry := Registry.update a.record.snapshot a.registry }).calls⟩

theorem count [Registry ρ] (r : Rpc.Request) (reply : Rpc.Reply)
    (a : Agent FramedSession Delivery β ρ) : Discreet a (a.count r reply) := by
  unfold Agent.count
  split
  · exact (note _ a).trans (publish _)
  · exact publish a

theorem release (i : Nat) (a : Agent FramedSession Delivery β ρ) : Discreet a (a.release i) := by
  unfold Agent.release
  split <;> exact ⟨rfl, rfl⟩

theorem launch (d : Dispatch) (a : Agent FramedSession Delivery β ρ) :
    Discreet a (a.launch d) := by
  unfold Agent.launch
  split
  · next i _ =>
    have hrelease := release i a
    have hcurrent : Discreet a { a.release i with current := some i } :=
      ⟨hrelease.shutdown, hrelease.calls⟩
    exact hcurrent.trans (note _ _)
  · exact refl a

theorem callOff (a : Agent FramedSession Delivery β ρ) : Discreet a (Running.callOff a) := by
  unfold Running.callOff Agent.withdraw
  split
  · split <;> exact ⟨rfl, rfl⟩
  · exact refl a

theorem leave [Registry ρ] (exit : Exit) (a : Agent FramedSession Delivery β ρ) :
    Discreet a (a.leave exit) := by
  have hremoved : Discreet a
      ({ a with registry := Registry.remove a.record.id a.registry }.did (.removed a.record.id)) :=
    ⟨rfl, (did (.removed a.record.id) rfl
      { a with registry := Registry.remove a.record.id a.registry }).calls⟩
  unfold Agent.leave
  dsimp only
  split
  · exact hremoved.trans (note _ _)
  · exact hremoved

theorem progress (i : Nat) (p : Progress Delivery) (a : Agent FramedSession Delivery β ρ) :
    Discreet a (a.progress i p).1 := by
  cases p <;> exact ⟨rfl, rfl⟩

theorem stepTask (i : Nat) (a : Agent FramedSession Delivery β ρ) :
    Discreet a (a.stepTask i).1 := by
  unfold Agent.stepTask
  split
  · exact refl a
  · next t _ =>
    split
    · exact ⟨rfl, rfl⟩
    · have hbegan : ∀ session, Discreet a ({ a with session }.did (.beganDelivery t.request)) :=
        fun session => ⟨rfl, (did (.beganDelivery t.request) rfl { a with session }).calls⟩
      exact (hbegan _).trans (progress i (Conversation.subscribe a.now t.request a.session).1 _)
    · next d _ =>
      have hsession : ∀ session, Discreet a { a with session } := fun session => ⟨rfl, rfl⟩
      exact (hsession _).trans (progress i (Conversation.deliver a.now d a.session).1 _)
    · exact refl a

theorem createSubscription (r : Rpc.Request) (a : Agent FramedSession Delivery β ρ) :
    Discreet a (a.createSubscription r).2 := by
  refine ⟨?_, (createSubscription_calls r a).1⟩
  unfold Agent.createSubscription
  split
  · rfl
  · split
    · rfl
    · split
      · rfl
      · dsimp only
        split
        · rfl
        · split <;> rfl

end Discreet

variable [Backend.Server β]

theorem dispatch_shutdown (r : Rpc.Request) (a : Agent FramedSession Delivery β ρ) :
    (a.dispatch r).2.shutdown = a.shutdown := by
  unfold dispatch
  split
  · rfl
  · unfold killSession
    split <;> rfl
  · exact (Discreet.createSubscription r a).shutdown
  · rfl

theorem dispatch_status (r : Rpc.Request) (a : Agent FramedSession Delivery β ρ) :
    (a.dispatch r).2.session = { a.session with status := r.statusAfter a.session.status } := by
  cases hr : r.operation with
  | closeSession =>
    rw [dispatch, hr, Rpc.Request.statusAfter, if_pos hr]
    rfl
  | killSession =>
    simp only [dispatch, hr, killSession, Rpc.Request.statusAfter]
    split <;> rfl
  | createSubscription =>
    rw [dispatch_of_asks hr, Rpc.Request.statusAfter, if_neg (by simp [hr])]
    by_cases h : a.Accepts r
    · rw [createSubscription_of_accepts h]
      rfl
    · exact (createSubscription_of_not_accepts hr h).2.2.session
  | other name =>
    simp only [dispatch, hr, Rpc.Request.statusAfter]
    rfl

end Agent

namespace Running

variable {β ρ : Type} {start s t : Running β ρ} {hs l : List Happening}

def standing (s : Running β ρ) : Standing :=
  { station := s.station, status := s.agent.session.status, input := s.agent.session.input,
    asked := s.agent.shutdown.isRequested, calls := s.agent.calls }

def terms (s : Running β ρ) : Terms :=
  { id := s.agent.session.id, framing := s.agent.session.framing, limit := s.agent.session.limit }

/-- A step that leaves the loop where it stands. -/
theorem stride_of_same (hstation : t.station = s.station)
    (hstatus : t.agent.session.status = s.agent.session.status)
    (hinput : t.agent.session.input = s.agent.session.input) (h : s.agent.Discreet t.agent)
    (quiet : ∀ e ∈ l, e.isCourse = false) : Stride s.terms s.standing l t.standing := by
  have hsame : t.standing = s.standing := by
    rw [standing, standing, hstation, hstatus, hinput, h.shutdown, h.calls]
  rw [hsame]
  exact .rest quiet

theorem look_stride (hstation : s.station = .looking) :
    Stride s.terms s.standing [] s.look.standing := by
  unfold look Agent.look
  by_cases hasked : s.agent.shutdown.isRequested = true
  · rw [if_pos hasked]
    exact .obey hstation hasked
  · rw [if_neg hasked]
    have hunasked : s.agent.shutdown.isRequested = false := eq_false_of_ne_true hasked
    dsimp only
    by_cases hworks : Conversation.status s.agent.session = .working
    · rw [if_pos hworks]
      exact .proceed hstation hunasked hworks
    · rw [if_neg hworks]
      exact .retire hstation hunasked hworks

theorem receive_stride (hstation : s.station = .receiving) :
    Stride s.terms s.standing s.receive.1 s.receive.2.standing := by
  unfold receive
  dsimp only
  split
  · next m rest hread => exact .take hstation hread
  · next rest hread => exact .close hstation hread
  · next e rest hne hread =>
    have hbroken : e ≠ .closed := by
      rintro rfl
      exact hne rfl
    exact .lose hstation hread hbroken
  · next rest hread => exact .starve hstation hread

theorem judge_stride {m : Bytes} (hstation : s.station = .judging m) :
    Stride s.terms s.standing (s.judge m).1 (s.judge m).2.standing := by
  unfold judge
  split
  · next r hjudge =>
    have hr : r = (FramedSession.judge m).1 := by rw [hjudge]
    rw [hr]
    exact .judge hstation (by simp)
  · exact stride_of_same rfl rfl rfl (.refl _) (by simp [want, Happening.isCourse,
      Happening.isIntake, Happening.decided?])

theorem reply_stride {r : Rpc.Request} {d : Dispatch} (hstation : s.station = .replying r d) :
    Stride s.terms s.standing (s.reply r d).1 (s.reply r d).2.standing := by
  unfold reply
  split
  · have hcalls := (Agent.Discreet.did (.replied r d.reply) rfl s.agent).calls
    have hstanding : (s.goTo (.recording r d) (s.agent.did (.replied r d.reply))).standing =
        { s.standing with station := .recording r d } := by
      rw [standing, standing, goTo, hcalls]
      rfl
    rw [hstanding]
    exact .reply hstation (by simp)
  · exact stride_of_same rfl rfl rfl (.refl _) (by simp [want, Happening.isCourse,
      Happening.isIntake, Happening.decided?])

/-- The standing of the loop where it goes to when nothing but books have been written. -/
theorem goTo_standing (station : Station) {a : Agent FramedSession Delivery β ρ}
    (h : s.agent.Discreet a) (hsession : a.session = s.agent.session) :
    (s.goTo station a).standing = { s.standing with station } := by
  rw [standing, standing, goTo, hsession, h.shutdown, h.calls]

theorem goOn_stride (p : Party) (m : Message) (quiet : ∀ e ∈ l, e.isCourse = false) :
    Stride s.terms s.standing l ((s.quit p).goOn p m).standing := by
  cases p with
  | loop =>
    unfold goOn
    dsimp only [quit]
    split
    · next x hst => exact .judge hst quiet
    · next r d hst =>
      have hstanding : ((s.quit .loop).goTo (.recording r d)
          (s.agent.did (.replied r d.reply))).standing =
          { s.standing with station := .recording r d } :=
        goTo_standing _ (Agent.Discreet.did (.replied r d.reply) rfl s.agent) rfl
      exact hstanding.symm ▸ .reply hst quiet
    · exact stride_of_same rfl rfl rfl (.refl _) quiet
  | task i =>
    refine stride_of_same (goOn_task_station i m _) ?_ ?_ ?_ quiet
    · rw [goOn_session]
    · rw [goOn_session]
    · unfold goOn
      dsimp only [quit]
      split
      · split <;> exact ⟨rfl, rfl⟩
      · exact ⟨rfl, rfl⟩

variable [Backend.Server β]

omit [Backend.Server β] in
theorem waited_standing (outcome : Except SessionError Readiness) (session : FramedSession)
    (station : Station) :
    (s.goTo station ({ s.agent with session }.did (.waited outcome))).standing =
      { s.standing with station, status := session.status, input := session.input } := by
  have hcalls := (Agent.Discreet.did (.waited outcome) rfl { s.agent with session }).calls
  rw [standing, standing, goTo, hcalls]
  rfl

/-- The loop that finds its client gone closes the session at the management server. -/
theorem hangUp_standing {a : Agent FramedSession Delivery β ρ}
    (h : s.agent.Discreet a) (hsession : a.session = s.agent.session) :
    (s.turned a.hangUp).standing = { s.standing with
      station := .closing .hungUp
      calls := s.standing.calls ++ [.close s.terms.id] } := by
  have hcalls : a.hangUp.2.calls = s.agent.calls ++ [.close a.session.id] := by
    rw [← h.calls]
    exact Agent.calls_did (.closed a.session.id) _
  have hshutdown : a.hangUp.2.shutdown = s.agent.shutdown := h.shutdown
  have hkept : a.hangUp.2.session = s.agent.session := hsession
  rw [standing, turned, goTo, hcalls, hshutdown, hkept, hsession]
  rfl

theorem wait_stride (hstation : s.station = .waiting) :
    Stride s.terms s.standing [] s.wait.standing := by
  unfold wait FramedSession.wait
  by_cases hover : s.agent.session.status = .terminated
  · simp only [if_pos hover]
    rw [waited_standing]
    exact .refuse hstation hover .terminated
  · simp only [if_neg hover]
    cases hinput : s.agent.session.input with
    | silent =>
      rw [waited_standing]
      exact .timeout hstation hinput
    | closed =>
      have hwaited : s.agent.Discreet (s.agent.did (.waited (.ok .hungUp))) := .did _ rfl _
      change Stride s.terms s.standing []
        (s.turned (s.agent.did (.waited (.ok .hungUp))).hangUp).standing
      rw [hangUp_standing hwaited rfl]
      exact .vanish hstation hinput
    | byte b rest =>
      rw [waited_standing]
      exact .ready hstation hinput
    | fault f rest =>
      cases f with
      | interrupted =>
        rw [waited_standing]
        exact .interrupt hstation hinput
      | _ =>
        rw [waited_standing]
        exact .fault hstation hinput

theorem dispatch_stride {r : Rpc.Request} (hstation : s.station = .dispatching r) :
    Stride s.terms s.standing (s.dispatch r).1 (s.dispatch r).2.standing := by
  obtain ⟨call, hasks, hcalls, -, -⟩ := s.agent.dispatch_asks r
  have hstanding : (s.dispatch r).2.standing = { s.standing with
      station := .replying r (s.agent.dispatch r).1
      status := r.statusAfter s.agent.session.status
      calls := s.agent.calls ++ call.toList } := by
    simp only [standing, dispatch, goTo, hcalls, Agent.dispatch_status, Agent.dispatch_shutdown]
  rw [hstanding]
  exact .decide hstation hasks

variable [Registry ρ]

theorem heed_stride {r : Received} (hstation : s.station = .heeding r) :
    Stride s.terms s.standing [] (s.heed r).standing := by
  have hreceived : s.agent.Discreet (s.agent.did (.received r)) := .did _ rfl _
  cases r with
  | nothing =>
    have hstanding : (s.heed .nothing).standing = { s.standing with station := .looking } :=
      goTo_standing .looking hreceived rfl
    rw [hstanding]
    exact .ignore hstation
  | hungUp =>
    have hstanding : (s.heed .hungUp).standing = { s.standing with
        station := .closing .hungUp
        calls := s.standing.calls ++ [.close s.terms.id] } := hangUp_standing hreceived rfl
    rw [hstanding]
    exact .hangUp hstation
  | request q =>
    have hstanding : (s.heed (.request q)).standing =
        { s.standing with station := .dispatching q } := goTo_standing _ hreceived rfl
    rw [hstanding]
    exact .attend hstation
  | unknown =>
    have hrejected := hreceived.trans ((Agent.Discreet.note
      (s.agent.did (.received .unknown)).record.rejected _).trans (.publish _))
    unfold heed turned Agent.heed Agent.reject
    dsimp only
    split
    · next hworks =>
      rw [goTo_standing _ hrejected rfl]
      exact .pass hstation hworks
    · next hidle =>
      rw [goTo_standing _ hrejected rfl]
      exact .giveUp hstation hidle

theorem loopStep_stride (s : Running β ρ) :
    Stride s.terms s.standing s.loopStep.1 s.loopStep.2.standing := by
  have hnext := s.loopStep_session
  unfold loopStep
  cases hst : s.station with
  | looking => exact look_stride hst
  | waiting => exact wait_stride hst
  | receiving => exact receive_stride hst
  | judging m => exact judge_stride hst
  | heeding r => exact heed_stride hst
  | dispatching r => exact dispatch_stride hst
  | replying r d => exact reply_stride hst
  | recording r d =>
    have hcount := (Agent.Discreet.launch d s.agent).trans (.count r d.reply _)
    simp only [loopStep, nextSession, hst] at hnext
    rw [goTo_standing _ hcount hnext]
    exact .record hst
  | closing exit =>
    have hcalls := (Agent.Discreet.did .endedSession rfl
      { s.agent with session := s.agent.session.close }).calls
    have hstanding : (s.goTo (.dismissing exit) s.agent.endSession).standing =
        { s.standing with station := .dismissing exit, status := .terminated } := by
      rw [standing, standing, goTo, Agent.endSession]
      exact congrArg (fun calls => Standing.mk (.dismissing exit) .terminated
        s.agent.session.input s.agent.shutdown.isRequested calls) hcalls
    rw [hstanding]
    exact .shut hst
  | dismissing exit =>
    simp only [loopStep, nextSession, hst] at hnext
    rw [goTo_standing _ (.callOff s.agent) hnext]
    exact .dismiss hst
  | leaving exit =>
    simp only [loopStep, nextSession, hst] at hnext
    have hforgot : s.agent.Discreet { s.agent with current := none } := ⟨rfl, rfl⟩
    rw [goTo_standing _ (hforgot.trans (.leave exit _)) hnext]
    exact .leave hst
  | ended exit => exact stride_of_same rfl rfl rfl (.refl _) (by simp)

omit [Backend.Server β] [Registry ρ] in
theorem taskStep_discreet (s : Running β ρ) (i : Nat) :
    s.agent.Discreet (s.taskStep i).2.agent := by
  obtain hsame | hstep := s.taskStep_agent i
  · rw [hsame]
    exact .refl _
  · rw [hstep]
    exact .stepTask i s.agent

theorem Step.stride (h : Step s l t) : Stride s.terms s.standing l t.standing := by
  cases h with
  | loop free => exact loopStep_stride s
  | task i free =>
    obtain ⟨source, hsession⟩ := s.taskStep_session i
    refine stride_of_same (s.taskStep_station i).1 (by rw [hsession]) (by rw [hsession])
      (s.taskStep_discreet i) ?_
    intro e he
    obtain ⟨m, rfl⟩ := mem_taskStep he
    rfl
  | acquire wanted free => exact stride_of_same rfl rfl rfl (.refl _) (by simp)
  | write held => exact stride_of_same rfl rfl rfl ⟨rfl, rfl⟩ (by simp)
  | finish wanted held =>
    exact goOn_stride _ _ (by simp [Happening.isCourse, Happening.isIntake, Happening.decided?])
  | fail wanted =>
    exact goOn_stride _ _ (by simp [Happening.isCourse, Happening.isIntake, Happening.decided?])
  | perish stage alive dead =>
    refine stride_of_same rfl rfl rfl ⟨rfl, rfl⟩ ?_
    split <;> simp [Happening.isCourse, Happening.isIntake, Happening.decided?]
  | arrive more => exact .arrive more
  | feed more stage => exact stride_of_same rfl rfl rfl ⟨rfl, rfl⟩ (by simp)
  | tick now => exact stride_of_same rfl rfl rfl ⟨rfl, rfl⟩ (by simp)
  | ask =>
    have hasked : s.agent.shutdown.request.isRequested = true := by
      cases s.agent.shutdown <;> rfl
    have hstanding : Running.standing
        { s with agent.shutdown := s.agent.shutdown.request } =
        { s.standing with asked := true } := by
      rw [standing, standing, hasked]
      rfl
    rw [hstanding]
    exact .ask
  | serve server => exact stride_of_same rfl rfl rfl ⟨rfl, rfl⟩ (by simp)
  | enable canSpawn => exact stride_of_same rfl rfl rfl ⟨rfl, rfl⟩ (by simp)

theorem loopStep_id (s : Running β ρ) :
    s.loopStep.2.agent.session.id = s.agent.session.id := by
  rw [loopStep_session]
  unfold nextSession
  split
  · unfold FramedSession.wait
    split
    · rfl
    · split <;> rfl
  · unfold receive
    dsimp only
    split <;> rfl
  · rw [Agent.dispatch_status]
  · rfl
  · rfl

theorem Step.id (h : Step s l t) : t.agent.session.id = s.agent.session.id := by
  cases h with
  | loop free => exact loopStep_id s
  | task i free =>
    obtain ⟨source, hsession⟩ := s.taskStep_session i
    rw [hsession]
  | finish wanted held => rw [goOn_session]
  | fail wanted => rw [goOn_session]
  | _ => rfl

theorem Execution.same_terms (run : Execution start hs s) : s.terms = start.terms := by
  induction run with
  | start => rfl
  | step before step ih =>
    obtain ⟨hframing, hlimit, -⟩ := step.terms
    rw [← ih, Running.terms, Running.terms, step.id, hframing, hlimit]

/-- Every step of a run is a stride on the terms that the session began with. -/
theorem Execution.stride (run : Execution start hs s) (step : Step s l t) :
    Stride start.terms s.standing l t.standing := by
  rw [← run.same_terms]
  exact step.stride

end Running
end Netconf
