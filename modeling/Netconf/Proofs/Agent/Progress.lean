import Netconf.Proofs.Agent.Acceptance
import Netconf.Proofs.Agent.Running
import Netconf.Proofs.Framing.Frame
import Netconf.Proofs.Xml.Evaluation
import Netconf.Rehearsal.Server

/-! What an agent at work can go on to do: take a message that has come in, answer it if it is a
request and refuse or drop it otherwise, begin the delivery of a subscription that has been
accepted, and deliver an event. -/
namespace Netconf.Running

variable {β ρ : Type} {start s : Running β ρ} {hs : List Happening}

/-- The loop is about to look whether to go on, will find that it is, and nobody writes. -/
structure IsReady (s : Running β ρ) : Prop where
  looks : s.station = .looking
  wants : s.wants = fun _ => none
  writer : s.writer = none
  goesOn : s.agent.shutdown.isRequested = false
  works : s.agent.session.status = .working

/-- What comes in next is a message in its frame, with something behind it. -/
structure Brings (s : Running β ρ) (m : Bytes) (rest : Incoming) : Prop where
  begun : ∃ b more, s.agent.session.input = .byte b more
  read : s.agent.session.framing.read s.agent.session.limit s.agent.session.input =
    (.message m, rest)

theorem Brings.of_frame {m : Bytes} {rest : Incoming}
    (carries : s.agent.session.framing.Carries s.agent.session.limit m)
    (input : s.agent.session.input = .ofBytes (s.agent.session.framing.encode m) rest) :
    s.Brings m rest where
  begun := by
    obtain ⟨b, more, hopens⟩ := List.exists_cons_of_ne_nil (Framing.encode_ne_nil _ m)
    exact ⟨b, .ofBytes more rest, by rw [input, hopens]; rfl⟩
  read := by
    rw [input]
    exact Framing.read_encode carries rest

/-- The first of several messages in their frames. -/
theorem Brings.of_frames {m : Bytes} {ms : List Bytes} {rest : Incoming}
    (carries : s.agent.session.framing.Carries s.agent.session.limit m)
    (input : s.agent.session.input =
      .ofBytes ((m :: ms).flatMap s.agent.session.framing.encode) rest) :
    s.Brings m (.ofBytes (ms.flatMap s.agent.session.framing.encode) rest) := by
  rw [List.flatMap_cons, Incoming.ofBytes_append] at input
  exact .of_frame carries input

/-- The agent when it has taken a message, with what is left on the stream behind it. -/
def occupied (s : Running β ρ) (rest : Incoming) : Agent FramedSession Delivery β ρ :=
  { { s.agent with record := s.agent.record.observe .working }.did (.waited (.ok .ready)) with
    session := { s.agent.session with input := rest } }

/-- The agent when it has received a request. -/
def attentive (s : Running β ρ) (r : Rpc.Request) (rest : Incoming) :
    Agent FramedSession Delivery β ρ := (s.occupied rest).did (.received (.request r))

theorem look_of_isReady (h : s.IsReady) :
    s.look = s.goTo .waiting { s.agent with record := s.agent.record.observe .working } := by
  have hgoes : ¬ s.agent.shutdown.isRequested = true := by simp [h.goesOn]
  have hworks : Conversation.status s.agent.session = .working := h.works
  rw [look, Agent.look, if_neg hgoes, hworks]
  rfl

theorem wait_of_byte {session : FramedSession} {b : UInt8} {more : Incoming}
    (hworks : session.status = .working) (hinput : session.input = .byte b more) :
    session.wait = (.ok .ready, session) := by
  rw [FramedSession.wait, hworks, hinput]
  rfl

variable [Backend.Server β] [Registry ρ]

theorem Execution.loop (run : Execution start hs s) (free : s.wants .loop = none)
    {l : List Happening} {t : Running β ρ} (h : s.loopStep = (l, t)) :
    Execution start (hs ++ l) t := by
  have hstep := run.step (.loop s free)
  rw [h] at hstep
  exact hstep

/-- A step of the loop with which nothing happens that others could see. -/
theorem Execution.pace (run : Execution start hs s) (free : s.wants .loop = none)
    {t : Running β ρ} (h : s.loopStep = ([], t)) : Execution start hs t := by
  have hstep := run.loop free h
  rwa [List.append_nil] at hstep

section

variable {m : Bytes} {rest : Incoming}

/-- A message that has come in whole is taken. -/
theorem Execution.take (run : Execution start hs s) (ready : s.IsReady)
    (brings : s.Brings m rest) :
    Execution start (hs ++ [.took m])
      { s with station := .judging m, agent := s.occupied rest } := by
  obtain ⟨b, more, hinput⟩ := brings.begun
  have free : s.wants .loop = none := by rw [ready.wants]
  have hlook : s.loopStep = ([], s.look) := by rw [loopStep, ready.looks]
  rw [look_of_isReady ready] at hlook
  have hlooked := run.pace free hlook
  have hwait : ∀ record, ({ s with
      station := .waiting, agent := { s.agent with record } } : Running β ρ).loopStep =
      ([], { s with
        station := .receiving
        agent := { s.agent with record }.did (.waited (.ok .ready)) }) := by
    intro record
    simp only [loopStep, wait, wait_of_byte ready.works hinput, goTo]
  have hwaited := hlooked.pace free (hwait _)
  have hreceive : ∀ a : Agent FramedSession Delivery β ρ, a.session = s.agent.session →
      ({ s with station := .receiving, agent := a } : Running β ρ).loopStep = ([.took m], { s with
        station := .judging m
        agent := { a with session := { s.agent.session with input := rest } } }) := by
    intro a ha
    simp only [loopStep, receive, ha, brings.read, goTo]
  exact hwaited.loop free (hreceive _ rfl)

/-- Where the session itself has no answer to a message, the loop goes on to take note of it. -/
theorem Execution.judge {r : Received} (run : Execution start hs
      { s with station := .judging m, agent := s.occupied rest }) (free : s.wants .loop = none)
    (hjudge : FramedSession.judge m = (r, none)) : Execution start hs
      { s with station := .heeding r, agent := s.occupied rest } := by
  have hjudging : ({ s with
      station := .judging m, agent := s.occupied rest } : Running β ρ).loopStep =
      ([], { s with station := .heeding r, agent := s.occupied rest }) := by
    simp only [loopStep, Running.judge, hjudge, goTo]
  exact run.pace free hjudging

/-- A request that has come in whole is received. -/
theorem Execution.attend {r : Rpc.Request} (run : Execution start hs s) (ready : s.IsReady)
    (brings : s.Brings m rest) (hjudge : FramedSession.judge m = (.request r, none)) :
    Execution start (hs ++ [.took m])
      { s with station := .dispatching r, agent := s.attentive r rest } := by
  have free : s.wants .loop = none := by rw [ready.wants]
  exact ((run.take ready brings).judge free hjudge).pace free rfl

/-- A message that is no request is counted, and the loop of a session that works looks again. -/
theorem Execution.reject (run : Execution start hs s) (free : s.wants .loop = none)
    (heeds : s.station = .heeding .unknown) (works : s.agent.session.status = .working) :
    Execution start hs
      { s with station := .looking, agent := (s.agent.did (.received .unknown)).reject.2 } := by
  have hagain : (s.agent.did (.received .unknown)).reject.1 = .again :=
    congrArg Prod.fst (if_pos works)
  have hheed : s.loopStep = ([], { s with
      station := .looking, agent := (s.agent.did (.received .unknown)).reject.2 }) := by
    simp only [loopStep, heeds, heed, turned, goTo, Agent.heed, hagain, Turn.station]
  exact run.pace free hheed

/-- A message that is nothing to be answered is dropped. -/
theorem Execution.drop (run : Execution start hs s) (ready : s.IsReady) (brings : s.Brings m rest)
    (hjudge : FramedSession.judge m = (.unknown, none)) :
    Execution start (hs ++ [.took m])
      { s with
        station := .looking
        agent := ((s.occupied rest).did (.received .unknown)).reject.2 } := by
  have free : s.wants .loop = none := by rw [ready.wants]
  exact ((run.take ready brings).judge free hjudge).reject free rfl ready.works

/-- The loop turns to a message to the client, gets its frame out at once and goes on. -/
theorem Execution.utter {w : Message} (run : Execution start hs s) (free : s.wants .loop = none)
    (idle : s.writer = none) (h : s.loopStep = s.want .loop w) :
    Execution start (hs ++ [.turned .loop w, .sent .loop w])
      ((s.put (s.frame w)).goOn .loop w) := by
  have hturned := run.loop free h
  have hsent := hturned.speak (want_wants_self _ _ _) idle
  have hback : ((s.want .loop w).2.put (s.frame w)).quit .loop = s.put (s.frame w) := by
    have hwants : Function.update (Function.update s.wants .loop (some w)) .loop none =
        s.wants := by
      rw [Function.update_idem, ← free, Function.update_eq_self]
    simp only [want, put, quit, frame, hwants, idle, Option.filter_none]
  rw [List.append_assoc] at hsent
  rw [← hback]
  exact hsent

/-- A request that lacks something is refused. -/
theorem Execution.refuse {attributes : List Xml.Attribute} {e : Rpc.Error}
    (run : Execution start hs s) (ready : s.IsReady) (brings : s.Brings m rest)
    (hjudge : FramedSession.judge m = (.unknown, some (attributes, e))) :
    Execution start
      (hs ++ [.took m, .turned .loop (.rejection attributes e),
        .sent .loop (.rejection attributes e)])
      { s with
        station := .looking
        agent := ((({ s with agent := s.occupied rest } : Running β ρ).put
          (s.frame (.rejection attributes e))).agent.did (.received .unknown)).reject.2 } := by
  have free : s.wants .loop = none := by rw [ready.wants]
  have hjudging : ({ s with
      station := .judging m, agent := s.occupied rest } : Running β ρ).loopStep =
      ({ s with station := .judging m, agent := s.occupied rest } : Running β ρ).want .loop
        (.rejection attributes e) := by
    simp only [loopStep, Running.judge, hjudge]
  have hsent := (run.take ready brings).utter free ready.writer hjudging
  rw [List.append_assoc] at hsent
  exact hsent.reject free (congrArg (Station.heeding ∘ Prod.fst) hjudge) ready.works

/-- A request that has come in whole is taken, dispatched and answered. -/
theorem Execution.answer {r : Rpc.Request} {d : Dispatch} {a : Agent FramedSession Delivery β ρ}
    (run : Execution start hs s) (ready : s.IsReady) (brings : s.Brings m rest)
    (hjudge : FramedSession.judge m = (.request r, none))
    (hdispatch : (s.attentive r rest).dispatch r = (d, a)) :
    Execution start
      (hs ++ [.took m, .decided r d, .turned .loop (.reply r d), .sent .loop (.reply r d)])
      { s with
        station := .recording r d
        agent := (({ s with agent := a } : Running β ρ).put
          (({ s with agent := a } : Running β ρ).frame (.reply r d))).agent.did
            (.replied r d.reply) } := by
  have free : s.wants .loop = none := by rw [ready.wants]
  have hlives : a.session.status ≠ .terminated := by
    have hsession := Agent.dispatch_session (a := s.attentive r rest) r
    rw [hdispatch] at hsession
    obtain heq | heq := hsession <;> rw [heq]
    · simp [attentive, occupied, Agent.did, ready.works]
    · simp
  have hdispatching : ({ s with
      station := .dispatching r, agent := s.attentive r rest } : Running β ρ).loopStep =
      ([.decided r d], { s with station := .replying r d, agent := a }) := by
    simp only [loopStep, dispatch, hdispatch, goTo]
  have hdecided := (run.attend ready brings hjudge).loop free hdispatching
  have hreply : ({ s with station := .replying r d, agent := a } : Running β ρ).loopStep =
      ({ s with station := .replying r d, agent := a } : Running β ρ).want .loop (.reply r d) :=
    if_neg hlives
  have hsent := hdecided.utter free ready.writer hreply
  simp only [List.append_assoc, List.cons_append, List.nil_append] at hsent
  exact hsent

/-- Then it is recorded, and the loop looks again. -/
theorem Execution.handle {r : Rpc.Request} {d : Dispatch} {a : Agent FramedSession Delivery β ρ}
    (run : Execution start hs s) (ready : s.IsReady) (brings : s.Brings m rest)
    (hjudge : FramedSession.judge m = (.request r, none))
    (hdispatch : (s.attentive r rest).dispatch r = (d, a)) :
    Execution start
      (hs ++ [.took m, .decided r d, .turned .loop (.reply r d), .sent .loop (.reply r d)])
      { s with
        station := .looking
        agent := (((({ s with agent := a } : Running β ρ).put
          (({ s with agent := a } : Running β ρ).frame (.reply r d))).agent.did
            (.replied r d.reply)).launch d).count r d.reply } := by
  have free : s.wants .loop = none := by rw [ready.wants]
  exact (run.answer ready brings hjudge hdispatch).pace free rfl

end

/-! A client that sends one message and is silent then. -/

/-- An agent about to serve a client that has sent a text. Whoever is subscribed gets a feed. -/
def rehearsal (text : String) (feed : Feed) : Running Rehearsal.Server MemoryRegistry :=
  { agent :=
      { session :=
          { id := default
            username := none
            capabilities := [⟨Capability.notification, by decide, by decide⟩]
            framing := .endOfMessage
            limit := Framing.defaultLimit
            input := .ofBytes (Framing.encode .endOfMessage (Bytes.ofString text)) .silent
            source := { feed := fun _ => some feed } }
        server := {}
        record := (SessionRecord.establish default none [] default).1
        registry := {}
        now := default } }

theorem rehearsal_isFresh (text : String) (feed : Feed) : (rehearsal text feed).IsFresh :=
  ⟨rfl, rfl, rfl, rfl, rfl⟩

/-- The client's message is a request, which it gets answered. -/
theorem rehearsal_answer {text : String} {feed : Feed} {r : Rpc.Request} {d : Dispatch}
    {a : Agent FramedSession Delivery Rehearsal.Server MemoryRegistry}
    (hcarried : Framing.endOfMessage.Carries Framing.defaultLimit (Bytes.ofString text))
    (hjudge : FramedSession.judge (Bytes.ofString text) = (.request r, none))
    (hdispatch : ((rehearsal text feed).attentive r .silent).dispatch r = (d, a)) :
    Execution (rehearsal text feed)
      [.took (Bytes.ofString text), .decided r d, .turned .loop (.reply r d),
        .sent .loop (.reply r d)]
      { rehearsal text feed with
        station := .recording r d
        agent := (({ rehearsal text feed with agent := a } : Running _ _).put
          (({ rehearsal text feed with agent := a } : Running _ _).frame (.reply r d))).agent.did
            (.replied r d.reply) } :=
  Execution.start.answer ⟨rfl, rfl, rfl, rfl, rfl⟩ (.of_frame hcarried rfl) hjudge hdispatch

/-- A request for an operation, as a client sends it. -/
def asking (operation : String) : String := "<rpc message-id='1'><" ++ operation ++ "/></rpc>"

/-- What it is taken for. -/
def asked (operation : String) : Rpc.Request :=
  .ofElement [⟨"message-id", "1"⟩] { name := operation }

theorem judge_asking {operation : String}
    (h : Xml.Document.parse (Bytes.ofString (asking operation)) = .ok
      { name := "rpc"
        attributes := [⟨"message-id", "1"⟩]
        children := [{ name := operation }] }) :
    FramedSession.judge (Bytes.ofString (asking operation)) =
      (.request (asked operation), none) := by
  rw [FramedSession.judge, h]
  rfl

/-- A client that asks for an operation. -/
def getting : String := asking "get"

theorem judge_getting :
    FramedSession.judge (Bytes.ofString getting) = (.request (asked "get"), none) :=
  judge_asking (Xml.Document.parse_of_runWithin 60 getting (by decide +kernel)
    (by decide +kernel) (by decide +kernel))

/-- A client that subscribes to events. -/
def subscribing : String := asking "create-subscription"

/-- Its request. -/
def subscription : Rpc.Request := asked "create-subscription"

theorem judge_subscribing :
    FramedSession.judge (Bytes.ofString subscribing) = (.request subscription, none) :=
  judge_asking (Xml.Document.parse_of_runWithin 60 subscribing (by decide +kernel)
    (by decide +kernel) (by decide +kernel))

/-- What happens when a client asks for what there is, and gets it. -/
def answered : List Happening :=
  [.took (Bytes.ofString getting), .decided (asked "get") { reply := .ok },
    .turned .loop (.reply (asked "get") { reply := .ok }),
    .sent .loop (.reply (asked "get") { reply := .ok })]

theorem rehearsal_answered : ∃ s : Running Rehearsal.Server MemoryRegistry,
    Execution (rehearsal getting .silent) answered s ∧ s.agent.tasks = [] ∧
      s.station = .recording (asked "get") { reply := .ok } := by
  have hdispatch : ((rehearsal getting .silent).attentive (asked "get") .silent).dispatch
      (asked "get") = ({ reply := .ok },
        (((rehearsal getting .silent).attentive (asked "get") .silent).dispatch
          (asked "get")).2) := rfl
  have hanswer := rehearsal_answer (by decide +kernel) judge_getting hdispatch
  exact ⟨_, hanswer, rfl, rfl⟩

/-! A client that sends several messages, of which some are no requests that can be handled. -/

/-- A request that has no identifier. -/
def unidentified : String := "<rpc><get/></rpc>"

theorem judge_unidentified : FramedSession.judge (Bytes.ofString unidentified) =
    (.unknown, some ([], FramedSession.noMessageId)) := by
  have hparse : Xml.Document.parse (Bytes.ofString unidentified) = .ok
      { name := "rpc", children := [{ name := "get" }] } :=
    Xml.Document.parse_of_runWithin 60 unidentified (by decide +kernel) (by decide +kernel)
      (by decide +kernel)
  rw [FramedSession.judge, hparse]
  rfl

theorem judge_garbled : FramedSession.judge [0x3C, 0xFF] = (.unknown, none) := by
  have hnone : Xml.Encoding.utf8.decode? [0x3C, 0xFF] = none := by decide +kernel
  rw [FramedSession.judge, Xml.Document.parse_of_undecodable rfl rfl hnone]

theorem judge_getting_config : FramedSession.judge (Bytes.ofString (asking "get-config")) =
    (.request (asked "get-config"), none) :=
  judge_asking (Xml.Document.parse_of_runWithin 60 (asking "get-config")
    (by decide +kernel) (by decide +kernel) (by decide +kernel))

/-- A request, one that has no identifier, something that is no text, and another request. -/
def remarks : List Bytes :=
  [Bytes.ofString getting, Bytes.ofString unidentified, [0x3C, 0xFF],
    Bytes.ofString (asking "get-config")]

/-- An agent about to serve a client that sends all these at once. -/
def conversing : Running Rehearsal.Server MemoryRegistry :=
  { rehearsal getting .silent with
    agent.session.input := .ofBytes (remarks.flatMap (Framing.encode .endOfMessage)) .silent }

theorem conversing_isFresh : conversing.IsFresh := ⟨rfl, rfl, rfl, rfl, rfl⟩

/-- What happens then: the requests are answered, the second message is refused, and the third is
dropped. -/
def conversed : List Happening :=
  answered ++
    [.took (Bytes.ofString unidentified),
      .turned .loop (.rejection [] FramedSession.noMessageId),
      .sent .loop (.rejection [] FramedSession.noMessageId)] ++
    [.took [0x3C, 0xFF]] ++
    [.took (Bytes.ofString (asking "get-config")),
      .decided (asked "get-config") { reply := .ok },
      .turned .loop (.reply (asked "get-config") { reply := .ok }),
      .sent .loop (.reply (asked "get-config") { reply := .ok })]

theorem conversing_conversed : ∃ s : Running Rehearsal.Server MemoryRegistry,
    Execution conversing conversed s ∧ s.agent.tasks = [] ∧ s.station = .looking ∧
      s.agent.record.counters =
        { requests := 2, badRequests := 2, errors := 0, subscriptions := 0 } := by
  have hcarries : ∀ m ∈ remarks, Framing.endOfMessage.Carries Framing.defaultLimit m := by
    decide +kernel
  have hstart : Execution conversing [] conversing := .start
  have hfirst := hstart.handle ⟨rfl, rfl, rfl, rfl, rfl⟩
    (.of_frames (hcarries (Bytes.ofString getting) (by simp [remarks])) rfl) judge_getting
    (d := { reply := .ok }) (Prod.ext rfl rfl)
  have hsecond := hfirst.refuse ⟨rfl, rfl, rfl, rfl, rfl⟩
    (.of_frames (hcarries (Bytes.ofString unidentified) (by simp [remarks])) rfl)
    judge_unidentified
  have hthird := hsecond.drop ⟨rfl, rfl, rfl, rfl, rfl⟩
    (.of_frames (hcarries [0x3C, 0xFF] (by simp [remarks])) rfl) judge_garbled
  have hlast := hthird.handle ⟨rfl, rfl, rfl, rfl, rfl⟩
    (.of_frames (hcarries (Bytes.ofString (asking "get-config")) (by simp [remarks])) rfl)
    judge_getting_config (d := { reply := .ok }) (Prod.ext rfl rfl)
  exact ⟨_, hlast, rfl, rfl, rfl⟩

/-- An event to be told of. -/
def happened : Event := { time := default, content := "<happened/>" }

/-- What happens when the client has subscribed and there is an event. -/
def subscribed (e : Event) : List Happening :=
  [.took (Bytes.ofString subscribing), .decided subscription { reply := .ok, task := some 0 },
    .turned .loop (.reply subscription { reply := .ok, task := some 0 }),
    .sent .loop (.reply subscription { reply := .ok, task := some 0 }),
    .turned (.task 0) (.notification e), .sent (.task 0) (.notification e)]

theorem rehearsal_subscribed (e : Event) : ∃ s d,
    Execution (rehearsal subscribing (.event e .silent)) (subscribed e) s ∧
      s.agent.stage? 0 = some (.delivering d) := by
  have hvalid : Subscription.ofRequest subscription [Subscription.defaultStream] default =
      .ok { stream := Subscription.defaultStream } := rfl
  have hsupported : Capabilities.supportsNotifications
      [⟨Capability.notification, by decide, by decide⟩] = true := by decide +kernel
  have haccepts : ((rehearsal subscribing (.event e .silent)).attentive subscription
      .silent).Accepts subscription :=
    ⟨rfl, hsupported, rfl, rfl, ⟨_, hvalid⟩, rfl⟩
  have hanswer := rehearsal_answer (by decide +kernel) judge_subscribing
    (Agent.dispatch_of_accepts haccepts)
  -- The task is released, begins, and has an event to deliver.
  have hreleased := hanswer.loop rfl rfl
  have hbegun := hreleased.step (.task _ 0 rfl)
  have hturned := hbegun.step (.task _ 0 rfl)
  exact ⟨_, _, hturned.speak (p := .task 0) (m := .notification e) rfl rfl, rfl⟩

end Netconf.Running
