import Mathlib.Logic.Function.Basic
import Netconf.Agent.Loop
import Netconf.Subscription.Delivery

/-! An agent at work, step by step. Its loop and its tasks go on in any order, and in between the
client sends, events arrive and time passes. Whoever writes to the client first has to get hold of
the writer, and then puts the frame of its message on the stream piece by piece, so that others may
go on between two pieces. -/
namespace Netconf

/-- Who writes to the client of an agent. -/
inductive Party where
  | loop
  | task (i : Nat)
deriving DecidableEq, Repr

/-- A message to the client. -/
inductive Message where
  /-- The answer to a message that is no request which can be handled. -/
  | rejection (attributes : List Xml.Attribute) (e : Rpc.Error)
  | reply (r : Rpc.Request) (d : Dispatch)
  | notification (e : Event)
  /-- The notice that a subscription has reached its stop time. -/
  | completion (at_ : Time.Instant)

def Message.text : Message → String
  | rejection attributes e => (Rpc.Reply.error e).render attributes
  | reply r d => d.reply.render r.attributes
  | notification e => Notification.ofEvent e
  | completion at_ => Notification.complete at_

/-- The bytes of a message, which its frame goes around. -/
def Message.payload (m : Message) : Bytes := Bytes.ofString m.text

/-- Something that happens while an agent is at work. -/
inductive Happening where
  /-- The client sends something. -/
  | arrived (more : Incoming)
  /-- The loop takes a message off the stream. -/
  | took (m : Bytes)
  /-- The loop knows what a request has come to. -/
  | decided (r : Rpc.Request) (d : Dispatch)
  /-- A party turns to writing a message. -/
  | turned (p : Party) (m : Message)
  /-- The frame of a message is out. -/
  | sent (p : Party) (m : Message)
  /-- A party fails to get its message out, or ends while it writes. -/
  | broke (p : Party)

/-- Where the loop of an agent stands. -/
inductive Station where
  /-- It is to look whether to go on. -/
  | looking
  | waiting
  /-- There is something to receive. -/
  | receiving
  /-- It has taken a message, and is to find out what it is. -/
  | judging (m : Bytes)
  | heeding (r : Received)
  | dispatching (r : Rpc.Request)
  | replying (r : Rpc.Request) (d : Dispatch)
  /-- The reply is out. -/
  | recording (r : Rpc.Request) (d : Dispatch)
  | closing (exit : Exit)
  | dismissing (exit : Exit)
  | leaving (exit : Exit)
  | ended (exit : Exit)

/-- Where the loop stands after a turn. -/
def Turn.station : Turn → Station
  | again => .looking
  | blocked => .waiting
  | stop exit => .closing exit

def Feed.tail : Feed → Feed
  | event _ rest => rest
  | failure _ rest => rest
  | last => last

/-- A feed that goes on after its silence; behind its end nothing comes. -/
def Feed.append : Feed → Feed → Feed
  | silent, more => more
  | ended, _ => ended
  | event e rest, more => event e (rest.append more)
  | failure cause rest, more => failure cause (rest.append more)

/-- An agent at work. -/
structure Running (β ρ : Type) where
  agent : Agent FramedSession Delivery β ρ
  station : Station := .looking
  /-- What each party has to write, from when it turns to it until it is out. -/
  wants : Party → Option Message := fun _ => none
  /-- Who holds the writer, and what of the frame is not out yet. -/
  writer : Option (Party × Bytes) := none

namespace Running

variable {β ρ : Type}

def written (s : Running β ρ) : Bytes := s.agent.session.output.written

def frame (s : Running β ρ) (m : Message) : Bytes := s.agent.session.framing.encode m.payload

/-- A party turns to writing a message. -/
def want (p : Party) (m : Message) (s : Running β ρ) : List Happening × Running β ρ :=
  ([.turned p m], { s with wants := Function.update s.wants p (some m) })

/-- A party has nothing to write any more, and lets the writer go if it holds it. -/
def quit (p : Party) (s : Running β ρ) : Running β ρ :=
  { s with
    wants := Function.update s.wants p none
    writer := s.writer.filter fun w => w.1 ≠ p }

/-- Whether a party holds the writer. -/
def holds (p : Party) (s : Running β ρ) : Bool := s.writer.any fun w => w.1 = p

@[simp] theorem want_wants_self (p : Party) (m : Message) (s : Running β ρ) :
    (s.want p m).2.wants p = some m := Function.update_self _ _ _

theorem want_wants_of_ne {p q : Party} (h : q ≠ p) (m : Message) (s : Running β ρ) :
    (s.want p m).2.wants q = s.wants q := Function.update_of_ne h _ _

@[simp] theorem quit_wants_self (p : Party) (s : Running β ρ) : (s.quit p).wants p = none :=
  Function.update_self _ _ _

theorem quit_wants_of_ne {p q : Party} (h : q ≠ p) (s : Running β ρ) :
    (s.quit p).wants q = s.wants q := Function.update_of_ne h _ _

def put (bytes : Bytes) (s : Running β ρ) : Running β ρ :=
  { s with agent.session.output.written := s.agent.session.output.written ++ bytes }

def goTo (station : Station) (a : Agent FramedSession Delivery β ρ) (s : Running β ρ) :
    Running β ρ := { s with station, agent := a }

def look (s : Running β ρ) : Running β ρ :=
  match s.agent.look with
  | (some exit, a) => s.goTo (.closing exit) a
  | (none, a) => s.goTo .waiting a

/-- The loop receives what has come. Where that is no whole message it waits again. -/
def receive (s : Running β ρ) : List Happening × Running β ρ :=
  let session := s.agent.session
  match session.framing.read session.limit session.input with
  | (.message m, rest) =>
    ([.took m], s.goTo (.judging m) { s.agent with session := { session with input := rest } })
  | (.failure .closed, rest) =>
    ([], s.goTo (.heeding .hungUp) { s.agent with session := { session with input := rest } })
  | (.failure _, rest) =>
    ([], s.goTo (.heeding .unknown)
      { s.agent with session := { session with input := rest, status := .terminated } })
  | (.blocked, _) => ([], s.goTo .waiting s.agent)

/-- The loop finds out what a message is, and answers it where that is done without the agent. -/
def judge (m : Bytes) (s : Running β ρ) : List Happening × Running β ρ :=
  match FramedSession.judge m with
  | (r, none) => ([], s.goTo (.heeding r) s.agent)
  | (_, some (attributes, e)) => s.want .loop (.rejection attributes e)

/-- The loop replies to a request, if the session has not ended. -/
def reply (r : Rpc.Request) (d : Dispatch) (s : Running β ρ) : List Happening × Running β ρ :=
  if s.agent.session.status = .terminated then
    ([], s.goTo (.recording r d) (s.agent.did (.replied r d.reply)))
  else s.want .loop (.reply r d)

/-- The task that is to end together with the session is told so. -/
def callOff (a : Agent FramedSession Delivery β ρ) : Agent FramedSession Delivery β ρ :=
  match a.current with
  | some i => a.withdraw i
  | none => a

/-- A party goes on after its message. The loop lets it go if it did not get out. -/
def goOn (p : Party) (m : Message) (s : Running β ρ) : Running β ρ :=
  match p with
  | .loop =>
    match s.station with
    | .judging m => s.goTo (.heeding (FramedSession.judge m).1) s.agent
    | .replying r d => s.goTo (.recording r d) (s.agent.did (.replied r d.reply))
    | _ => s
  | .task i =>
    match s.agent.stage? i with
    | some (.delivering d) =>
      match m with
      | .notification _ =>
        let d := { d with feed := d.feed.tail, sent := d.sent + 1 }
        { s with agent := s.agent.setStage i (.delivering d) }
      | _ => { s with agent := s.agent.endTask i (.ended d.sent) }
    | _ => s

/-- A task takes a step. Where its delivery has something to write it turns to that. -/
def taskStep (i : Nat) (s : Running β ρ) : List Happening × Running β ρ :=
  let plain := ([], { s with agent := (s.agent.stepTask i).1 })
  match s.agent.stage? i with
  | some (.delivering d) =>
    match d.next s.agent.session.tornDown s.agent.now with
    | .notify e _ => s.want (.task i) (.notification e)
    | .complete => s.want (.task i) (.completion s.agent.now)
    | _ => plain
  | _ => plain

variable [Backend.Server β] [Registry ρ]

def turned (p : Turn × Agent FramedSession Delivery β ρ) (s : Running β ρ) : Running β ρ :=
  s.goTo p.1.station p.2

def wait (s : Running β ρ) : Running β ρ :=
  let (outcome, session) := s.agent.session.wait
  let a := { s.agent with session }.did (.waited outcome)
  match outcome with
  | .error e => s.goTo (.closing (.fatal (.wait e))) a
  | .ok .timeout => s.goTo .looking a
  | .ok .interrupted => s.goTo .looking a
  | .ok .hungUp => s.turned a.hangUp
  | .ok (.fault f) => s.goTo (.closing (.fatal (.transport f))) a
  | .ok .ready => s.goTo .receiving a

/-- The loop takes note of what it has received. A request is handled in steps of its own. -/
def heed (r : Received) (s : Running β ρ) : Running β ρ :=
  match r with
  | .request r => s.goTo (.dispatching r) (s.agent.did (.received (.request r)))
  | r => s.turned (s.agent.heed r)

def dispatch (r : Rpc.Request) (s : Running β ρ) : List Happening × Running β ρ :=
  let (d, a) := s.agent.dispatch r
  ([.decided r d], s.goTo (.replying r d) a)

/-- The loop takes a step. -/
def loopStep (s : Running β ρ) : List Happening × Running β ρ :=
  match s.station with
  | .looking => ([], s.look)
  | .waiting => ([], s.wait)
  | .receiving => s.receive
  | .judging m => s.judge m
  | .heeding r => ([], s.heed r)
  | .dispatching r => s.dispatch r
  | .replying r d => s.reply r d
  | .recording r d => ([], s.goTo .looking ((s.agent.launch d).count r d.reply))
  | .closing exit => ([], s.goTo (.dismissing exit) s.agent.endSession)
  | .dismissing exit => ([], s.goTo (.leaving exit) (callOff s.agent))
  | .leaving exit => ([], s.goTo (.ended exit) ({ s.agent with current := none }.leave exit))
  | .ended _ => ([], s)

/-- One step of an agent at work, and what happens with it. A party that has a message to write
does nothing else until the message is out. -/
inductive Step : Running β ρ → List Happening → Running β ρ → Prop
  | loop (s) (free : s.wants .loop = none) : Step s s.loopStep.1 s.loopStep.2
  | task (s) (i : Nat) (free : s.wants (.task i) = none) : Step s (s.taskStep i).1 (s.taskStep i).2
  /-- A party gets hold of the writer. -/
  | acquire (s) {p : Party} {m : Message} (wanted : s.wants p = some m) (free : s.writer = none) :
      Step s [] { s with writer := some (p, s.frame m) }
  /-- The party that holds the writer gets some bytes out. -/
  | write (s) {p : Party} {out left : Bytes} (held : s.writer = some (p, out ++ left)) :
      Step s [] { s.put out with writer := some (p, left) }
  /-- The party that holds the writer has got its frame out. -/
  | finish (s) {p : Party} {m : Message} (wanted : s.wants p = some m)
      (held : s.writer = some (p, [])) : Step s [.sent p m] ((s.quit p).goOn p m)
  /-- A message of the loop does not get out. -/
  | fail (s) {m : Message} (wanted : s.wants .loop = some m) :
      Step s [.broke .loop] ((s.quit .loop).goOn .loop m)
  /-- A task comes to an end, by itself or not, at whatever point. -/
  | perish (s) {i : Nat} {before last : Stage Delivery} (stage : s.agent.stage? i = some before)
      (alive : before.isAlive = true) (dead : last.isAlive = false) :
      Step s (if s.holds (.task i) then [.broke (.task i)] else [])
        { s.quit (.task i) with agent := s.agent.endTask i last }
  /-- The client sends something. -/
  | arrive (s) (more : Incoming) : Step s [.arrived more]
      { s with agent.session.input := s.agent.session.input.append more }
  /-- Events arrive on the feed of a delivery. -/
  | feed (s) {i : Nat} {d : Delivery} (more : Feed)
      (stage : s.agent.stage? i = some (.delivering d)) : Step s [] { s with
        agent := s.agent.setStage i (.delivering { d with feed := d.feed.append more }) }
  | tick (s) (now : Time.Instant) : Step s [] { s with agent.now := now }
  | ask (s) : Step s [] { s with agent.shutdown := s.agent.shutdown.request }
  /-- Something happens to the management server. -/
  | serve (s) (server : β) : Step s [] { s with agent.server := server }
  /-- It may change whether tasks can be started. -/
  | enable (s) (canSpawn : Bool) : Step s [] { s with agent.canSpawn := canSpawn }

/-- An agent at work from a start on: what has happened, in order, and how it stands. -/
inductive Execution (start : Running β ρ) : List Happening → Running β ρ → Prop
  | start : Execution start [] start
  | step {hs l : List Happening} {s t : Running β ρ} (before : Execution start hs s)
      (step : Step s l t) : Execution start (hs ++ l) t

theorem Execution.trans {s t u : Running β ρ} {hs l : List Happening} (hst : Execution s hs t)
    (htu : Execution t l u) : Execution s (hs ++ l) u := by
  induction htu with
  | start =>
    rw [List.append_nil]
    exact hst
  | step before step ih =>
    rw [← List.append_assoc]
    exact ih.step step

/-- An agent about to begin its work: it has had no tasks, and its slot is free. -/
structure IsFresh (s : Running β ρ) : Prop where
  looks : s.station = .looking
  noTasks : s.agent.tasks = []
  slot : s.agent.record.slot.active = false
  wants : s.wants = fun _ => none
  writer : s.writer = none

/-- A party that has a message to write gets its frame out at once, while nobody holds the writer,
and may be about to let the writer go. -/
theorem Execution.putFrame {start s : Running β ρ} {hs : List Happening} {p : Party} {m : Message}
    (run : Execution start hs s) (wanted : s.wants p = some m) (free : s.writer = none) :
    Execution start hs { s.put (s.frame m) with writer := some (p, []) } := by
  have hheld : (some (p, s.frame m) : Option (Party × Bytes)) = some (p, s.frame m ++ []) := by
    rw [List.append_nil]
  have hacquire := run.step (.acquire s wanted free)
  have hwrite := hacquire.step (.write _ hheld)
  simp only [List.append_nil] at hwrite
  exact hwrite

/-- Then it lets the writer go and goes on. -/
theorem Execution.speak {start s : Running β ρ} {hs : List Happening} {p : Party} {m : Message}
    (run : Execution start hs s) (wanted : s.wants p = some m) (free : s.writer = none) :
    Execution start (hs ++ [.sent p m]) (((s.put (s.frame m)).quit p).goOn p m) := by
  have hfinish := (run.putFrame wanted free).step (.finish _ wanted rfl)
  have hquit : ({ s.put (s.frame m) with writer := some (p, []) } : Running β ρ).quit p =
      (s.put (s.frame m)).quit p := by
    simp [quit, put, free, Option.filter]
  rw [hquit] at hfinish
  exact hfinish

end Running
end Netconf
