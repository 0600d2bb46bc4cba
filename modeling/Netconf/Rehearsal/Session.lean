import Netconf.Session.Accept

/-! A session that follows a script, for rehearsing an agent without a client. -/
namespace Netconf.Rehearsal

/-- What happens next in a scripted session. -/
inductive Cue where
  | ready (r : Readiness)
  | waitFails (e : SessionError)
  | request (r : Rpc.Request)
  /-- A message that is no request comes in, and may end the session. -/
  | unknown (ends : Bool)
  | hungUp
  | nothing
  /-- Somebody asks the agent to end. -/
  | shutdown
  | status (s : Status)
deriving DecidableEq, Repr

/-- What becomes of a delivery of events in a scripted session. -/
inductive Course where
  /-- It waits for the end of the session. -/
  | untilClose
  | immediate
  | stuck
  /-- It breaks off. -/
  | broken
deriving DecidableEq, Repr

/-- A session that follows a script. -/
structure Session where
  id : SessionId
  username : Option String := none
  capabilities : Capabilities
  status : Status := .working
  notificationsAllowed : Bool := true
  /-- How the parameters of subscriptions are judged. -/
  judgement : Rpc.Reply := .ok
  course : Course := .untilClose
  /-- Why replies cannot be sent, if they cannot. -/
  replyFault : Option SessionError := none
  script : List Cue := []
  isClosed : Bool := false

namespace Session

/-- Follows the script up to the point where the agent has waited. -/
def wait (s : Session) : Wait Session :=
  match s.script with
  | [] => { outcome := .ok .hungUp, session := s }
  | .ready r :: script => { outcome := .ok r, session := { s with script } }
  | .waitFails e :: script => { outcome := .error e, session := { s with script } }
  | .shutdown :: script =>
    { outcome := .ok .timeout, session := { s with script }, endAsked := true }
  | .status status :: script =>
    { outcome := .ok .timeout, session := { s with script, status } }
  | _ => { outcome := .ok .ready, session := s }

/-- What the agent receives next. -/
def receive (s : Session) : Received × Session :=
  let next := { s with script := s.script.tail }
  match s.script.head? with
  | some (.request r) => (.request r, next)
  | some .hungUp => (.hungUp, next)
  | some (.unknown ends) =>
    (.unknown, { next with status := if ends then .terminated else s.status })
  | _ => (.nothing, next)

/-- What a delivery has come to. -/
def deliver (s : Session) : Progress Unit :=
  match s.course with
  | .untilClose => if s.isClosed then .ended 3 else .waiting ()
  | .immediate => .ended 5
  | .stuck => .waiting ()
  | .broken => .failed

instance : Conversation Session Unit where
  id s := s.id
  username s := s.username
  capabilities s := s.capabilities
  status s := s.status
  setStatus status s := { s with status }
  notificationsAllowed s := s.notificationsAllowed
  pending s := s.script.length
  wait := wait
  receive s := some s.receive
  reply _ _ s := (match s.replyFault with | some e => .error e | none => .ok (), s)
  check _ _ s := s.judgement
  subscribe _ _ s := (s.deliver, s)
  deliver _ _ s := (s.deliver, s)
  backlog _ := 0
  deadline _ := none
  close s := { s with status := .terminated, isClosed := true }

end Session

/-- What becomes of the client that is waited for: a session, or an error. -/
structure Door where
  session : Except SessionError Session

instance : Acceptor Door Session where
  accept _ _ d := (d.session, d)

end Netconf.Rehearsal
