import Netconf.Agent.Act
import Netconf.Registry
import Netconf.Shutdown

/-! An agent, which serves the session of one client, and its tasks. A task delivers the events of a
subscription beside everything else that the agent does. It holds the session's slot for as long as
it lives, and does not begin before the client has been told that the subscription is accepted. -/
namespace Netconf

/-- How far a task has got. -/
inductive Stage (δ : Type) where
  /-- It waits for its release. -/
  | parked
  | released
  /-- It has been dropped before its release. -/
  | withdrawn
  | delivering (d : δ)
  /-- It has come to its end after a number of notifications. -/
  | ended (sent : Nat)
  /-- It broke off, or was stopped. -/
  | lost
deriving Repr

/-- Whether a task at a stage is alive, and so holds the slot. -/
def Stage.isAlive {δ : Type} : Stage δ → Bool
  | .ended _ => false
  | .lost => false
  | _ => true

/-- A task that delivers the events that a request has subscribed to. -/
structure DeliveryTask (δ : Type) where
  request : Rpc.Request
  stage : Stage δ := .parked

/-- The state of an agent: its session of type `σ` with deliveries of type `δ`, its connection of
type `β` with the management server and its registry of type `ρ`. -/
structure Agent (σ δ β ρ : Type) where
  session : σ
  server : β
  record : SessionRecord
  registry : ρ
  now : Time.Instant
  shutdown : Shutdown := .idle
  /-- All tasks so far, the oldest first. -/
  tasks : List (DeliveryTask δ) := []
  /-- The place of the task that is ended together with the session. -/
  current : Option Nat := none
  /-- Whether tasks can be started at all. -/
  canSpawn : Bool := true
  /-- What has been done, the oldest first. -/
  acts : List Act := []

namespace Agent

variable {σ δ β ρ : Type}

/-- Remembers an act. -/
def did (act : Act) (a : Agent σ δ β ρ) : Agent σ δ β ρ := { a with acts := a.acts ++ [act] }

/-- Takes over a record and writes what happened into the journal. -/
def note (entry : SessionRecord × SessionEvent) (a : Agent σ δ β ρ) : Agent σ δ β ρ :=
  { a with record := entry.1 }.did (.noted entry.1.id entry.2)

/-- The stage of a task. -/
def stage? (a : Agent σ δ β ρ) (i : Nat) : Option (Stage δ) := a.tasks[i]?.map (·.stage)

/-- Puts a task at a stage. -/
def setStage (i : Nat) (stage : Stage δ) (a : Agent σ δ β ρ) : Agent σ δ β ρ :=
  { a with tasks := a.tasks.modify i fun t => { t with stage } }

/-- Puts a task at a last stage, where it lets the slot go. -/
def endTask (i : Nat) (stage : Stage δ) (a : Agent σ δ β ρ) : Agent σ δ β ρ :=
  let a := a.setStage i stage
  { a with record := { a.record with slot := a.record.slot.release } }

/-- Lets a parked task begin. -/
def release (i : Nat) (a : Agent σ δ β ρ) : Agent σ δ β ρ :=
  match a.stage? i with
  | some .parked => a.setStage i .released
  | _ => a

/-- Gives a task up: it will not begin if it has not been released. -/
def withdraw (i : Nat) (a : Agent σ δ β ρ) : Agent σ δ β ρ :=
  match a.stage? i with
  | some .parked => a.setStage i .withdrawn
  | _ => a

/-- Takes over what a delivery has come to, and tells whether it can go on at once. -/
def progress (i : Nat) (p : Progress δ) (a : Agent σ δ β ρ) : Agent σ δ β ρ × Bool :=
  match p with
  | .going d => (a.setStage i (.delivering d), true)
  | .waiting d => (a.setStage i (.delivering d), false)
  | .ended sent => (a.endTask i (.ended sent), false)
  | .failed => (a.endTask i .lost, false)

variable [Conversation σ δ]

/-- One step of a task, and whether it can go on at once. -/
def stepTask (i : Nat) (a : Agent σ δ β ρ) : Agent σ δ β ρ × Bool :=
  match a.tasks[i]? with
  | none => (a, false)
  | some t =>
    match t.stage with
    | .withdrawn => (a.endTask i (.ended 0), false)
    | .released =>
      let (p, session) := Conversation.subscribe a.now t.request a.session
      ({ a with session }.did (.beganDelivery t.request)).progress i p
    | .delivering d =>
      let (p, session) := Conversation.deliver a.now d a.session
      { a with session }.progress i p
    | _ => (a, false)

/-- So many steps of a task, unless it has to wait. -/
def stepsOfTask (i : Nat) : Nat → Agent σ δ β ρ → Agent σ δ β ρ
  | 0, a => a
  | n + 1, a =>
    match a.stepTask i with
    | (a, true) => stepsOfTask i n a
    | (a, false) => a

/-- How many steps a task can make before it has to wait, at most. -/
def backlog (i : Nat) (a : Agent σ δ β ρ) : Nat :=
  match a.stage? i with
  | some (.delivering d) => Conversation.backlog σ d
  | _ => 0

/-- Takes a task as far as it gets. -/
def runTask (i : Nat) (a : Agent σ δ β ρ) : Agent σ δ β ρ :=
  match a.stepTask i with
  | (a, true) => a.stepsOfTask i (a.backlog i + 1)
  | (a, false) => a

/-- Takes every task as far as it gets. -/
def settle (a : Agent σ δ β ρ) : Agent σ δ β ρ :=
  (List.range a.tasks.length).foldl (fun a i => a.runTask i) a

/-- When the first of the waiting tasks goes on even if nothing happens. -/
def deadline? (a : Agent σ δ β ρ) : Option Time.Instant :=
  a.tasks.foldl (fun first t =>
    match t.stage with
    | .delivering d =>
      match first, Conversation.deadline σ d with
      | some x, some y => some (if y.before x then y else x)
      | x, y => x <|> y
    | _ => first) none

/-- Lets time pass up to an instant. -/
def waitUntil (t : Time.Instant) (a : Agent σ δ β ρ) : Agent σ δ β ρ := { a with now := t }.settle

/-- Has a task end, and stops it if it does not. The number of notifications that it has sent is
known if it has ended by itself. -/
def finish (i : Nat) (a : Agent σ δ β ρ) : Option Nat × Agent σ δ β ρ :=
  let a := (a.withdraw i).runTask i
  match a.stage? i with
  | some (.ended sent) => (some sent, a)
  | some stage => if stage.isAlive then (none, a.endTask i .lost) else (none, a)
  | none => (none, a)

end Agent
end Netconf
