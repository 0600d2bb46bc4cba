import Netconf.Proofs.Agent.Agreement
import Netconf.Subscription.Delivery

/-! Which requests for a subscription an agent accepts, and what dispatching a request does to the
agent's session, tasks and slot. Only an accepted subscription starts a task and takes the slot. -/
namespace Netconf.Agent

variable {β ρ : Type} {a : Agent FramedSession Delivery β ρ} {r : Rpc.Request}

/-- The parameters of a request for a subscription are valid. -/
def IsValid (a : Agent FramedSession Delivery β ρ) (r : Rpc.Request) : Prop :=
  ∃ s, Subscription.ofRequest r a.session.source.streams a.now = .ok s

/-- A request for a subscription that an agent accepts. -/
structure Accepts (a : Agent FramedSession Delivery β ρ) (r : Rpc.Request) : Prop where
  asks : r.operation = .createSubscription
  supported : a.session.capabilities.supportsNotifications = true
  works : a.session.status = .working
  vacant : a.record.slot.active = false
  valid : a.IsValid r
  canSpawn : a.canSpawn = true

theorem notificationsAllowed_iff {s : FramedSession} : s.notificationsAllowed = true ↔
    s.capabilities.supportsNotifications = true ∧ s.status = .working := by
  simp [FramedSession.notificationsAllowed]

theorem check_of_isValid (h : a.IsValid r) : a.session.check a.now r = .ok := by
  obtain ⟨s, hs⟩ := h
  rw [FramedSession.check, hs]

theorem check_of_not_isValid (h : ¬ a.IsValid r) : (a.session.check a.now r).isOk = false := by
  rw [FramedSession.check]
  cases hs : Subscription.ofRequest r a.session.source.streams a.now with
  | ok s => exact absurd ⟨s, hs⟩ h
  | error e => rfl

/-- An accepted subscription has a task of its own, which takes the slot. -/
theorem createSubscription_of_accepts (h : a.Accepts r) : a.createSubscription r =
    ({ reply := .ok, task := some a.tasks.length },
      (a.did (.checked r)).spawn r { active := true }) := by
  have hallowed := notificationsAllowed_iff.mpr ⟨h.supported, h.works⟩
  have hclaim : a.record.slot.claim? = some { active := true } := by
    rw [Slot.claim?, h.vacant]
    rfl
  have hcheck := check_of_isValid h.valid
  have hspawn := h.canSpawn
  have henabled : Conversation.enabled a.session Capability.notification = true := h.supported
  simp only [createSubscription, henabled, Conversation.notificationsAllowed, hallowed, hclaim,
    Conversation.check, hcheck, did]
  simp [hspawn, Rpc.Reply.isOk]

/-- While the slot is held a subscription is refused, and nothing at all changes. -/
theorem createSubscription_of_active (hs : a.session.capabilities.supportsNotifications = true)
    (h : a.record.slot.active = true) :
    a.createSubscription r = ({ reply := subscriptionActive }, a) := by
  have henabled : Conversation.enabled a.session Capability.notification = true := hs
  have hclaim : a.record.slot.claim? = none := Slot.claim?_eq_none_iff.mpr h
  unfold createSubscription
  simp [henabled, hclaim]

/-- A subscription that is not accepted is answered with an error. It starts no task. -/
theorem createSubscription_of_not_accepts (hr : r.operation = .createSubscription)
    (h : ¬ a.Accepts r) :
    (a.createSubscription r).1.reply.isOk = false ∧ (a.createSubscription r).1.task = none ∧
      Agrees a (a.createSubscription r).2 := by
  unfold createSubscription
  by_cases hs : Conversation.enabled a.session Capability.notification = true
  · by_cases ha : Conversation.notificationsAllowed a.session = true
    · cases hc : a.record.slot.claim? with
      | none => simpa [hs, ha] using ⟨rfl, Agrees.refl a⟩
      | some slot =>
        by_cases hv : a.IsValid r
        · have hspawn : a.canSpawn = false := by
            apply eq_false_of_ne_true
            intro hspawn
            have hvacant : a.record.slot.active = false := by
              apply eq_false_of_ne_true
              intro hactive
              rw [Slot.claim?_eq_none_iff.mpr hactive] at hc
              cases hc
            exact h ⟨hr, hs, (notificationsAllowed_iff.mp ha).2, hvacant, hv, hspawn⟩
          have hcheck := check_of_isValid hv
          simp only [hs, ha, Conversation.check, hcheck, did, hspawn, Rpc.Reply.isOk, Bool.not_true,
            Bool.not_false, Bool.false_eq_true, if_true, if_false]
          exact ⟨rfl, trivial, rfl, rfl, rfl⟩
        · have hcheck := check_of_not_isValid hv
          simp only [hs, ha, Conversation.check, hcheck, Bool.not_true, Bool.not_false,
            Bool.false_eq_true, if_true, if_false]
          exact ⟨trivial, trivial, Agrees.did _ a⟩
    · simpa [hs, ha] using ⟨rfl, Agrees.refl a⟩
  · simpa [hs] using ⟨rfl, Agrees.refl a⟩

variable [Backend.Server β]

theorem dispatch_of_asks (hr : r.operation = .createSubscription) :
    a.dispatch r = a.createSubscription r := by
  rw [dispatch, hr]

theorem dispatch_of_accepts (h : a.Accepts r) : a.dispatch r =
    ({ reply := .ok, task := some a.tasks.length },
      (a.did (.checked r)).spawn r { active := true }) := by
  rw [dispatch_of_asks h.asks, createSubscription_of_accepts h]

/-- A request that is no accepted subscription starts no task and leaves the slot as it is. -/
theorem dispatch_of_not_accepts (h : ¬ a.Accepts r) : (a.dispatch r).1.task = none ∧
    (a.dispatch r).2.tasks = a.tasks ∧ (a.dispatch r).2.record.slot = a.record.slot := by
  cases hr : r.operation with
  | closeSession =>
    rw [dispatch, hr]
    exact ⟨rfl, rfl, rfl⟩
  | killSession =>
    simp only [dispatch, hr, killSession]
    split <;> exact ⟨rfl, rfl, rfl⟩
  | createSubscription =>
    rw [dispatch_of_asks hr]
    have hrefused := createSubscription_of_not_accepts hr h
    exact ⟨hrefused.2.1, hrefused.2.2.tasks, hrefused.2.2.slot⟩
  | other name =>
    rw [dispatch, hr]
    exact ⟨rfl, rfl, rfl⟩

/-- Dispatching a request changes the session in its status at most. -/
theorem dispatch_session (r : Rpc.Request) : (a.dispatch r).2.session = a.session ∨
    (a.dispatch r).2.session = { a.session with status := .terminating } := by
  cases hr : r.operation with
  | closeSession =>
    rw [dispatch, hr]
    exact .inr rfl
  | killSession =>
    simp only [dispatch, hr, killSession]
    split <;> exact .inl rfl
  | createSubscription =>
    rw [dispatch_of_asks hr]
    by_cases h : a.Accepts r
    · rw [createSubscription_of_accepts h]
      exact .inl rfl
    · exact .inl (createSubscription_of_not_accepts hr h).2.2.session
  | other name =>
    rw [dispatch, hr]
    exact .inl rfl

/-- A subscription is accepted exactly if it is given a task. -/
theorem accepts_of_task {i : Nat} (h : (a.dispatch r).1.task = some i) : a.Accepts r := by
  by_cases hr : a.Accepts r
  · exact hr
  · rw [(dispatch_of_not_accepts hr).1] at h
    cases h

end Netconf.Agent
