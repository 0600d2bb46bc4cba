import Mathlib.Data.List.Induction
import Netconf.Proofs.Agent.Answers
import Netconf.Proofs.Agent.Teardown
import Netconf.Proofs.Session.Record

/-! What an agent counts. Every request that it receives, and every message that is no request, is
entered into the registry once, before anything else is received, and each time with the counts of
all that there has been so far. -/
namespace Netconf

/-- Something that is received and counted: a request with what it has come to, or a message that
is no request. -/
inductive Receipt where
  | request (r : Rpc.Request) (d : Dispatch)
  | unknown

namespace Receipt

def decision? : Receipt → Option (Rpc.Request × Dispatch)
  | request r d => some (r, d)
  | unknown => none

def isRequest (e : Receipt) : Bool := e.decision?.isSome

def isBad (e : Receipt) : Bool := e.decision?.isNone

/-- A request that has been answered with errors. -/
def isFailed : Receipt → Bool
  | request _ d => !d.reply.isOk
  | unknown => false

/-- A request for a subscription that has been answered without errors. -/
def isSubscription : Receipt → Bool
  | request r d => decide (r.operation = .createSubscription) && d.reply.isOk
  | unknown => false

/-- What is done about a receipt before it is counted. -/
def acts : Receipt → List Act
  | request r d => [.received (.request r), .replied r d.reply]
  | unknown => [.received .unknown]

end Receipt

/-- How many receipts of each kind there are, in words as counters have them. -/
def tally (es : List Receipt) : Counters where
  requests := countWord Receipt.isRequest es
  badRequests := countWord Receipt.isBad es
  errors := countWord Receipt.isFailed es
  subscriptions := countWord Receipt.isSubscription es

/-- The counters after one more receipt. -/
def Counters.plus (c : Counters) (e : Receipt) : Counters where
  requests := if e.isRequest then c.requests + 1 else c.requests
  badRequests := if e.isBad then c.badRequests + 1 else c.badRequests
  errors := if e.isFailed then c.errors + 1 else c.errors
  subscriptions := if e.isSubscription then c.subscriptions + 1 else c.subscriptions

theorem tally_concat (es : List Receipt) (e : Receipt) :
    tally (es ++ [e]) = (tally es).plus e := by
  simp only [tally, countWord_concat]
  rfl

/-- Counters have the numbers of receipts themselves. -/
structure Counters.Tells (c : Counters) (es : List Receipt) : Prop where
  requests : c.requests.toNat = es.countP Receipt.isRequest
  badRequests : c.badRequests.toNat = es.countP Receipt.isBad
  errors : c.errors.toNat = es.countP Receipt.isFailed
  subscriptions : c.subscriptions.toNat = es.countP Receipt.isSubscription

/-- A tally does, as long as the receipts are fewer than there are words. -/
theorem tally_tells {es : List Receipt} (h : es.length < UInt64.size) : (tally es).Tells es where
  requests := toNat_countWord_of_length h
  badRequests := toNat_countWord_of_length h
  errors := toNat_countWord_of_length h
  subscriptions := toNat_countWord_of_length h

/-- A request has not both failed and started a subscription. -/
theorem countP_isFailed_add_countP_isSubscription_le (es : List Receipt) :
    es.countP Receipt.isFailed + es.countP Receipt.isSubscription ≤
      es.countP Receipt.isRequest := by
  induction es using List.reverseRecOn with
  | nil => exact Nat.le_refl 0
  | append_singleton es e ih =>
    have hone : e.isFailed.toNat + e.isSubscription.toNat ≤ e.isRequest.toNat := by
      cases e with
      | request r d =>
        cases hd : d.reply.isOk <;>
          simp [Receipt.isFailed, Receipt.isSubscription, Receipt.isRequest, Receipt.decision?, hd,
            Bool.toNat_le]
      | unknown => exact Nat.le_refl 0
    simp only [countP_concat]
    omega

/-- The same about a tally, when the requests are fewer than there are words. -/
theorem tally_le {es : List Receipt} (h : es.countP Receipt.isRequest < UInt64.size) :
    (tally es).errors.toNat + (tally es).subscriptions.toNat ≤ (tally es).requests.toNat := by
  have hle := countP_isFailed_add_countP_isSubscription_le es
  have herrors : (tally es).errors.toNat = es.countP Receipt.isFailed :=
    toNat_countWord (by omega)
  have hsubscriptions : (tally es).subscriptions.toNat = es.countP Receipt.isSubscription :=
    toNat_countWord (by omega)
  have hrequests : (tally es).requests.toNat = es.countP Receipt.isRequest := toNat_countWord h
  rwa [herrors, hsubscriptions, hrequests]

namespace Act

/-- Whether something goes into the books: that something was received that counts, that it was
replied to, or that the registry was changed. -/
def isBooking : Act → Bool
  | received (.request _) => true
  | received .unknown => true
  | replied _ _ => true
  | inserted _ => true
  | updated _ => true
  | removed _ => true
  | _ => false

/-- What an act makes of the registry. -/
def enter {ρ : Type} [Registry ρ] (registry : ρ) : Act → ρ
  | inserted s => Registry.insert s registry
  | updated s => Registry.update s registry
  | removed session => Registry.remove session registry
  | _ => registry

theorem isBooking_of_isDelivery {act : Act} (h : act.isDelivery = true) :
    act.isBooking = false := by
  cases act <;> first | rfl | cases h

end Act

/-- What goes into the books for some receipts, where the record stood at `s` before: after the acts
about each there is one update, with the tally up to there. -/
inductive Ledger (s : Snapshot) : List Receipt → List Act → Prop
  | empty : Ledger s [] []
  | receipt {es : List Receipt} {acts : List Act} (e : Receipt) (before : Ledger s es acts) :
      Ledger s (es ++ [e]) (acts ++ (e.acts ++
        [.updated { s with status := .working, counters := tally (es ++ [e]) }]))

/-- An update has the tally of the receipts up to there. -/
theorem Ledger.exists_tally {s u : Snapshot} {es : List Receipt} {acts : List Act}
    (h : Ledger s es acts) (hu : .updated u ∈ acts) :
    ∃ part, part <+: es ∧ u.counters = tally part := by
  induction h with
  | empty => cases hu
  | @receipt es acts e before ih =>
    obtain hbefore | hnow := List.mem_append.mp hu
    · obtain ⟨part, hprefix, hpart⟩ := ih hbefore
      exact ⟨part, hprefix.trans (List.prefix_append es [e]), hpart⟩
    · obtain hacts | hupdate := List.mem_append.mp hnow
      · cases e <;> simp [Receipt.acts] at hacts
      · cases List.mem_singleton.mp hupdate
        exact ⟨es ++ [e], List.prefix_rfl, rfl⟩

namespace Agent

variable {σ δ β ρ : Type} [Registry ρ] {a b c : Agent σ δ β ρ} {l : List Act}

/-- An agent has since entered these things into its books, the registry is what they make of it,
and the record stands at a snapshot. -/
structure Posts (a b : Agent σ δ β ρ) (l : List Act) (s : Snapshot) : Prop where
  acts : ∃ more, b.acts = a.acts ++ more ∧ more.filter Act.isBooking = l
  registry : b.registry = l.foldl Act.enter a.registry
  snapshot : b.record.snapshot = s

namespace Posts

theorem of_same (hacts : b.acts = a.acts) (hregistry : b.registry = a.registry) :
    Posts a b [] b.record.snapshot :=
  ⟨⟨[], by rw [hacts, List.append_nil], rfl⟩, hregistry, rfl⟩

theorem refl (a : Agent σ δ β ρ) : Posts a a [] a.record.snapshot := of_same rfl rfl

theorem trans {l' : List Act} {s s' : Snapshot} (hab : Posts a b l s) (hbc : Posts b c l' s') :
    Posts a c (l ++ l') s' := by
  obtain ⟨more, hb, rfl⟩ := hab.acts
  obtain ⟨more', hc, rfl⟩ := hbc.acts
  refine ⟨⟨more ++ more', by rw [hc, hb, List.append_assoc], List.filter_append ..⟩, ?_,
    hbc.snapshot⟩
  rw [hbc.registry, hab.registry, List.foldl_append]

theorem of_idles (h : Idles a b) : Posts a b [] a.record.snapshot := by
  obtain ⟨more, hacts, hmore⟩ := h.acts
  refine ⟨⟨more, hacts, ?_⟩, h.registry, h.snapshot⟩
  -- What tasks do is only to begin deliveries.
  rw [List.filter_eq_nil_iff] at hmore ⊢
  intro act hact
  have hdelivery : act.isDelivery = true := by simpa using hmore act hact
  simp [Act.isBooking_of_isDelivery hdelivery]

/-- An act that leaves the registry alone. -/
theorem did (act : Act) (h : ∀ registry : ρ, act.enter registry = registry)
    (a : Agent σ δ β ρ) : Posts a (a.did act) ([act].filter Act.isBooking) a.record.snapshot := by
  refine ⟨⟨[act], rfl, rfl⟩, ?_, rfl⟩
  cases hact : act.isBooking with
  | true =>
    rw [List.filter_cons_of_pos hact]
    exact (h a.registry).symm
  | false =>
    rw [List.filter_cons_of_neg (by simp [hact])]
    rfl

theorem note (entry : SessionRecord × SessionEvent) (a : Agent σ δ β ρ) :
    Posts a (a.note entry) [] entry.1.snapshot :=
  ⟨⟨[.noted entry.1.id entry.2], rfl, rfl⟩, rfl, rfl⟩

theorem publish (a : Agent σ δ β ρ) :
    Posts a a.publish [.updated a.record.snapshot] a.record.snapshot :=
  ⟨⟨[.updated a.record.snapshot], rfl, rfl⟩, rfl, rfl⟩

/-- The record of an agent that leaves has been closed. -/
theorem leave (exit : Exit) (a : Agent σ δ β ρ) : Posts a (a.leave exit)
    [.removed a.record.id] { a.record.snapshot with status := .terminated } := by
  have hremoved : Posts a ({ a with registry := Registry.remove a.record.id a.registry }.did
      (.removed a.record.id)) [.removed a.record.id] a.record.snapshot :=
    ⟨⟨[.removed a.record.id], rfl, rfl⟩, rfl, rfl⟩
  unfold Agent.leave SessionRecord.close
  dsimp only [Agent.did] at hremoved ⊢
  by_cases hover : a.record.status = .terminated
  · rw [if_pos hover]
    refine ⟨hremoved.acts, hremoved.registry, ?_⟩
    simp [SessionRecord.snapshot, hover]
  · rw [if_neg hover]
    exact hremoved.trans (note _ _)

theorem launch (d : Dispatch) (a : Agent σ δ β ρ) : Posts a (a.launch d) []
    { a.record.snapshot with counters := { a.record.counters with
        subscriptions := if d.task.isSome then a.record.counters.subscriptions + 1
          else a.record.counters.subscriptions } } := by
  unfold Agent.launch
  cases d.task with
  | none => exact refl a
  | some i =>
    have hreleased := of_idles (Idles.release i a)
    have hcurrent : Posts a { a.release i with current := some i } [] a.record.snapshot :=
      ⟨hreleased.acts, hreleased.registry, hreleased.snapshot⟩
    exact hcurrent.trans (note _ _)

/-- A record that is open counts a request. -/
theorem count (r : Rpc.Request) (reply : Rpc.Reply) {s : Snapshot}
    (hs : s = { a.record.snapshot with counters := { a.record.counters with
      requests := a.record.counters.requests + 1
      errors := if !reply.isOk then a.record.counters.errors + 1
        else a.record.counters.errors } })
    (isOpen : a.record.status ≠ .terminated) :
    Posts a (a.count r reply) [.updated s] s := by
  subst hs
  unfold Agent.count SessionRecord.handled
  rw [if_neg isOpen]
  exact (note _ a).trans (publish _)

/-- A request is counted together with the subscription that it has started. -/
theorem record {r : Rpc.Request} {d : Dispatch} {s : Snapshot}
    (hs : s = { a.record.snapshot with counters := a.record.counters.plus (.request r d) })
    (isOpen : a.record.status ≠ .terminated)
    (task : d.task.isSome = (Receipt.request r d).isSubscription) :
    Posts a ((a.launch d).count r d.reply) [.updated s] s := by
  have hlaunch := launch d a
  have hstatus : (a.launch d).record.status = a.record.status :=
    congrArg Snapshot.status hlaunch.snapshot
  have hcounters := congrArg Snapshot.counters hlaunch.snapshot
  dsimp only [SessionRecord.snapshot] at hcounters
  refine hlaunch.trans (count r d.reply ?_ (by rw [hstatus]; exact isOpen))
  rw [hlaunch.snapshot, hcounters, task, hs]
  rfl

section

variable [Conversation σ δ]

theorem look (a : Agent σ δ β ρ) : Posts a a.look.2 []
    { a.record.snapshot with status := a.look.2.record.status } := by
  unfold Agent.look SessionRecord.observe
  split
  · exact refl a
  · dsimp only
    split <;> split <;> exact ⟨⟨[], (List.append_nil _).symm, rfl⟩, rfl, rfl⟩

/-- A message that is no request is counted. -/
theorem reject {s : Snapshot} (hs : s = { a.record.snapshot with
      counters := a.record.counters.plus .unknown }) : Posts a a.reject.2 [.updated s] s := by
  have h : Posts a (a.note a.record.rejected).publish [.updated s] s := by
    subst hs
    exact (note a.record.rejected a).trans (publish _)
  unfold Agent.reject
  dsimp only
  split <;> exact h

theorem createSubscription (r : Rpc.Request) (a : Agent σ δ β ρ) :
    Posts a (a.createSubscription r).2 [] a.record.snapshot := by
  have hchecked : Posts a (a.did (.checked r)) [] a.record.snapshot := did _ (fun _ => rfl) a
  unfold Agent.createSubscription
  split
  · exact refl a
  · split
    · exact refl a
    · split
      · exact refl a
      · dsimp only
        split
        · exact hchecked
        · split
          · exact hchecked
          · exact ⟨hchecked.acts, hchecked.registry, rfl⟩

variable [Backend.Server β]

theorem closeAtServer (a : Agent σ δ β ρ) : Posts a a.closeAtServer.2 [] a.record.snapshot :=
  ⟨⟨[.closed (Conversation.id a.session)], rfl, rfl⟩, rfl, rfl⟩

theorem dispatch (r : Rpc.Request) (a : Agent σ δ β ρ) :
    Posts a (a.dispatch r).2 [] a.record.snapshot := by
  have hserver : ∀ server, Posts a { a with server } [] a.record.snapshot :=
    fun server => of_same rfl rfl
  unfold Agent.dispatch
  split
  · have hsession : ∀ session, Posts a.closeAtServer.2 { a.closeAtServer.2 with session } []
        a.record.snapshot := fun session => of_same rfl rfl
    exact ((closeAtServer a).trans (hsession _)).trans
      (did (.setStatus .terminating) (fun _ => rfl) _)
  · unfold killSession
    split
    · exact refl a
    · next target _ => exact (hserver _).trans (did (.killed _ target) (fun _ => rfl) _)
  · exact createSubscription r a
  · exact (hserver _).trans (did (.forwarded _ r) (fun _ => rfl) _)

end
end Posts

omit [Registry ρ] in
/-- A task is started for just the requests for subscriptions that are answered without errors. -/
theorem isSome_task_dispatch [Backend.Server β] (r : Rpc.Request)
    (a : Agent FramedSession Delivery β ρ) :
    (a.dispatch r).1.task.isSome = (Receipt.request r (a.dispatch r).1).isSubscription := by
  by_cases h : a.Accepts r
  · rw [dispatch_of_accepts h]
    simp [Receipt.isSubscription, h.asks, Rpc.Reply.isOk]
  · rw [(dispatch_of_not_accepts h).1]
    by_cases hr : r.operation = .createSubscription
    · have hrefused := (createSubscription_of_not_accepts hr h).1
      rw [← dispatch_of_asks hr] at hrefused
      simp [Receipt.isSubscription, hrefused]
    · simp [Receipt.isSubscription, hr]

end Agent

def Happening.decision? : Happening → Option (Rpc.Request × Dispatch)
  | decided r d => some (r, d)
  | _ => none

/-- What requests have come to, in the order in which that was decided. -/
def decisions (hs : List Happening) : List (Rpc.Request × Dispatch) :=
  hs.filterMap Happening.decision?

@[simp] theorem decisions_append (hs l : List Happening) :
    decisions (hs ++ l) = decisions hs ++ decisions l := List.filterMap_append

theorem decisions_of_others {l : List Happening} (h : ∀ e ∈ l, e.party? ≠ some .loop) :
    decisions l = [] := by
  rw [decisions, List.filterMap_eq_nil_iff]
  intro e he
  cases e with
  | decided r d => exact absurd rfl (h _ he)
  | _ => rfl

namespace Station

/-- What has gone into the books where the loop stands, behind all that is about whole receipts. -/
def unfinished (id : SessionId) : Station → List Act
  | dispatching r => [.received (.request r)]
  | replying r _ => [.received (.request r)]
  | recording r d => [.received (.request r), .replied r d.reply]
  | ended _ => [.removed id]
  | _ => []

/-- What the request has come to that the loop is about, once that is decided. -/
def decision? : Station → Option (Rpc.Request × Dispatch)
  | replying r d => some (r, d)
  | recording r d => some (r, d)
  | _ => none

/-- There is no receipt that has gone into the books in part. -/
def IsSettled (station : Station) : Prop :=
  (∀ id, station.unfinished id = []) ∧ station.decision? = none

/-- The status of the record where the loop stands. A request that has been decided has a task if
it has started a subscription. -/
def Records : Station → Status → Prop
  | looking, status => status ≠ .terminated
  | replying r d, status =>
    status = .working ∧ d.task.isSome = (Receipt.request r d).isSubscription
  | recording r d, status =>
    status = .working ∧ d.task.isSome = (Receipt.request r d).isSubscription
  | waiting, status => status = .working
  | receiving, status => status = .working
  | judging _, status => status = .working
  | heeding _, status => status = .working
  | dispatching _, status => status = .working
  | _, _ => True

end Station

namespace Running

variable {β ρ : Type} [Registry ρ] {start s t : Running β ρ} {hs l : List Happening}
  {es : List Receipt}

/-- The books of an agent after some receipts. -/
structure Balanced (start : Running β ρ) (hs : List Happening) (s : Running β ρ)
    (es : List Receipt) : Prop where
  posts : ∃ acts, Ledger start.agent.record.snapshot es acts ∧
    start.agent.Posts s.agent (acts ++ s.station.unfinished start.agent.record.id)
      { start.agent.record.snapshot with status := s.agent.record.status, counters := tally es }
  decisions : decisions hs = es.filterMap Receipt.decision? ++ s.station.decision?.toList
  records : s.station.Records s.agent.record.status

namespace Balanced

theorem sameId (h : Balanced start hs s es) : s.agent.record.id = start.agent.record.id := by
  obtain ⟨acts, -, hposts⟩ := h.posts
  exact congrArg Snapshot.id hposts.snapshot

theorem counters (h : Balanced start hs s es) : s.agent.record.counters = tally es := by
  obtain ⟨acts, -, hposts⟩ := h.posts
  exact congrArg Snapshot.counters hposts.snapshot

/-- A step on which no receipt is counted. -/
theorem further (h : Balanced start hs s es) {acts : List Act} {status : Status}
    (posts : s.agent.Posts t.agent acts { s.agent.record.snapshot with status })
    (unfinished : t.station.unfinished s.agent.record.id =
      s.station.unfinished s.agent.record.id ++ acts)
    (decision : t.station.decision?.toList = s.station.decision?.toList ++ Netconf.decisions l)
    (records : t.station.Records status) : Balanced start (hs ++ l) t es := by
  obtain ⟨before, hledger, hposts⟩ := h.posts
  obtain rfl : t.agent.record.status = status := congrArg Snapshot.status posts.snapshot
  have hafter := hposts.trans posts
  rw [h.sameId] at unfinished
  refine ⟨⟨before, hledger, ?_⟩, ?_, records⟩
  · rw [unfinished, ← List.append_assoc]
    rw [hposts.snapshot] at hafter
    exact hafter
  · rw [decisions_append, h.decisions, decision, List.append_assoc]

/-- A step on which a receipt is counted. -/
theorem complete (h : Balanced start hs s es) (e : Receipt) {acts : List Act} {u : Snapshot}
    (posts : s.agent.Posts t.agent (acts ++ [.updated u]) u)
    (hu : u = { s.agent.record.snapshot with counters := s.agent.record.counters.plus e })
    (works : s.agent.record.status = .working)
    (known : s.station.unfinished s.agent.record.id ++ acts = e.acts)
    (finished : t.station.unfinished s.agent.record.id = [])
    (decision : s.station.decision?.toList = e.decision?.toList)
    (undecided : t.station.decision? = none) (quiet : Netconf.decisions l = [])
    (records : t.station.Records .working) : Balanced start (hs ++ l) t (es ++ [e]) := by
  obtain ⟨before, hledger, hposts⟩ := h.posts
  have hsnapshot : u = { start.agent.record.snapshot with
      status := .working, counters := tally (es ++ [e]) } := by
    rw [hu, hposts.snapshot, h.counters, works, tally_concat]
  have hstatus : t.agent.record.status = .working :=
    (congrArg Snapshot.status posts.snapshot).trans (congrArg Snapshot.status hsnapshot)
  have hafter := hposts.trans posts
  rw [h.sameId] at known finished
  refine ⟨⟨_, hledger.receipt e, ?_⟩, ?_, ?_⟩
  · rw [finished, List.append_nil, ← known, hstatus, ← hsnapshot]
    simpa only [List.append_assoc] using hafter
  · rw [decisions_append, h.decisions, quiet, undecided, decision, List.filterMap_append]
    cases hd : e.decision? <;> simp [hd]
  · rw [hstatus]
    exact records

/-- A step that leaves the loop where it stands, and its record as it is. -/
theorem same (h : Balanced start hs s es) (station : t.station = s.station)
    (posts : s.agent.Posts t.agent [] s.agent.record.snapshot)
    (quiet : Netconf.decisions l = []) : Balanced start (hs ++ l) t es := by
  refine h.further posts ?_ ?_ ?_
  · rw [station, List.append_nil]
  · rw [station, quiet, List.append_nil]
  · rw [station]
    exact h.records

/-- A step in which the loop goes on between two receipts, and its record stays as it is. -/
theorem between {station : Station} (h : Balanced start hs s es) (at_ : s.station = station)
    (before : station.IsSettled) (posts : s.agent.Posts t.agent [] s.agent.record.snapshot)
    (after : t.station.IsSettled) (quiet : Netconf.decisions l = [])
    (records : t.station.Records s.agent.record.status) : Balanced start (hs ++ l) t es := by
  refine h.further posts ?_ ?_ records
  · rw [at_, before.1, after.1, List.append_nil]
  · rw [at_, before.2, after.2, quiet]
    rfl

theorem records_at {station : Station} (h : Balanced start hs s es) (at_ : s.station = station) :
    station.Records s.agent.record.status := at_ ▸ h.records

end Balanced

omit [Registry ρ] in
theorem look_works {a : Agent FramedSession Delivery β ρ} (h : a.look.1 = none)
    (isOpen : a.record.status ≠ .terminated) : a.look.2.record.status = .working := by
  unfold Agent.look SessionRecord.observe at h ⊢
  split at h
  · cases h
  · next hasked =>
    rw [if_neg hasked]
    dsimp only at h ⊢
    rw [if_neg isOpen]
    split at h
    · next hworks => rw [if_pos hworks, hworks]
    · cases h

theorem look_balanced (h : Balanced start hs s es) (hstation : s.station = .looking) :
    Balanced start (hs ++ []) s.look es := by
  have hposts := Agent.Posts.look s.agent
  have hworks := @look_works _ _ s.agent
  unfold look
  generalize s.agent.look = p at hposts hworks
  obtain ⟨exit?, a⟩ := p
  cases exit? with
  | some exit => exact h.further hposts (by rw [hstation]; rfl) (by rw [hstation]; rfl) trivial
  | none =>
    exact h.further hposts (by rw [hstation]; rfl) (by rw [hstation]; rfl)
      (hworks rfl (h.records_at hstation))

theorem receive_balanced (h : Balanced start hs s es) (hstation : s.station = .receiving) :
    Balanced start (hs ++ s.receive.1) s.receive.2 es := by
  have hworks := h.records_at hstation
  have hsession : ∀ session, s.agent.Posts { s.agent with session } [] s.agent.record.snapshot :=
    fun session => .of_same rfl rfl
  unfold receive
  dsimp only
  split
  · exact h.between hstation ⟨fun _ => rfl, rfl⟩ (hsession _) ⟨fun _ => rfl, rfl⟩ rfl hworks
  · exact h.between hstation ⟨fun _ => rfl, rfl⟩ (hsession _) ⟨fun _ => rfl, rfl⟩ rfl hworks
  · exact h.between hstation ⟨fun _ => rfl, rfl⟩ (hsession _) ⟨fun _ => rfl, rfl⟩ rfl hworks
  · exact h.between hstation ⟨fun _ => rfl, rfl⟩ (.refl _) ⟨fun _ => rfl, rfl⟩ rfl hworks

theorem judge_balanced {m : Bytes} (h : Balanced start hs s es)
    (hstation : s.station = .judging m) :
    Balanced start (hs ++ (s.judge m).1) (s.judge m).2 es := by
  have hworks := h.records_at hstation
  unfold judge
  split
  · exact h.between hstation ⟨fun _ => rfl, rfl⟩ (.refl _) ⟨fun _ => rfl, rfl⟩ rfl hworks
  · exact h.same rfl (.refl _) rfl

theorem reply_balanced {r : Rpc.Request} {d : Dispatch} (h : Balanced start hs s es)
    (hstation : s.station = .replying r d) :
    Balanced start (hs ++ (s.reply r d).1) (s.reply r d).2 es := by
  have hrecords := h.records_at hstation
  unfold reply
  split
  · exact h.further (Agent.Posts.did (.replied r d.reply) (fun _ => rfl) s.agent)
      (by rw [hstation]; rfl) (by rw [hstation]; rfl) hrecords
  · exact h.same rfl (.refl _) rfl

variable [Backend.Server β]

theorem wait_balanced (h : Balanced start hs s es) (hstation : s.station = .waiting) :
    Balanced start (hs ++ []) s.wait es := by
  have hworks : s.agent.record.status = .working := h.records_at hstation
  have hlives : s.agent.record.status ≠ .terminated := by simp [hworks]
  have hwaited : ∀ session outcome, s.agent.Posts
      ({ s.agent with session }.did (.waited outcome)) [] s.agent.record.snapshot :=
    fun session outcome => ⟨⟨[.waited outcome], rfl, rfl⟩, rfl, rfl⟩
  have hsettled : Station.waiting.IsSettled := ⟨fun _ => rfl, rfl⟩
  unfold wait
  dsimp only
  split
  · exact h.between hstation hsettled (hwaited _ _) ⟨fun _ => rfl, rfl⟩ rfl trivial
  · exact h.between hstation hsettled (hwaited _ _) ⟨fun _ => rfl, rfl⟩ rfl hlives
  · exact h.between hstation hsettled (hwaited _ _) ⟨fun _ => rfl, rfl⟩ rfl hlives
  · exact h.between hstation hsettled ((hwaited _ _).trans (.closeAtServer _))
      ⟨fun _ => rfl, rfl⟩ rfl trivial
  · exact h.between hstation hsettled (hwaited _ _) ⟨fun _ => rfl, rfl⟩ rfl trivial
  · exact h.between hstation hsettled (hwaited _ _) ⟨fun _ => rfl, rfl⟩ rfl hworks

theorem heed_balanced {r : Received} (h : Balanced start hs s es)
    (hstation : s.station = .heeding r) : ∃ es, Balanced start (hs ++ []) (s.heed r) es := by
  have hworks : s.agent.record.status = .working := h.records_at hstation
  have hlives : s.agent.record.status ≠ .terminated := by simp [hworks]
  cases r with
  | request q =>
    exact ⟨es, h.further (Agent.Posts.did (.received (.request q)) (fun _ => rfl) s.agent)
      (by rw [hstation]; rfl) (by rw [hstation]; rfl) hworks⟩
  | nothing =>
    exact ⟨es, h.between hstation ⟨fun _ => rfl, rfl⟩
      (Agent.Posts.did (.received .nothing) (fun _ => rfl) s.agent) ⟨fun _ => rfl, rfl⟩ rfl hlives⟩
  | hungUp =>
    have hposts : s.agent.Posts (s.agent.did (.received .hungUp)).hangUp.2 []
        s.agent.record.snapshot :=
      (Agent.Posts.did (.received .hungUp) (fun _ => rfl) s.agent).trans (.closeAtServer _)
    exact ⟨es, h.between hstation ⟨fun _ => rfl, rfl⟩ hposts ⟨fun _ => rfl, rfl⟩ rfl trivial⟩
  | unknown =>
    have hposts := (Agent.Posts.did (.received .unknown) (fun _ => rfl) s.agent).trans
      (.reject rfl)
    have hafter : (s.heed .unknown).station.IsSettled ∧
        (s.heed .unknown).station.Records .working := by
      unfold heed turned goTo Agent.heed Agent.reject
      dsimp only
      split
      · exact ⟨⟨fun _ => rfl, rfl⟩, by simp [Turn.station, Station.Records]⟩
      · exact ⟨⟨fun _ => rfl, rfl⟩, trivial⟩
    exact ⟨es ++ [.unknown], h.complete .unknown hposts rfl hworks (by rw [hstation]; rfl)
      (hafter.1.1 _) (by rw [hstation]; rfl) hafter.1.2 rfl hafter.2⟩

theorem loopStep_balanced (h : Balanced start hs s es) :
    ∃ es, Balanced start (hs ++ s.loopStep.1) s.loopStep.2 es := by
  unfold loopStep
  cases hst : s.station with
  | looking => exact ⟨es, look_balanced h hst⟩
  | waiting => exact ⟨es, wait_balanced h hst⟩
  | receiving => exact ⟨es, receive_balanced h hst⟩
  | judging m => exact ⟨es, judge_balanced h hst⟩
  | heeding r => exact heed_balanced h hst
  | dispatching r =>
    exact ⟨es, h.further (Agent.Posts.dispatch r s.agent) (by rw [hst]; rfl) (by rw [hst]; rfl)
      ⟨h.records_at hst, Agent.isSome_task_dispatch r s.agent⟩⟩
  | replying r d => exact ⟨es, reply_balanced h hst⟩
  | recording r d =>
    obtain ⟨hworks, htask⟩ := h.records_at hst
    have hposts : s.agent.Posts ((s.agent.launch d).count r d.reply) ([] ++ [.updated _]) _ :=
      Agent.Posts.record rfl (by simp [hworks]) htask
    exact ⟨es ++ [.request r d], h.complete (.request r d) hposts rfl hworks
      (by rw [hst]; rfl) rfl (by rw [hst]; rfl) rfl rfl (by simp [goTo, Station.Records])⟩
  | closing exit =>
    have hposts := Agent.Posts.did .endedSession (fun _ => rfl)
      { s.agent with session := s.agent.session.close }
    have hclosed : s.agent.Posts s.agent.endSession [] s.agent.record.snapshot :=
      ⟨hposts.acts, hposts.registry, rfl⟩
    exact ⟨es, h.between hst ⟨fun _ => rfl, rfl⟩ hclosed ⟨fun _ => rfl, rfl⟩ rfl trivial⟩
  | dismissing exit =>
    exact ⟨es, h.between hst ⟨fun _ => rfl, rfl⟩ (.of_idles (callOff_idles s.agent))
      ⟨fun _ => rfl, rfl⟩ rfl trivial⟩
  | leaving exit =>
    have hposts := Agent.Posts.leave exit { s.agent with current := none }
    have hleft : s.agent.Posts ({ s.agent with current := none }.leave exit)
        [.removed s.agent.record.id] { s.agent.record.snapshot with status := .terminated } :=
      ⟨hposts.acts, hposts.registry, hposts.snapshot⟩
    exact ⟨es, h.further hleft (by rw [hst]; rfl) (by rw [hst]; rfl) trivial⟩
  | ended exit => exact ⟨es, h.same rfl (.refl _) rfl⟩

omit [Backend.Server β] in
theorem goOn_loop_balanced (m : Message) (h : Balanced start hs s es)
    (quiet : Netconf.decisions l = []) : Balanced start (hs ++ l) (s.goOn .loop m) es := by
  unfold goOn
  dsimp only
  split
  · next x hst =>
    have hworks := h.records_at hst
    exact h.between hst ⟨fun _ => rfl, rfl⟩ (.refl _) ⟨fun _ => rfl, rfl⟩ quiet hworks
  · next r d hst =>
    have hrecords := h.records_at hst
    exact h.further (Agent.Posts.did (.replied r d.reply) (fun _ => rfl) s.agent)
      (by rw [hst]; rfl) (by rw [hst, quiet]; rfl) hrecords
  · exact h.same rfl (.refl _) quiet

/-- Whatever happens, the books stay in order. -/
theorem Step.balanced (step : Step s l t) (h : Balanced start hs s es) :
    ∃ es, Balanced start (hs ++ l) t es := by
  obtain hrests | ⟨-, rfl, rfl⟩ | ⟨m, -, hl, rfl⟩ := step.rests_or_own
  · exact ⟨es, h.same hrests.station (.of_idles hrests.idles) (decisions_of_others hrests.others)⟩
  · exact loopStep_balanced h
  · have quiet : Netconf.decisions l = [] := by
      obtain rfl | rfl := hl <;> rfl
    exact ⟨es, goOn_loop_balanced m (s := s.quit .loop) ⟨h.posts, h.decisions, h.records⟩ quiet⟩

/-- The books of an agent are in order from the start. -/
theorem Execution.balanced (fresh : start.IsFresh)
    (isOpen : start.agent.record.status ≠ .terminated) (new : start.agent.record.counters = {})
    (run : Execution start hs s) : ∃ es, Balanced start hs s es := by
  induction run with
  | start =>
    have hstart : start.agent.Posts start.agent [] { start.agent.record.snapshot with
        status := start.agent.record.status, counters := tally [] } := by
      have hrefl := Agent.Posts.refl start.agent
      have hcounters : start.agent.record.snapshot.counters = tally [] := new
      rwa [← hcounters]
    refine ⟨[], ⟨[], .empty, ?_⟩, ?_, ?_⟩
    · rw [fresh.looks]
      exact hstart
    · rw [fresh.looks]
      rfl
    · rw [fresh.looks]
      exact isOpen
  | step before step ih =>
    obtain ⟨es, h⟩ := ih
    exact step.balanced h

/-- The books of an agent: there is an order of receipts such that what has gone into the books is
one update for each, right behind that it was received and how it was replied to, and each time
with the tally up to there, besides the part about what the loop is about. The registry is what
these changes make of it, and the record has the tally of all. The requests among the receipts are
those that have been decided, with what the dispatcher has made of them, in that order. The words
of an update have the numbers of the receipts up to there, unless these are as many as there are
words. In no update there are more failed requests and subscriptions than requests: neither among
the receipts nor, unless there are as many requests as words, in its words. -/
structure HasTallied (start : Running β ρ) (hs : List Happening) (s : Running β ρ) : Prop where
  books : ∃ es acts, Ledger start.agent.record.snapshot es acts ∧
    start.agent.Posts s.agent (acts ++ s.station.unfinished start.agent.record.id)
      { start.agent.record.snapshot with
        status := s.agent.record.status, counters := tally es } ∧
    decisions hs = es.filterMap Receipt.decision? ++ s.station.decision?.toList ∧
    ∀ u, .updated u ∈ acts → ∃ part, part <+: es ∧ u.counters = tally part ∧
      (part.length < UInt64.size → u.counters.Tells part) ∧
      part.countP Receipt.isFailed + part.countP Receipt.isSubscription ≤
        part.countP Receipt.isRequest ∧
      (part.countP Receipt.isRequest < UInt64.size →
        u.counters.errors.toNat + u.counters.subscriptions.toNat ≤ u.counters.requests.toNat)
  dispatched : ∀ pre r d post, hs = pre ++ .decided r d :: post → ∃ u, Execution start pre u ∧
    u.station = .dispatching r ∧ (u.agent.dispatch r).1 = d

theorem Execution.hasTallied (fresh : start.IsFresh)
    (isOpen : start.agent.record.status ≠ .terminated) (new : start.agent.record.counters = {})
    (run : Execution start hs s) : HasTallied start hs s := by
  obtain ⟨es, h⟩ := run.balanced fresh isOpen new
  obtain ⟨acts, hledger, hposts⟩ := h.posts
  refine ⟨⟨es, acts, hledger, hposts, h.decisions, fun u hu => ?_⟩, fun pre r d post => run.decided⟩
  obtain ⟨part, hprefix, hpart⟩ := hledger.exists_tally hu
  rw [hpart]
  exact ⟨part, hprefix, rfl, tally_tells, countP_isFailed_add_countP_isSubscription_le part,
    tally_le⟩

/-- Whatever its client and everybody else do, and whether or not its replies get out, an agent that
begins a session keeps its books in order. This is so at any point of its work, and when it serves
a session in one go. -/
theorem updates_in_order (fresh : start.IsFresh)
    (isOpen : start.agent.record.status ≠ .terminated)
    (new : start.agent.record.counters = {}) :
    (∀ hs s, Execution start hs s → HasTallied start hs s) ∧
      ∀ outcome a, start.agent.serve = (outcome, a) →
        ∃ hs, HasTallied start hs (at_ outcome.restingStation a) := by
  refine ⟨fun hs s run => run.hasTallied fresh isOpen new, fun outcome a hserve => ?_⟩
  obtain ⟨hs, run, -⟩ := reaches_serve start.agent
  rw [fresh.at_looking, hserve] at run
  exact ⟨hs, run.hasTallied fresh isOpen new⟩

/-- A client whose second message lacks an identifier and whose third is no text has four messages
counted, and a client that asks to end the session is served in one go. -/
theorem conversed_updates_in_order :
    (conversing.IsFresh ∧ conversing.agent.record.status ≠ .terminated ∧
      conversing.agent.record.counters = {} ∧
      ∃ s, Execution conversing conversed s ∧ HasTallied conversing conversed s ∧
        s.agent.record.counters =
          { requests := 2, badRequests := 2, errors := 0, subscriptions := 0 }) ∧
    departing.IsFresh ∧ departing.agent.record.status ≠ .terminated ∧
      departing.agent.record.counters = {} ∧
      ∃ a hs, departing.agent.serve = (.ended .closed, a) ∧
        HasTallied departing hs (at_ (.ended .closed) a) := by
  have hlives : conversing.agent.record.status ≠ .terminated := by decide
  have hopen : departing.agent.record.status ≠ .terminated := by decide
  have hfresh : departing.IsFresh := ⟨rfl, rfl, rfl, rfl, rfl⟩
  refine ⟨⟨conversing_isFresh, hlives, rfl, ?_⟩, hfresh, hopen, rfl, ?_⟩
  · obtain ⟨s, run, -, -, hcounters⟩ := conversing_conversed
    exact ⟨s, run, (updates_in_order conversing_isFresh hlives rfl).1 _ s run, hcounters⟩
  · have hserve : departing.agent.serve = (.ended .closed, departing.agent.serve.2) :=
      Prod.ext departing_exit rfl
    obtain ⟨hs, htallied⟩ := (updates_in_order hfresh hopen rfl).2 _ _ hserve
    exact ⟨_, hs, hserve, htallied⟩

end Running
end Netconf
