import Netconf.Agent.ActForm
import Netconf.Agent.Loop

/-! What an agent has in its books: what it has done, and the record of its session. While the
session goes on it does only what is usual. What its tasks do leaves record and registry alone. -/
namespace Netconf

namespace Act

/-- What is written into the journal, and of which session. -/
def noted? : Act → Option (SessionId × SessionEvent)
  | noted session e => some (session, e)
  | _ => none

/-- Something that is done while a session goes on. If it is written into the journal, it is about
the session, and not that the session has been closed. -/
def IsUsual (id : SessionId) : Act → Prop
  | endedSession => False
  | removed _ => False
  | noted session e => session = id ∧ ∀ reason, e ≠ .closed reason
  | _ => True

theorem isUsual_noted {id session : SessionId} {e : SessionEvent} :
    (noted session e).IsUsual id ↔ session = id ∧ ∀ reason, e ≠ .closed reason := Iff.rfl

/-- What is usual for a session has entries of the session alone, and none that it was closed. -/
theorem entries_of_isUsual {id : SessionId} {l : List Act} (h : ∀ act ∈ l, act.IsUsual id) :
    ∃ events : List SessionEvent, (∀ e ∈ events, ∀ reason, e ≠ .closed reason) ∧
      l.filterMap noted? = events.map fun e => (id, e) := by
  induction l with
  | nil => exact ⟨[], by simp, rfl⟩
  | cons act l ih =>
    obtain ⟨hact, hl⟩ := List.forall_mem_cons.mp h
    obtain ⟨events, hevents, heq⟩ := ih hl
    cases act with
    | noted session e =>
      obtain ⟨rfl, he⟩ := isUsual_noted.mp hact
      exact ⟨e :: events, List.forall_mem_cons.mpr ⟨he, hevents⟩, by simp [noted?, heq]⟩
    | _ => exact ⟨events, hevents, heq⟩

theorem noted?_of_isDelivery {act : Act} (h : act.isDelivery = true) : act.noted? = none := by
  cases act <;> first | rfl | cases h

end Act

namespace Agent

variable {σ δ β ρ : Type} {a b c : Agent σ δ β ρ} {l : List Act}

/-- What has been written into the journal, the oldest first. -/
def journal (a : Agent σ δ β ρ) : List (SessionId × SessionEvent) := a.acts.filterMap Act.noted?

/-- But for deliveries of events that have begun, an agent has since done just these things. -/
def Adds (a b : Agent σ δ β ρ) (l : List Act) : Prop :=
  ∃ more, b.acts = a.acts ++ more ∧ more.filter (fun act => !act.isDelivery) = l

namespace Adds

theorem of_same (h : b.acts = a.acts) : a.Adds b [] := ⟨[], by rw [h, List.append_nil], rfl⟩

theorem trans {l' : List Act} (hab : a.Adds b l) (hbc : b.Adds c l') : a.Adds c (l ++ l') := by
  obtain ⟨more, hb, rfl⟩ := hab
  obtain ⟨more', hc, rfl⟩ := hbc
  exact ⟨more ++ more', by rw [hc, hb, List.append_assoc], List.filter_append ..⟩

theorem did {act : Act} (h : act.isDelivery = false) (a : Agent σ δ β ρ) :
    a.Adds (a.did act) [act] := ⟨[act], rfl, by simp [h]⟩

/-- Beginning a delivery is not written into the journal. -/
theorem journal (h : a.Adds b l) : b.journal = a.journal ++ l.filterMap Act.noted? := by
  obtain ⟨more, hb, rfl⟩ := h
  rw [Agent.journal, hb, List.filterMap_append, List.filterMap_filter]
  congr 2
  funext act
  cases hact : act.isDelivery with
  | false => simp
  | true => simp [Act.noted?_of_isDelivery hact]

end Adds

/-- An agent of which only tasks have done anything since. -/
structure Idles (a b : Agent σ δ β ρ) : Prop where
  snapshot : b.record.snapshot = a.record.snapshot
  registry : b.registry = a.registry
  acts : a.Adds b []

/-- An agent that has since done what is usual, and nothing that ends its record. -/
structure CarriesOn (a b : Agent σ δ β ρ) : Prop where
  sameId : b.record.id = a.record.id
  lives : a.record.status ≠ .terminated → b.record.status ≠ .terminated
  acts : ∃ l, a.Adds b l ∧ ∀ act ∈ l, act.IsUsual a.record.id

namespace Idles

theorem sameId (h : Idles a b) : b.record.id = a.record.id := congrArg Snapshot.id h.snapshot

theorem status (h : Idles a b) : b.record.status = a.record.status :=
  congrArg Snapshot.status h.snapshot

theorem refl (a : Agent σ δ β ρ) : Idles a a := ⟨rfl, rfl, .of_same rfl⟩

theorem trans (hab : Idles a b) (hbc : Idles b c) : Idles a c :=
  ⟨hbc.snapshot.trans hab.snapshot, hbc.registry.trans hab.registry, hab.acts.trans hbc.acts⟩

theorem carriesOn (h : Idles a b) : CarriesOn a b :=
  ⟨h.sameId, by rw [h.status]; exact id, [], h.acts, by simp⟩

theorem setStage (i : Nat) (stage : Stage δ) (a : Agent σ δ β ρ) : Idles a (a.setStage i stage) :=
  ⟨rfl, rfl, .of_same rfl⟩

theorem endTask (i : Nat) (stage : Stage δ) (a : Agent σ δ β ρ) : Idles a (a.endTask i stage) :=
  ⟨rfl, rfl, .of_same rfl⟩

theorem release (i : Nat) (a : Agent σ δ β ρ) : Idles a (a.release i) := by
  unfold Agent.release
  split
  · exact setStage i _ a
  · exact refl a

theorem withdraw (i : Nat) (a : Agent σ δ β ρ) : Idles a (a.withdraw i) := by
  unfold Agent.withdraw
  split
  · exact setStage i _ a
  · exact refl a

theorem progress (i : Nat) (p : Progress δ) (a : Agent σ δ β ρ) : Idles a (a.progress i p).1 := by
  cases p with
  | going d => exact setStage i _ a
  | waiting d => exact setStage i _ a
  | ended sent => exact endTask i _ a
  | failed => exact endTask i _ a

theorem stepTask [Conversation σ δ] (i : Nat) (a : Agent σ δ β ρ) :
    Idles a (a.stepTask i).1 := by
  unfold Agent.stepTask
  split
  · exact refl a
  · next t _ =>
    split
    · exact endTask i _ a
    · have hbegan : ∀ session, Idles a ({ a with session }.did (.beganDelivery t.request)) :=
        fun session => ⟨rfl, rfl, [.beganDelivery t.request], rfl, rfl⟩
      exact (hbegan _).trans (progress i (Conversation.subscribe a.now t.request a.session).1 _)
    · next d _ =>
      have hsession : ∀ session, Idles a { a with session } :=
        fun session => ⟨rfl, rfl, .of_same rfl⟩
      exact (hsession _).trans (progress i (Conversation.deliver a.now d a.session).1 _)
    · exact refl a

end Idles

namespace CarriesOn

theorem of_same (hrecord : b.record = a.record) (hacts : b.acts = a.acts) : CarriesOn a b := by
  refine ⟨by rw [hrecord], ?_, [], .of_same hacts, by simp⟩
  rw [hrecord]
  exact id

theorem refl (a : Agent σ δ β ρ) : CarriesOn a a := of_same rfl rfl

theorem trans (hab : CarriesOn a b) (hbc : CarriesOn b c) : CarriesOn a c := by
  obtain ⟨l, hl, husual⟩ := hab.acts
  obtain ⟨l', hl', husual'⟩ := hbc.acts
  rw [hab.sameId] at husual'
  exact ⟨hbc.sameId.trans hab.sameId, fun h => hbc.lives (hab.lives h), l ++ l', hl.trans hl',
    List.forall_mem_append.mpr ⟨husual, husual'⟩⟩

theorem did {act : Act} (h : act.isDelivery = false) (a : Agent σ δ β ρ)
    (husual : act.IsUsual a.record.id) : CarriesOn a (a.did act) :=
  ⟨rfl, id, [act], .did h a, by simpa using husual⟩

theorem note {entry : SessionRecord × SessionEvent} (a : Agent σ δ β ρ)
    (hid : entry.1.id = a.record.id) (hstatus : entry.1.status = a.record.status)
    (hopen : ∀ reason, entry.2 ≠ .closed reason) : CarriesOn a (a.note entry) := by
  have hrecord : CarriesOn a { a with record := entry.1 } :=
    ⟨hid, by rw [hstatus]; exact id, [], .of_same rfl, by simp⟩
  exact hrecord.trans (did rfl _ ⟨rfl, hopen⟩)

theorem publish [Registry ρ] (a : Agent σ δ β ρ) : CarriesOn a a.publish := by
  have hregistry : CarriesOn a
      { a with registry := Registry.update a.record.snapshot a.registry } := of_same rfl rfl
  exact hregistry.trans (did rfl _ trivial)

/-- Looking at a session that has not ended leaves its record open. -/
theorem look [Conversation σ δ] (a : Agent σ δ β ρ)
    (hlives : Conversation.status a.session ≠ .terminated) : CarriesOn a a.look.2 := by
  have hrecord : CarriesOn a
      { a with record := a.record.observe (Conversation.status a.session) } := by
    unfold SessionRecord.observe
    split
    · exact refl a
    · exact ⟨rfl, fun _ => hlives, [], .of_same rfl, by simp⟩
  unfold Agent.look
  split
  · exact refl a
  · dsimp only
    split <;> exact hrecord

theorem launch (d : Dispatch) (a : Agent σ δ β ρ) : CarriesOn a (a.launch d) := by
  unfold Agent.launch
  split
  · next i _ =>
    have hreleased := Idles.release i a
    have hcurrent : Idles a { a.release i with current := some i } :=
      ⟨hreleased.snapshot, hreleased.registry, hreleased.acts⟩
    exact hcurrent.carriesOn.trans (note _ hreleased.sameId.symm hreleased.status.symm (by
      simp [SessionRecord.subscribed]))
  · exact refl a

theorem count [Registry ρ] (r : Rpc.Request) (reply : Rpc.Reply) (a : Agent σ δ β ρ) :
    CarriesOn a (a.count r reply) := by
  unfold Agent.count
  split
  · next entry h =>
    unfold SessionRecord.handled at h
    split at h
    · cases h
    · cases h
      exact (note a rfl rfl (by simp)).trans (publish _)
  · exact publish a

theorem reject [Conversation σ δ] [Registry ρ] (a : Agent σ δ β ρ) : CarriesOn a a.reject.2 := by
  have h : CarriesOn a (a.note a.record.rejected).publish :=
    (note a rfl rfl (by simp [SessionRecord.rejected])).trans (publish _)
  unfold Agent.reject
  dsimp only
  split <;> exact h

variable [Conversation σ δ] [Backend.Server β]

theorem closeAtServer (a : Agent σ δ β ρ) : CarriesOn a a.closeAtServer.2 := by
  have hserver : ∀ server, CarriesOn a { a with server } := fun server => of_same rfl rfl
  exact (hserver _).trans (did rfl _ trivial)

omit [Backend.Server β] in
theorem createSubscription (r : Rpc.Request) (a : Agent σ δ β ρ) :
    CarriesOn a (a.createSubscription r).2 := by
  have hchecked : CarriesOn a (a.did (.checked r)) := did rfl a trivial
  unfold Agent.createSubscription
  split
  · exact refl a
  · split
    · exact refl a
    · split
      · exact refl a
      · next slot _ =>
        dsimp only
        split
        · exact hchecked
        · split
          · exact hchecked
          · have hspawned : CarriesOn (a.did (.checked r)) ((a.did (.checked r)).spawn r slot) :=
              ⟨rfl, id, [], .of_same rfl, by simp⟩
            exact hchecked.trans hspawned

theorem dispatch (r : Rpc.Request) (a : Agent σ δ β ρ) : CarriesOn a (a.dispatch r).2 := by
  have hserver : ∀ server, CarriesOn a { a with server } := fun server => of_same rfl rfl
  unfold Agent.dispatch
  split
  · have hclosed := closeAtServer a
    have hsession : ∀ session, CarriesOn a.closeAtServer.2 { a.closeAtServer.2 with session } :=
      fun session => of_same rfl rfl
    exact (hclosed.trans (hsession _)).trans (did rfl _ trivial)
  · unfold killSession
    split
    · exact refl a
    · exact (hserver _).trans (did rfl _ trivial)
  · exact createSubscription r a
  · exact (hserver _).trans (did rfl _ trivial)

/-- Taking note of something that has been received, unless it is a request. -/
theorem heed [Registry ρ] {r : Received} (h : ∀ q, r ≠ .request q) (a : Agent σ δ β ρ) :
    CarriesOn a (a.heed r).2 := by
  have hreceived : CarriesOn a (a.did (.received r)) := did rfl a trivial
  cases r with
  | nothing => exact hreceived
  | unknown => exact hreceived.trans (reject _)
  | hungUp => exact hreceived.trans (closeAtServer _)
  | request q => exact absurd rfl (h q)

end CarriesOn

/-- An agent that leaves its session, whose record is open, takes the session out of the registry,
and the last thing it writes into the journal is that the session has been closed. -/
theorem leave_of_open [Registry ρ] (exit : Exit) (h : a.record.status ≠ .terminated) :
    (a.leave exit).registry = Registry.remove a.record.id a.registry ∧
      a.Adds (a.leave exit)
        [.removed a.record.id, .noted a.record.id (.closed exit.reason)] := by
  have hclose : a.record.close exit.reason =
      .ok ({ a.record with status := .terminated }, .closed exit.reason) := by
    rw [SessionRecord.close, if_neg h]
  unfold Agent.leave
  simp only [did, hclose]
  exact ⟨rfl, [.removed a.record.id, .noted a.record.id (.closed exit.reason)],
    List.append_assoc .., rfl⟩

end Agent
end Netconf
