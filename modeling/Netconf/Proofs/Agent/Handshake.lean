import Netconf.Agent.Handshake
import Netconf.Proofs.Registry
import Netconf.Rehearsal.Server
import Netconf.Rehearsal.Session

/-! Handshakes, step by step. A handshake comes to an end at the first step that fails, of which
giving up one's privileges is none. Then nothing is left of it; else its session is registered. -/
namespace Netconf.Handshake

/-- The steps of a handshake. -/
inductive Step where
  | connect
  | capabilities
  | identity
  | accept
  | privileges
  | insert
  | inform
deriving DecidableEq

namespace Step

/-- The place of a step among all. -/
def place : Step → Nat
  | connect => 0
  | capabilities => 1
  | identity => 2
  | accept => 3
  | privileges => 4
  | insert => 5
  | inform => 6

/-- The step that an act makes. Finding out who the client is takes none. -/
def ofAct? : Act → Option Step
  | .connected => some connect
  | .askedCapabilities => some capabilities
  | .accepted _ _ => some accept
  | .gaveUpPrivileges _ _ => some privileges
  | .inserted _ => some insert
  | .informed _ => some inform
  | _ => none

end Step

/-! What a handshake finds, told without carrying it out. -/

variable {α σ δ β ρ : Type}

/-- The client is the given user, or nobody knows who it is since it has no certificate. -/
def Identifies (h : Handshake α β ρ) (user : Option String) : Prop :=
  match h.identity with
  | none => user = none
  | some subject => ∃ name, Identity.username subject = .ok name ∧ user = some name

theorem offer_eq_ok_iff {listed : Except Backend.ServerError (List String)} {caps : Capabilities} :
    offer listed = .ok caps ↔
      ∃ uris, listed = .ok uris ∧ Capabilities.ofTexts uris = .ok caps ∧ caps ≠ [] := by
  unfold offer
  cases listed with
  | error e => simp
  | ok uris =>
    simp only [Except.ok.injEq, exists_eq_left']
    cases Capabilities.ofTexts uris with
    | error e => simp
    | ok cs =>
      cases cs with
      | nil => simp +contextual
      | cons c cs => simp +contextual [eq_comm]

theorem user?_eq_ok_iff {h : Handshake α β ρ} {user : Option String} :
    user? h.identity = .ok user ↔ h.Identifies user := by
  unfold user? Identifies
  cases h.identity with
  | none => simp [eq_comm]
  | some subject =>
    generalize hnamed : Identity.username subject = named
    cases named <;> simp [Except.map, hnamed, eq_comm]

theorem user?_eq_error_iff {identity : Option String} {e : IdentityError} :
    user? identity = .error e ↔ ∃ subject ∈ identity, Identity.username subject = .error e := by
  unfold user?
  cases identity with
  | none => simp
  | some subject =>
    generalize hnamed : Identity.username subject = named
    cases named <;> simp [Except.map, hnamed]

variable [Conversation σ δ] [Backend.Server β] [Registry ρ] [Acceptor α σ]

/-- The management server is there and lists capabilities, all valid and at least one. -/
def Offers (h : Handshake α β ρ) (server : β) (caps : Capabilities) : Prop :=
  ∃ connected uris, h.connection = .ok connected ∧
    Backend.Server.capabilities connected = (.ok uris, server) ∧
    Capabilities.ofTexts uris = .ok caps ∧ caps ≠ []

/-- The client is accepted, with what the management server offers and as the user that it is. -/
def Accepts (h : Handshake α β ρ) (server : β) (caps : Capabilities) (user : Option String)
    (session : σ) : Prop :=
  h.Offers server caps ∧ h.Identifies user ∧
    (Acceptor.accept caps user h.acceptor).1 = .ok session

/-- The user of an accepted session: the one it names itself, or else the one known before. -/
def userOf (user : Option String) (session : σ) : Option String :=
  Conversation.username session <|> user

/-- The first record of an accepted session. -/
def recordOf (h : Handshake α β ρ) (user : Option String) (session : σ) : SessionRecord :=
  { id := Conversation.id session, username := userOf user session
    capabilities := Conversation.capabilities session, login := h.now }

/-- A step fails, and no step before it does. -/
def Fails (h : Handshake α β ρ) : HandshakeError → Prop
  | .connect e => h.connection = .error e
  | .capabilities e => ∃ connected, h.connection = .ok connected ∧
      offer (Backend.Server.capabilities connected).1 = .error e
  | .identity e => (∃ server caps, h.Offers server caps) ∧
      ∃ subject ∈ h.identity, Identity.username subject = .error e
  | .accept e => ∃ server caps user, h.Offers server caps ∧ h.Identifies user ∧
      (Acceptor.accept caps user h.acceptor).1 = .error e
  | .inform e => ∃ server caps user, ∃ session : σ, h.Accepts server caps user session ∧
      (Backend.Server.inform (infoOf (h.recordOf user session)) server).1 = .error e

/-! What carrying it out comes to, in each case. -/

section

variable {h : Handshake α β ρ} {server : β} {caps : Capabilities} {user : Option String}
  {session : σ}

/-- The acts up to the capabilities, and up to the acceptance. -/
def asking : List Act := [.connected, .askedCapabilities]

def accepting (caps : Capabilities) (user : Option String) : List Act :=
  asking ++ [.accepted caps user]

/-- The acts with which an accepted session is entered and told of. -/
def introducing (h : Handshake α β ρ) (user : Option String) (session : σ) : List Act :=
  (userOf user session).toList.map (fun u => Act.gaveUpPrivileges u (h.privileges u)) ++
    [.noted (Conversation.id session)
        (.established (userOf user session) (Conversation.capabilities session).uris),
      .inserted (h.recordOf user session).snapshot, .informed (infoOf (h.recordOf user session))]

theorem steps_accepting :
    (accepting caps user).filterMap Step.ofAct? = [.connect, .capabilities, .accept] := rfl

omit [Backend.Server β] [Registry ρ] [Acceptor α σ] in
theorem steps_introducing : (h.introducing user session).filterMap Step.ofAct? =
    (if (userOf user session).isSome then [.privileges] else []) ++ [.insert, .inform] := by
  unfold introducing
  cases userOf user session with
  | none => rfl
  | some name => rfl

theorem run_of_unconnected {e : Backend.ServerError} (he : h.connection = .error e) :
    (h.run : Result α σ δ β ρ) = h.fail none (.connect e) [.connected] := by
  unfold run
  rw [he]

theorem run_of_nothing {connected : β} {e : OfferError} (hc : h.connection = .ok connected)
    (he : offer (Backend.Server.capabilities connected).1 = .error e) :
    (h.run : Result α σ δ β ρ) =
      h.fail (Backend.Server.capabilities connected).2 (.capabilities e) asking := by
  unfold run
  rw [hc]
  simp only [he]
  rfl

theorem run_of_unidentified {e : IdentityError} (ho : h.Offers server caps)
    (he : user? h.identity = .error e) :
    (h.run : Result α σ δ β ρ) = h.fail server (.identity e) asking := by
  obtain ⟨connected, uris, hc, hl, hcaps, hne⟩ := ho
  have hoffer : offer (Backend.Server.capabilities connected).1 = .ok caps :=
    offer_eq_ok_iff.mpr ⟨uris, by rw [hl], hcaps, hne⟩
  unfold run
  rw [hc]
  simp only [hoffer, he]
  rw [hl]
  rfl

/-- Whatever accepting the client comes to, it is asked for with what is offered. -/
theorem run_of_asked (ho : h.Offers server caps) (hu : h.Identifies user) :
    (h.run : Result α σ δ β ρ) =
      match (Acceptor.accept caps user h.acceptor).1 with
      | .error e => { h with acceptor := (Acceptor.accept caps user h.acceptor).2 }.fail server
        (.accept e) (accepting caps user)
      | .ok session => { h with acceptor := (Acceptor.accept caps user h.acceptor).2 }.introduce
        server user session (accepting caps user) := by
  obtain ⟨connected, uris, hc, hl, hcaps, hne⟩ := ho
  have hoffer : offer (Backend.Server.capabilities connected).1 = .ok caps :=
    offer_eq_ok_iff.mpr ⟨uris, by rw [hl], hcaps, hne⟩
  unfold run
  rw [hc]
  simp only [hoffer, user?_eq_ok_iff.mpr hu]
  rw [hl]
  rfl

/-- What has become of a handshake whose client was accepted rests with the management server. -/
theorem run_of_accepts (ha : h.Accepts server caps user session) :
    (h.run : Result α σ δ β ρ) =
      let acts := accepting caps user ++ h.introducing user session
      let acceptor := (Acceptor.accept caps user h.acceptor).2
      let registry := Registry.insert (h.recordOf user session).snapshot h.registry
      let answer := Backend.Server.inform (infoOf (h.recordOf user session)) server
      match answer.1 with
      | .error e =>
        { outcome := .error (.inform e), acceptor, server := answer.2
          registry := Registry.remove (Conversation.id session) registry
          session := some (Conversation.close session)
          acts := acts ++ [.removed (Conversation.id session), .endedSession] }
      | .ok _ =>
        { outcome := .ok { session, server := answer.2, record := h.recordOf user session, registry
                           now := h.now, acts }
          acceptor, server := answer.2, session := some session, registry, acts } := by
  obtain ⟨ho, hu, hs⟩ := ha
  rw [run_of_asked ho hu, hs, introducing, ← List.append_assoc (accepting caps user)]
  rfl

/-- The management server does not take the session, of which nothing is left then. -/
theorem run_of_uninformed {e : Backend.ServerError} (ha : h.Accepts server caps user session)
    (he : (Backend.Server.inform (infoOf (h.recordOf user session)) server).1 = .error e) :
    (h.run : Result α σ δ β ρ) =
      { outcome := .error (.inform e)
        acceptor := (Acceptor.accept caps user h.acceptor).2
        registry := Registry.remove (Conversation.id session)
          (Registry.insert (h.recordOf user session).snapshot h.registry)
        server := (Backend.Server.inform (infoOf (h.recordOf user session)) server).2
        session := some (Conversation.close session)
        acts := accepting caps user ++ h.introducing user session ++
          [.removed (Conversation.id session), .endedSession] } := by
  rw [run_of_accepts ha]
  simp only [he]

/-- The management server knows of the session, which is served then. -/
theorem run_of_informed (ha : h.Accepts server caps user session)
    (hi : (Backend.Server.inform (infoOf (h.recordOf user session)) server).1 = .ok ()) :
    (h.run : Result α σ δ β ρ) =
      { outcome := .ok
          { session, record := h.recordOf user session, now := h.now
            server := (Backend.Server.inform (infoOf (h.recordOf user session)) server).2
            registry := Registry.insert (h.recordOf user session).snapshot h.registry
            acts := accepting caps user ++ h.introducing user session }
        acceptor := (Acceptor.accept caps user h.acceptor).2
        registry := Registry.insert (h.recordOf user session).snapshot h.registry
        server := (Backend.Server.inform (infoOf (h.recordOf user session)) server).2
        session := some session
        acts := accepting caps user ++ h.introducing user session } := by
  rw [run_of_accepts ha]
  simp only [hi]

end

/-! The whole of it. -/

/-- The step that fails with an error. -/
def stepOf : HandshakeError → Step
  | .connect _ => .connect
  | .capabilities _ => .capabilities
  | .identity _ => .identity
  | .accept _ => .accept
  | .inform _ => .inform

/-- The last step that was made. -/
def Result.last (r : Result α σ δ β ρ) : Step :=
  match r.outcome with
  | .error e => stepOf e
  | .ok _ => .inform

/-- The steps that can be seen, in the order in which they were made. -/
def Result.steps (r : Result α σ δ β ρ) : List Step := r.acts.filterMap Step.ofAct?

/-- A client is accepted of whom it is known who it is. -/
def Knows (h : Handshake α β ρ) : Prop :=
  ∃ server caps user, ∃ session : σ, h.Accepts server caps user session ∧
    (userOf user session).isSome

/-- No client is accepted whose session the registry knows already. -/
def IsNew (h : Handshake α β ρ) : Prop :=
  ∀ server caps user, ∀ session : σ, h.Accepts server caps user session →
    Registry.get? (Conversation.id session) h.registry = none

/-- What is left of a session that was accepted in vain. -/
structure Result.HasUndone (r : Result α σ δ β ρ) (session : σ) : Prop where
  forgotten : Registry.get? (Conversation.id session) r.registry = none
  closed : r.session = some (Conversation.close session)
  ended : Act.endedSession ∈ r.acts

/-- What has been agreed on for an accepted session. -/
structure Result.HasAgreed (r : Result α σ δ β ρ) (a : Agent σ δ β ρ) (user : Option String)
    (session : σ) : Prop where
  kept : a.session = session
  username : a.record.username = userOf user session
  capabilities : a.record.capabilities = Conversation.capabilities session
  registered : a.registry = r.registry ∧
    Registry.get? (Conversation.id session) r.registry = some a.record.snapshot
  told : ∃ info, Act.informed info ∈ r.acts ∧ info.session = Conversation.id session ∧
    info.username = a.record.username ∧ info.capabilities = a.record.capabilities.uris

/-- A handshake makes its steps in their order, and stops at the first that fails. It asks for no
client unless there is something to offer and nothing wrong with the client's certificate. If it
fails, nothing is left of it; else all agree on the session. -/
structure IsOrderly (h : Handshake α β ρ) (r : Result α σ δ β ρ) : Prop where
  order : r.steps.Pairwise (·.place < ·.place)
  made : ∀ s, s ∈ r.steps ↔
    s.place ≤ r.last.place ∧ s ≠ .identity ∧ (s = .privileges → h.Knows)
  failure : ∀ e, r.outcome = .error e ↔ h.Fails e
  asked : ∀ caps user, Act.accepted caps user ∈ r.acts →
    (∃ server, h.Offers server caps) ∧ h.Identifies user
  unasked : .accept ∉ r.steps → r.acceptor = h.acceptor
  undone : ∀ e, r.outcome = .error e →
    (∀ id, Registry.get? id r.registry = Registry.get? id h.registry) ∧
      ∀ server caps user, ∀ session : σ, h.Accepts server caps user session → r.HasUndone session
  agreed : ∀ a, r.outcome = .ok a →
    ∃ server caps user, ∃ session : σ, h.Accepts server caps user session ∧
      r.HasAgreed a user session

section

variable {h : Handshake α β ρ} {server : β} {caps : Capabilities} {user : Option String}
  {session : σ}

omit [Registry ρ] in
/-- A handshake fails at some step before its client is accepted, or the client is accepted. -/
theorem fails_or_accepts (h : Handshake α β ρ) :
    (∃ e, h.Fails e ∧ stepOf e ≠ .inform) ∨
      ∃ server caps user, ∃ session : σ, h.Accepts server caps user session := by
  cases hc : h.connection with
  | error e => exact .inl ⟨.connect e, hc, by simp [stepOf]⟩
  | ok connected =>
    cases ho : offer (Backend.Server.capabilities connected).1 with
    | error e => exact .inl ⟨.capabilities e, ⟨connected, hc, ho⟩, by simp [stepOf]⟩
    | ok caps =>
      obtain ⟨uris, hl, hcaps, hne⟩ := offer_eq_ok_iff.mp ho
      have hoffers : h.Offers (Backend.Server.capabilities connected).2 caps :=
        ⟨connected, uris, hc, by rw [← hl], hcaps, hne⟩
      cases hu : user? h.identity with
      | error e =>
        exact .inl ⟨.identity e, ⟨⟨_, _, hoffers⟩, user?_eq_error_iff.mp hu⟩, by simp [stepOf]⟩
      | ok user =>
        have huser := user?_eq_ok_iff.mp hu
        cases ha : (Acceptor.accept caps user h.acceptor).1 with
        | error e =>
          exact .inl ⟨.accept e, ⟨_, caps, user, hoffers, huser, ha⟩, by simp [stepOf]⟩
        | ok session => exact .inr ⟨_, caps, user, session, hoffers, huser, ha⟩

theorem outcome_of_fails {e : HandshakeError} (he : h.Fails e) :
    (h.run : Result α σ δ β ρ).outcome = .error e := by
  cases e with
  | connect e => rw [run_of_unconnected he]; rfl
  | capabilities e =>
    obtain ⟨connected, hc, ho⟩ := he
    rw [run_of_nothing hc ho]
    rfl
  | identity e =>
    obtain ⟨⟨server, caps, ho⟩, hu⟩ := he
    rw [run_of_unidentified ho (user?_eq_error_iff.mpr hu)]
    rfl
  | accept e =>
    obtain ⟨server, caps, user, ho, hu, ha⟩ := he
    rw [run_of_asked ho hu, ha]
    rfl
  | inform e =>
    obtain ⟨server, caps, user, session, ha, hi⟩ := he
    rw [run_of_uninformed ha hi]

/-- The handshake ends with just the error of the first step that fails. -/
theorem outcome_eq_error_iff {e : HandshakeError} :
    (h.run : Result α σ δ β ρ).outcome = .error e ↔ h.Fails e := by
  refine ⟨fun hrun => ?_, outcome_of_fails⟩
  obtain ⟨e', he', -⟩ | ⟨server, caps, user, session, ha⟩ := fails_or_accepts h
  · rw [outcome_of_fails he'] at hrun
    cases hrun
    exact he'
  · cases hi : (Backend.Server.inform (infoOf (h.recordOf user session)) server).1 with
    | error e' =>
      have hfails : h.Fails (.inform e') := ⟨server, caps, user, session, ha, hi⟩
      rw [outcome_of_fails hfails] at hrun
      cases hrun
      exact hfails
    | ok u =>
      rw [run_of_informed ha hi] at hrun
      cases hrun

omit [Registry ρ] in
/-- At most one client is accepted. -/
theorem Accepts.unique {server' : β} {caps' : Capabilities} {user' : Option String} {session' : σ}
    (ha : h.Accepts server caps user session) (ha' : h.Accepts server' caps' user' session') :
    user = user' ∧ session = session' := by
  obtain ⟨⟨connected, uris, hc, hl, hcaps, -⟩, hu, hs⟩ := ha
  obtain ⟨⟨connected', uris', hc', hl', hcaps', -⟩, hu', hs'⟩ := ha'
  obtain rfl : connected = connected' := Except.ok.inj (hc.symm.trans hc')
  obtain rfl : uris = uris' := Except.ok.inj (congrArg Prod.fst (hl.symm.trans hl'))
  obtain rfl : caps = caps' := Except.ok.inj (hcaps.symm.trans hcaps')
  obtain rfl : user = user' :=
    Except.ok.inj ((user?_eq_ok_iff.mpr hu).symm.trans (user?_eq_ok_iff.mpr hu'))
  exact ⟨rfl, Except.ok.inj (hs.symm.trans hs')⟩

/-- A client is accepted only where no step fails but the last one. -/
theorem stepOf_of_accepts {e : HandshakeError} (ha : h.Accepts server caps user session)
    (he : h.Fails e) : stepOf e = .inform := by
  have hrun := outcome_of_fails he
  cases hi : (Backend.Server.inform (infoOf (h.recordOf user session)) server).1 with
  | error e' =>
    rw [run_of_uninformed ha hi] at hrun
    cases hrun
    rfl
  | ok u =>
    rw [run_of_informed ha hi] at hrun
    cases hrun

/-- What is done before a step fails that comes before the acceptance of a client, or is it. -/
theorem run_of_early {e : HandshakeError} (he : h.Fails e) (hearly : stepOf e ≠ .inform) :
    (h.run : Result α σ δ β ρ).registry = h.registry ∧
      ((stepOf e = .connect ∧ (h.run : Result α σ δ β ρ).acts = [.connected] ∧
          (h.run : Result α σ δ β ρ).acceptor = h.acceptor) ∨
        ((stepOf e = .capabilities ∨ stepOf e = .identity) ∧
          (h.run : Result α σ δ β ρ).acts = asking ∧
          (h.run : Result α σ δ β ρ).acceptor = h.acceptor) ∨
        (stepOf e = .accept ∧ ∃ caps user, (∃ server, h.Offers server caps) ∧ h.Identifies user ∧
          (h.run : Result α σ δ β ρ).acts = accepting caps user)) := by
  cases e with
  | connect e =>
    rw [run_of_unconnected he]
    exact ⟨rfl, .inl ⟨rfl, rfl, rfl⟩⟩
  | capabilities e =>
    obtain ⟨connected, hc, ho⟩ := he
    rw [run_of_nothing hc ho]
    exact ⟨rfl, .inr (.inl ⟨.inl rfl, rfl, rfl⟩)⟩
  | identity e =>
    obtain ⟨⟨server, caps, ho⟩, hu⟩ := he
    rw [run_of_unidentified ho (user?_eq_error_iff.mpr hu)]
    exact ⟨rfl, .inr (.inl ⟨.inr rfl, rfl, rfl⟩)⟩
  | accept e =>
    obtain ⟨server, caps, user, ho, hu, ha⟩ := he
    rw [run_of_asked ho hu, ha]
    exact ⟨rfl, .inr (.inr ⟨rfl, caps, user, ⟨server, ho⟩, hu, rfl⟩)⟩
  | inform e => exact absurd rfl hearly

/-- A handshake that fails early is orderly: nothing was begun that could be left. -/
theorem isOrderly_of_early {e : HandshakeError} (he : h.Fails e) (hearly : stepOf e ≠ .inform) :
    h.IsOrderly (h.run : Result α σ δ β ρ) := by
  have hout : (h.run : Result α σ δ β ρ).outcome = .error e := outcome_of_fails he
  have hlast : (h.run : Result α σ δ β ρ).last = stepOf e := by
    rw [Result.last, hout]
  obtain ⟨hregistry, hacts⟩ := run_of_early he hearly
  refine {
    order := ?order
    made := ?made
    failure := fun _ => outcome_eq_error_iff
    asked := ?asked
    unasked := ?unasked
    undone := fun _ _ => ⟨fun id => by rw [hregistry], fun server caps user session ha =>
      absurd (stepOf_of_accepts ha he) hearly⟩
    agreed := fun a ha => by
      rw [hout] at ha
      cases ha }
  case order =>
    rw [Result.steps]
    obtain ⟨-, hacts, -⟩ | ⟨-, hacts, -⟩ | ⟨-, caps, user, -, -, hacts⟩ := hacts
    · rw [hacts]
      decide
    · rw [hacts]
      decide
    · rw [hacts, steps_accepting]
      decide
  case made =>
    intro s
    rw [hlast, Result.steps]
    obtain ⟨hstep, hacts, -⟩ | ⟨hstep | hstep, hacts, -⟩ | ⟨hstep, _, _, -, -, hacts⟩ := hacts <;>
      rw [hacts, hstep] <;> cases s <;> simp [asking, accepting, Step.ofAct?, Step.place]
  case asked =>
    intro caps user hmem
    obtain ⟨-, hacts, -⟩ | ⟨-, hacts, -⟩ | ⟨-, caps', user', ho, hu, hacts⟩ := hacts
    · simp [hacts] at hmem
    · simp [hacts, asking] at hmem
    · simp only [hacts, accepting, asking, List.mem_append, List.mem_cons, reduceCtorEq,
        List.not_mem_nil, or_false, false_or, Act.accepted.injEq] at hmem
      obtain ⟨rfl, rfl⟩ := hmem
      exact ⟨ho, hu⟩
  case unasked =>
    intro hstep
    obtain ⟨-, -, hsame⟩ | ⟨-, -, hsame⟩ | ⟨-, caps, user, -, -, hacts⟩ := hacts
    · exact hsame
    · exact hsame
    · rw [Result.steps, hacts] at hstep
      simp [accepting, asking, Step.ofAct?] at hstep

omit [Registry ρ] in
/-- The steps with an accepted client lead up to the last one, whatever comes of it. -/
theorem order_made_of_accepts {r : Result α σ δ β ρ} {behind : List Act}
    (ha : h.Accepts server caps user session)
    (hacts : r.acts = accepting caps user ++ h.introducing user session ++ behind)
    (hbehind : behind.filterMap Step.ofAct? = []) (hlast : r.last = .inform) :
    r.steps.Pairwise (·.place < ·.place) ∧
      ∀ s, s ∈ r.steps ↔ s.place ≤ r.last.place ∧ s ≠ .identity ∧ (s = .privileges → h.Knows) := by
  have hsteps : r.steps = [.connect, .capabilities, .accept] ++
      ((if (userOf user session).isSome then [.privileges] else []) ++ [.insert, .inform]) := by
    rw [Result.steps, hacts, List.filterMap_append, List.filterMap_append, steps_accepting,
      steps_introducing, hbehind, List.append_nil]
  have hknows : h.Knows ↔ (userOf user session).isSome = true := by
    constructor
    · rintro ⟨server', caps', user', session', ha', hname⟩
      obtain ⟨rfl, rfl⟩ := ha.unique ha'
      exact hname
    · exact fun hname => ⟨server, caps, user, session, ha, hname⟩
  rw [hlast, hsteps, hknows]
  cases (userOf user session).isSome with
  | false => exact ⟨by decide, fun s => by cases s <;> decide⟩
  | true => exact ⟨by decide, fun s => by cases s <;> decide⟩

omit [Registry ρ] in
theorem asked_of_accepts {r : Result α σ δ β ρ} {behind : List Act}
    (ha : h.Accepts server caps user session)
    (hacts : r.acts = accepting caps user ++ h.introducing user session ++ behind)
    (hbehind : behind.filterMap Step.ofAct? = []) (caps' : Capabilities) (user' : Option String)
    (hmem : Act.accepted caps' user' ∈ r.acts) :
    (∃ server, h.Offers server caps') ∧ h.Identifies user' := by
  have hnone : Act.accepted caps' user' ∉ behind := by
    intro hmem
    have hstep : Step.accept ∈ behind.filterMap Step.ofAct? :=
      List.mem_filterMap.mpr ⟨_, hmem, rfl⟩
    rw [hbehind] at hstep
    cases hstep
  obtain ⟨rfl, rfl⟩ : caps' = caps ∧ user' = user := by
    simpa [hacts, hnone, accepting, asking, introducing] using hmem
  exact ⟨⟨server, ha.1⟩, ha.2.1⟩

/-- What was entered for a session that was not known is gone with its removal. -/
theorem get?_remove_insert [LawfulRegistry ρ] {s : Snapshot} {registry : ρ}
    (hnew : Registry.get? s.id registry = none) (id : SessionId) :
    Registry.get? id (Registry.remove s.id (Registry.insert s registry)) =
      Registry.get? id registry := by
  rw [LawfulRegistry.get?_remove, LawfulRegistry.get?_insert]
  by_cases h : s.id = id
  · rw [if_pos h, ← h, hnew]
  · rw [if_neg h, if_neg h]

/-- A handshake with an accepted client is orderly: what was begun is undone if the last step
fails. -/
theorem isOrderly_of_accepts [LawfulRegistry ρ] (ha : h.Accepts server caps user session)
    (hnew : Registry.get? (Conversation.id session) h.registry = none) :
    h.IsOrderly (h.run : Result α σ δ β ρ) := by
  cases hi : (Backend.Server.inform (infoOf (h.recordOf user session)) server).1 with
  | error e =>
    have hrun := run_of_uninformed ha hi
    have hlast : (h.run : Result α σ δ β ρ).last = .inform := by
      rw [hrun]
      rfl
    have hacts := congrArg Result.acts hrun
    have hrestored : ∀ id, Registry.get? id (Registry.remove (Conversation.id session)
        (Registry.insert (h.recordOf user session).snapshot h.registry)) =
          Registry.get? id h.registry :=
      get?_remove_insert (s := (h.recordOf user session).snapshot) hnew
    obtain ⟨horder, hmade⟩ := order_made_of_accepts ha hacts rfl hlast
    refine {
      order := horder
      made := hmade
      failure := fun _ => outcome_eq_error_iff
      asked := asked_of_accepts ha hacts rfl
      unasked := fun hstep => absurd ((hmade .accept).mpr (by simp [hlast, Step.place])) hstep
      undone := fun _ _ => ⟨fun id => ?_, fun _ _ _ session' ha' => ?_⟩
      agreed := fun a hok => ?_ }
    · rw [hrun]
      exact hrestored id
    · obtain ⟨rfl, rfl⟩ := ha.unique ha'
      rw [hrun]
      exact {
        forgotten := (hrestored _).trans hnew
        closed := rfl
        ended := by simp }
    · rw [hrun] at hok
      cases hok
  | ok u =>
    have hrun := run_of_informed ha hi
    have hlast : (h.run : Result α σ δ β ρ).last = .inform := by
      rw [hrun]
      rfl
    have hacts : (h.run : Result α σ δ β ρ).acts =
        accepting caps user ++ h.introducing user session ++ [] := by
      rw [hrun, List.append_nil]
    obtain ⟨horder, hmade⟩ := order_made_of_accepts ha hacts rfl hlast
    refine {
      order := horder
      made := hmade
      failure := fun _ => outcome_eq_error_iff
      asked := asked_of_accepts ha hacts rfl
      unasked := fun hstep => absurd ((hmade .accept).mpr (by simp [hlast, Step.place])) hstep
      undone := fun e he => ?_
      agreed := fun a hok => ⟨server, caps, user, session, ha, ?_⟩ }
    · rw [hrun] at he
      cases he
    · rw [hrun] at hok ⊢
      cases hok
      exact {
        kept := rfl
        username := rfl
        capabilities := rfl
        registered := ⟨rfl, by
          rw [LawfulRegistry.get?_insert]
          exact if_pos rfl⟩
        told := ⟨infoOf (h.recordOf user session), by simp [introducing], rfl, rfl, rfl⟩ }

/-- Whatever its partners do, a handshake is orderly. -/
theorem run_isOrderly [LawfulRegistry ρ] (h : Handshake α β ρ) (hnew : h.IsNew) :
    h.IsOrderly (h.run : Result α σ δ β ρ) := by
  obtain ⟨e, he, hearly⟩ | ⟨server, caps, user, session, ha⟩ := fails_or_accepts h
  · exact isOrderly_of_early he hearly
  · exact isOrderly_of_accepts ha (hnew server caps user session ha)

end

/-- A management server that takes no sessions. -/
def refusing : Rehearsal.Server where
  capabilities := .ok [Capability.base10]
  inform := .error (.rejected "full")

/-- A handshake with a client that names itself in a certificate, beside another session. Privileges
cannot be given up, and the management server does not take the session. -/
def refused : Handshake Rehearsal.Door Rehearsal.Server MemoryRegistry where
  acceptor := { session := .ok { id := ⟨7, by decide, by decide⟩, capabilities := [.ofBase10] } }
  registry :=
    { entries := [(SessionRecord.establish ⟨8, by decide, by decide⟩ none [] default).1.snapshot] }
  connection := .ok refusing
  identity := some "/O=Example/CN=alice"
  privileges := fun _ => .refused
  now := default

theorem refused_isOrderly : refused.IsNew ∧
    (∃ server caps session, refused.Accepts server caps (some "alice") session) ∧
      refused.IsOrderly refused.run := by
  have hnew : refused.IsNew := by
    rintro server caps user session ⟨-, -, hs⟩
    cases hs
    decide
  have hoffers : refused.Offers refusing [.ofBase10] := ⟨_, _, rfl, rfl, rfl, by simp⟩
  exact ⟨hnew, ⟨_, _, _, hoffers, ⟨"alice", rfl, rfl⟩, rfl⟩, run_isOrderly refused hnew⟩

end Netconf.Handshake
