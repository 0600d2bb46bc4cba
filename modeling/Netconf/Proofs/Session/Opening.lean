import Netconf.Proofs.Capability
import Netconf.Proofs.Framing.First
import Netconf.Proofs.Xml.Evaluation
import Netconf.Session.Accept

/-! Accepting a client. Whether it is accepted is decided by the first message that it sends; what
it lists there decides what the session can do and how it is framed, and the session reads on right
behind that message. -/
namespace Netconf

theorem ClientStream.mem_advertised {server : Capabilities} {c : Capability} :
    c ∈ ClientStream.advertised server ↔
      c = .ofBase10 ∨ c = .ofBase11 ∨ c ∈ server := by
  rw [ClientStream.advertised, Capabilities.mem_foldl_insert]
  simp [or_assoc]

/-- A version of the protocol is negotiated just where the client has it. -/
theorem Capabilities.any_negotiated {server : Capabilities} (client : Capabilities) {v : Capability}
    (hv : v ∈ ClientStream.advertised server) (hprotocol : v.isProtocol = true) :
    (∃ c ∈ (ClientStream.advertised server).negotiate client, c.base = v.base) ↔
      ∃ c ∈ client, c.base = v.base := by
  have hprefix := Capability.isProtocol_iff.mp hprotocol
  constructor
  · rintro ⟨c, hc, hcv⟩
    have hkeeps := keeps_eq_true_iff.mp (mem_negotiate.mp hc).2
    rw [hcv] at hkeeps
    exact hkeeps hprefix
  · intro h
    exact ⟨v, mem_negotiate.mpr ⟨hv, keeps_eq_true_iff.mpr fun _ => h⟩, rfl⟩

/-! Opening messages. -/

namespace Hello

/-- The texts of the capabilities that the element of an opening message lists. -/
def texts (root : Xml.Element) : List String :=
  ((((root.child? "capabilities").map (·.children)).getD []).filter
    (·.name == "capability")).map (·.content)

/-- A message is the opening one of a client: an element of that name without an identifier of the
session, with capabilities only in its list, a version of the protocol among them. -/
structure IsOpening (m : Bytes) (root : Xml.Element) : Prop where
  reads : Xml.Document.parse m = .ok root
  name : root.name = "hello"
  noSessionId : root.child? "session-id" = none
  named : ∀ t ∈ texts root, Capability.Named t
  base : Capability.Listed (texts root) Capability.base10 ∨
    Capability.Listed (texts root) Capability.base11

theorem hasBase_of_ofTexts {texts : List String} {cs : Capabilities}
    (h : Capabilities.ofTexts texts = .ok cs) :
    cs.hasBase = true ↔ Capability.Listed texts Capability.base10 ∨
      Capability.Listed texts Capability.base11 := by
  rw [Capabilities.hasBase_eq_true_iff, ← Capabilities.any_base_of_ofTexts h,
    ← Capabilities.any_base_of_ofTexts h, ← exists_or]
  simp only [and_or_left]

theorem capabilitiesOf_eq_ok_iff {root : Xml.Element} {cs : Capabilities} :
    capabilitiesOf root = .ok cs ↔ root.name = "hello" ∧ root.child? "session-id" = none ∧
      Capabilities.ofTexts (texts root) = .ok cs ∧ cs.hasBase = true := by
  unfold capabilitiesOf texts
  by_cases hname : root.name = "hello"
  · cases hid : root.child? "session-id" with
    | some e => simp [hname, bind, Except.bind, throw, throwThe, MonadExceptOf.throw]
    | none =>
      cases hcs : Capabilities.ofTexts ((((((root.child? "capabilities").map
        (·.children)).getD []).filter (·.name == "capability")).map (·.content))) with
      | error e =>
        simp [hname, hcs, throw, throwThe, MonadExceptOf.throw]
      | ok cs' =>
        by_cases hb : cs'.hasBase = true
        · simp only [hname, hcs, hb, bind, Except.bind, pure, Except.pure]
          simp only [ne_eq, not_true_eq_false, if_false, Option.isSome_none, Bool.false_eq_true,
            if_true, Except.ok.injEq, true_and]
          constructor
          · rintro rfl
            exact ⟨rfl, hb⟩
          · exact And.left
        · simp only [hname, hcs, hb, bind, Except.bind, pure, Except.pure]
          simp only [ne_eq, not_true_eq_false, if_false, Option.isSome_none, Bool.false_eq_true,
            Except.ok.injEq, true_and, throw, throwThe, MonadExceptOf.throw]
          simp only [reduceCtorEq, false_iff, not_and]
          rintro rfl
          exact hb
  · simp [hname, bind, Except.bind, throw, throwThe, MonadExceptOf.throw]

/-- The opening messages are read, and no others. -/
theorem parse_eq_ok_iff {m : Bytes} {cs : Capabilities} :
    parse m = .ok cs ↔
      ∃ root, IsOpening m root ∧ Capabilities.ofTexts (texts root) = .ok cs := by
  unfold parse
  constructor
  · intro h
    cases hroot : Xml.Document.parse m with
    | error e =>
      rw [hroot] at h
      cases h
    | ok root =>
      rw [hroot] at h
      obtain ⟨hname, hid, hcs, hbase⟩ := capabilitiesOf_eq_ok_iff.mp h
      have hnamed := Capabilities.exists_ofTexts_iff.mp ⟨cs, hcs⟩
      exact ⟨root, ⟨hroot, hname, hid, hnamed, (hasBase_of_ofTexts hcs).mp hbase⟩, hcs⟩
  · rintro ⟨root, h, hcs⟩
    rw [h.reads]
    exact capabilitiesOf_eq_ok_iff.mpr
      ⟨h.name, h.noSessionId, hcs, (hasBase_of_ofTexts hcs).mpr h.base⟩

theorem IsOpening.exists_parse {m : Bytes} {root : Xml.Element} (h : IsOpening m root) :
    ∃ cs, parse m = .ok cs ∧ Capabilities.ofTexts (texts root) = .ok cs := by
  obtain ⟨cs, hcs⟩ := Capabilities.exists_ofTexts_iff.mpr h.named
  exact ⟨cs, parse_eq_ok_iff.mpr ⟨root, h, hcs⟩, hcs⟩

end Hello

namespace ClientStream

/-- The stream with our opening message sent. -/
def greeted (c : ClientStream) (server : Capabilities) : ClientStream :=
  { c with
    taken := true
    output.written := c.output.written ++
      Framing.encode .endOfMessage (Bytes.ofString (Hello.render (advertised server) c.id)) }

theorem greet_of_no_fault {c : ClientStream} {server : Capabilities}
    (hw : c.output.writeFault = none) (hf : c.output.flushFault = none) :
    ({ c with taken := true } : ClientStream).greet server = (.ok (), c.greeted server) := by
  simp only [greet, Outgoing.send_of_no_fault hw hf]
  rfl

theorem hear_output (c : ClientStream) : c.hear.2.output = c.output := by
  unfold hear
  split <;> rfl

/-- What is heard from bytes with nothing behind them. -/
theorem hear_eq_ok_iff {c d : ClientStream} {cs : Capabilities} {bytes : Bytes} {last : Incoming}
    (hinput : c.input = .ofBytes bytes last) (hlast : last = .silent ∨ last = .closed) :
    c.hear = (.ok cs, d) ↔ ∃ m rest, Framing.Opens c.limit bytes m rest ∧ Hello.parse m = .ok cs ∧
      d = { c with input := .ofBytes rest last } := by
  unfold hear
  rw [hinput]
  constructor
  · intro h
    split at h
    · next m input hread =>
      obtain ⟨rest, hopens, rfl⟩ := (Framing.readMarked_eq_message_iff hlast).mp hread
      cases hparse : Hello.parse m with
      | error e =>
        rw [hparse] at h
        cases h
      | ok cs' =>
        rw [hparse] at h
        cases h
        exact ⟨m, rest, hopens, hparse, rfl⟩
    all_goals cases h
  · rintro ⟨m, rest, hopens, hparse, rfl⟩
    have hread := (Framing.readMarked_eq_message_iff hlast).mpr ⟨rest, hopens, rfl⟩
    rw [show Framing.read .endOfMessage c.limit (.ofBytes bytes last) = _ from hread]
    dsimp only
    rw [hparse]
    rfl

theorem accept_eq_ok_iff {c d : ClientStream} {server : Capabilities} {username : Option String}
    {s : FramedSession} (fresh : c.taken = false) (hw : c.output.writeFault = none)
    (hf : c.output.flushFault = none) :
    c.accept server username = (.ok s, d) ↔ ∃ client,
      (c.greeted server).hear = (.ok client, d) ∧ s = d.session server client username := by
  simp only [accept, fresh, Bool.false_eq_true, if_false, greet_of_no_fault hw hf]
  constructor
  · intro h
    split at h
    · cases h
    · next client d' hhear =>
      cases h
      exact ⟨client, hhear, rfl⟩
  · rintro ⟨client, hhear, rfl⟩
    rw [hhear]

theorem accept_output {c : ClientStream} {server : Capabilities} {username : Option String}
    (fresh : c.taken = false) (hw : c.output.writeFault = none)
    (hf : c.output.flushFault = none) :
    (c.accept server username).2.output = (c.greeted server).output := by
  simp only [accept, fresh, Bool.false_eq_true, if_false, greet_of_no_fault hw hf]
  have houtput := hear_output (c.greeted server)
  split
  · next hhear =>
    rw [hhear] at houtput
    exact houtput
  · next hhear =>
    rw [hhear] at houtput
    exact houtput

/-- The framing of a session, and what it can do, where its client's texts are given. -/
theorem session_terms (c : ClientStream) (server : Capabilities) (username : Option String)
    {client : Capabilities} {texts : List String} (h : Capabilities.ofTexts texts = .ok client)
    (hbase : client.hasBase = true) :
    ((c.session server client username).framing = .chunked ↔
      Capability.Listed texts Capability.base11) ∧
    ((c.session server client username).capabilities.has Capability.base11 = true ↔
      Capability.Listed texts Capability.base11) ∧
    (c.session server client username).capabilities.hasBase = true := by
  have hplain : baseUri Capability.base11 = Capability.base11 := by decide
  have h10 : Capability.ofBase10 ∈ advertised server := mem_advertised.mpr (.inl rfl)
  have h11 : Capability.ofBase11 ∈ advertised server := mem_advertised.mpr (.inr (.inl rfl))
  have hone := Capabilities.any_negotiated client h10 (by decide)
  have htwo := Capabilities.any_negotiated client h11 (by decide)
  rw [show Capability.ofBase10.base = Capability.base10 from by decide] at hone
  rw [show Capability.ofBase11.base = Capability.base11 from by decide] at htwo
  rw [← Capabilities.any_base_of_ofTexts h]
  refine ⟨?_, ?_, ?_⟩
  · have hserver : (advertised server).has Capability.base11 = true :=
      Capabilities.has_eq_true_iff.mpr ⟨_, h11, by decide⟩
    rw [← hplain, ← Capabilities.has_eq_true_iff]
    simp only [session, Capabilities.bothChunked, hserver, Bool.true_and]
    cases client.has Capability.base11 <;> simp
  · rw [Capabilities.has_eq_true_iff, hplain]
    exact htwo
  · rw [Capabilities.hasBase_eq_true_iff] at hbase ⊢
    simp only [and_or_left, exists_or] at hbase ⊢
    exact hbase.imp hone.mpr htwo.mpr

/-- A client sends some bytes, and then nothing or the end of the stream. Nothing is written to it
but our opening message. It is accepted just if the first message within the limit is the opening
one of a client. Then the session is in chunks just if the client has listed the second version of
the protocol, which is just if this has been negotiated; some version has; and what the session will
read is what stands behind the mark of the opening message. -/
theorem accept_iff_opening {c : ClientStream} (server : Capabilities) (username : Option String)
    {bytes : Bytes} {last : Incoming} (fresh : c.taken = false)
    (writes : c.output.writeFault = none) (flushes : c.output.flushFault = none)
    (input : c.input = .ofBytes bytes last) (ends : last = .silent ∨ last = .closed) :
    ((∃ s, (c.accept server username).1 = .ok s) ↔
      ∃ m rest root, Framing.Opens c.limit bytes m rest ∧ Hello.IsOpening m root) ∧
    (c.accept server username).2.output.written = c.output.written ++
      Framing.encode .endOfMessage (Bytes.ofString (Hello.render (advertised server) c.id)) ∧
    ∀ s, (c.accept server username).1 = .ok s → ∃ m rest root,
      Framing.Opens c.limit bytes m rest ∧ Hello.IsOpening m root ∧
      (s.framing = .chunked ↔ Capability.Listed (Hello.texts root) Capability.base11) ∧
      (s.capabilities.has Capability.base11 = true ↔
        Capability.Listed (Hello.texts root) Capability.base11) ∧
      s.capabilities.hasBase = true ∧
      s.input = .ofBytes rest last ∧
      s.output = (c.accept server username).2.output := by
  -- What holds of an accepted client is used for both directions, and for its session.
  have hsuccess : ∀ s d, c.accept server username = (.ok s, d) →
      ∃ m rest root, Framing.Opens c.limit bytes m rest ∧ Hello.IsOpening m root ∧
        (s.framing = .chunked ↔ Capability.Listed (Hello.texts root) Capability.base11) ∧
        (s.capabilities.has Capability.base11 = true ↔
          Capability.Listed (Hello.texts root) Capability.base11) ∧
        s.capabilities.hasBase = true ∧ s.input = .ofBytes rest last ∧ s.output = d.output := by
    intro s d h
    obtain ⟨client, hhear, rfl⟩ := (accept_eq_ok_iff fresh writes flushes).mp h
    obtain ⟨m, rest, hopens, hparse, rfl⟩ := (hear_eq_ok_iff (c := c.greeted server) input ends).mp hhear
    obtain ⟨root, hroot, hcs⟩ := Hello.parse_eq_ok_iff.mp hparse
    obtain ⟨hchunked, hhas, hbase⟩ :=
      session_terms { c.greeted server with input := .ofBytes rest last } server username hcs
        ((Hello.hasBase_of_ofTexts hcs).mpr hroot.base)
    exact ⟨m, rest, root, hopens, hroot, hchunked, hhas, hbase, rfl, rfl⟩
  refine ⟨⟨?_, ?_⟩, congrArg Outgoing.written (accept_output fresh writes flushes), ?_⟩
  · rintro ⟨s, hs⟩
    obtain ⟨m, rest, root, hopens, hroot, -⟩ := hsuccess s _ (Prod.ext hs rfl)
    exact ⟨m, rest, root, hopens, hroot⟩
  · rintro ⟨m, rest, root, hopens, hroot⟩
    obtain ⟨client, hparse, -⟩ := hroot.exists_parse
    have hhear := (hear_eq_ok_iff (c := c.greeted server) input ends).mpr
      ⟨m, rest, hopens, hparse, rfl⟩
    exact ⟨_, congrArg Prod.fst ((accept_eq_ok_iff fresh writes flushes).mpr ⟨client, hhear, rfl⟩)⟩
  · intro s hs
    exact hsuccess s _ (Prod.ext hs rfl)

/-- An opening message that lists the second version of the protocol, with a query. -/
def greeting : String :=
  "<hello><capabilities><capability> urn:ietf:params:netconf:base:1.1?x" ++
    "</capability></capabilities></hello>"

/-- The element of this message. -/
def greetingRoot : Xml.Element :=
  { name := "hello"
    children := [{
      name := "capabilities"
      children := [{ name := "capability", text := " urn:ietf:params:netconf:base:1.1?x" }] }] }

/-- A client that has sent this message and, right behind it, the head of a chunk. -/
def calling : ClientStream :=
  { input := .ofBytes (Framing.encode .endOfMessage (Bytes.ofString greeting) ++
      Framing.chunkHead 4) .silent
    id := default
    source := .idle }

/-- This client is accepted, and the head of the chunk is left for its session. -/
theorem calling_accepted : ∃ s, (calling.accept [] none).1 = .ok s ∧ s.framing = .chunked ∧
    s.input = .ofBytes (Framing.chunkHead 4) .silent := by
  obtain ⟨hiff, -, hsession⟩ := accept_iff_opening (c := calling) [] none rfl rfl rfl rfl (.inl rfl)
  have hopens : Framing.Opens calling.limit (Framing.encode .endOfMessage
      (Bytes.ofString greeting) ++ Framing.chunkHead 4) (Bytes.ofString greeting)
      (Framing.chunkHead 4) := ⟨rfl, by decide +kernel, by decide +kernel⟩
  have hroot : Hello.IsOpening (Bytes.ofString greeting) greetingRoot :=
    { reads := Xml.Document.parse_of_runWithin 200 greeting (by decide +kernel)
        (by decide +kernel) (by decide +kernel)
      name := rfl
      noSessionId := rfl
      named := by decide +kernel
      base := .inr (by decide +kernel) }
  obtain ⟨s, hs⟩ := hiff.mpr ⟨_, _, _, hopens, hroot⟩
  obtain ⟨m, rest, root, hopens', hroot', hchunked, -, -, hinput, -⟩ := hsession s hs
  obtain ⟨rfl, rfl⟩ := hopens.unique hopens'
  obtain rfl : greetingRoot = root := Except.ok.inj (hroot.reads.symm.trans hroot'.reads)
  exact ⟨s, hs, hchunked.mpr (by decide +kernel), hinput⟩

end ClientStream
end Netconf
