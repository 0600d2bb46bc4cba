import Netconf.Proofs.Session.Reception
import Netconf.Proofs.Session.Verdict
import Netconf.Proofs.Xml.Resolution

/-! What a request means by its prefixes. Its operation is taken out of the message, and the filter of
a subscription out of its operation; the declarations they take with them leave every prefix in them
what it is where the client wrote it. -/
namespace Netconf

open Xml (Element Markup)
open Running (asked)

/-- A subscription keeps the filter that its operation has, which means what is written. -/
def Subscription.KeepsFilter (sub : Subscription) (content : Element) (k : Markup)
    (place : List Nat) : Prop :=
  (content.child? "filter" = none ∧ sub.filter = none) ∨
    ∃ i inner filter, content.child? "filter" = some inner ∧ content.children[i]? = some inner ∧
      sub.filter = some filter ∧ inner.Inherits content.attributes filter ∧
      filter.StandsFor k (place ++ [i])

theorem Subscription.filter_of_ofRequest {r : Rpc.Request} {streams : List String}
    {now : Time.Instant} {sub : Subscription} (h : ofRequest r streams now = .ok sub) :
    ∃ content, r.content = some content ∧
      sub.filter = (content.child? "filter").map (·.inherit content.attributes) := by
  unfold ofRequest at h
  split at h
  · cases h
  · next content hcontent =>
    simp only at h
    split at h
    · simp only [Except.bind_eq_ok_iff] at h
      obtain ⟨start, -, stop, -, -, -, ⟨⟩⟩ := h
      exact ⟨content, (Option.filter_eq_some_iff.mp hcontent).1, rfl⟩
    · cases h

/-- What an operation means by its prefixes, its filter does too. -/
theorem Subscription.keepsFilter {r : Rpc.Request} {content : Element} {k : Markup}
    {place : List Nat} (hcontent : r.content = some content) (hstands : content.StandsFor k place)
    {streams : List String} {now : Time.Instant} {sub : Subscription}
    (h : ofRequest r streams now = .ok sub) : sub.KeepsFilter content k place := by
  obtain ⟨content', hcontent', hfilter⟩ := filter_of_ofRequest h
  obtain rfl : content' = content := Option.some.inj (hcontent'.symm.trans hcontent)
  cases hchild : content'.child? "filter" with
  | none =>
    rw [hchild] at hfilter
    exact .inl ⟨hchild, hfilter⟩
  | some inner =>
    rw [hchild] at hfilter
    obtain ⟨i, hi⟩ := List.mem_iff_getElem?.mp (List.mem_of_find?_eq_some hchild)
    exact .inr ⟨i, inner, _, hchild, hi, hfilter, Element.inherits_inherit _ _, hstands.inherit hi⟩

namespace FramedSession

/-- A request comes of a message, and of nothing else. -/
theorem isRequest_of_receive {s t : FramedSession} {r : Rpc.Request}
    (h : s.receive = some (.request r, t)) :
    ∃ m rest, s.framing.read s.limit s.input = (.message m, rest) ∧ IsRequest m r := by
  cases hread : s.framing.read s.limit s.input with
  | mk outcome rest =>
    cases outcome with
    | message m =>
      rw [receive_of_read hread] at h
      have hjudge : (judge m).1 = .request r := congrArg Prod.fst (Option.some.inj h)
      refine ⟨m, rest, rfl, requested?_eq_some_iff.mp ?_⟩
      rw [requested?, hjudge, Received.request?]
    | failure e => cases e <;> simp [receive, hread] at h
    | blocked => simp [receive, hread] at h

/-- The operation of a request that is received stands for what the client wrote: taken by itself it
resolves every prefix, in itself and at each place in it, to what the nearest declaration around the
same place in the message says, and to nothing where there is none; only `xml` means the same with
and without a declaration. The same goes for the filter of a subscription. Both have been given
declarations from around them that they do not make themselves, and nothing else. -/
theorem request_standsFor {s t : FramedSession} {r : Rpc.Request}
    (h : s.receive = some (.request r, t)) :
    ∃ m rest root k own content, s.framing.read s.limit s.input = (.message m, rest) ∧
      Xml.Document.parse m = .ok root ∧ Xml.Document.markup? m = some k ∧
      root.children[0]? = some own ∧ r.content = some content ∧
      own.Inherits root.attributes content ∧ content.StandsFor k [0] ∧
      ∀ streams now sub, Subscription.ofRequest r streams now = .ok sub →
        sub.KeepsFilter content k [0] := by
  obtain ⟨m, rest, hread, root, own, others, ⟨hparse, -, -⟩, hchildren, rfl⟩ :=
    isRequest_of_receive h
  obtain ⟨k, hk, helaborates⟩ := Xml.Document.exists_markup hparse
  have hown : root.children[0]? = some own := by
    rw [hchildren]
    rfl
  have hstands : (own.inherit root.attributes).StandsFor k [0] :=
    (Element.standsFor_of_elaborates helaborates).inherit hown
  exact ⟨m, rest, root, k, own, _, hread, hparse, hk, hown, rfl, Element.inherits_inherit _ _,
    hstands, fun streams now sub => Subscription.keepsFilter rfl hstands⟩

/-- A client that subscribes to some events, with prefixes from three elements, one of them twice. -/
def selecting : String :=
  "<rpc message-id='1' xmlns:a='urn:a' xmlns:b='urn:b'><create-subscription xmlns:c='urn:c'>" ++
    "<filter xmlns:a='urn:d' select='/a:x/b:y/c:z'/></create-subscription></rpc>"

/-- Its message, as it is read. -/
def selectingRoot : Element :=
  { name := "rpc"
    attributes := [⟨"xmlns:a", "urn:a"⟩, ⟨"xmlns:b", "urn:b"⟩, ⟨"message-id", "1"⟩]
    children := [{ name := "create-subscription"
                   attributes := [⟨"xmlns:c", "urn:c"⟩]
                   children := [{ name := "filter"
                                  attributes := [⟨"xmlns:a", "urn:d"⟩,
                                    ⟨"select", "/a:x/b:y/c:z"⟩] }] }] }

/-- Its filter, as it is kept. -/
def selected : Element :=
  { name := "filter"
    attributes := [⟨"xmlns:a", "urn:d"⟩, ⟨"select", "/a:x/b:y/c:z"⟩, ⟨"xmlns:c", "urn:c"⟩,
      ⟨"xmlns:b", "urn:b"⟩] }

theorem parse_selecting : Xml.Document.parse (Bytes.ofString selecting) = .ok selectingRoot :=
  Xml.Document.parse_of_runWithin 200 selecting (by decide +kernel) (by decide +kernel)
    (by decide +kernel)

/-- Its request. -/
def selection : Rpc.Request :=
  .ofElement selectingRoot.attributes
    (selectingRoot.children[0].inherit selectingRoot.attributes)

/-- The filter that is kept stands for the one that the client wrote, its outer prefixes included. -/
theorem selecting_standsFor : ∃ t k sub,
    (Running.rehearsal selecting .silent).agent.session.receive = some (.request selection, t) ∧
      Xml.Document.markup? (Bytes.ofString selecting) = some k ∧
      Subscription.ofRequest selection [Subscription.defaultStream] default = .ok sub ∧
      sub.filter = some selected ∧ selected.StandsFor k [0, 0] := by
  have hjudge : judge (Bytes.ofString selecting) = (.request selection, none) := by
    rw [judge, parse_selecting]
    rfl
  have hsub : Subscription.ofRequest selection [Subscription.defaultStream] default =
      .ok { stream := Subscription.defaultStream, filter := some selected } := by
    rfl
  have hcarries : Framing.endOfMessage.Carries Framing.defaultLimit (Bytes.ofString selecting) := by
    decide +kernel
  have hread := Framing.wraps_encode hcarries
  have hreceive := receive_of_read
    (s := (Running.rehearsal selecting .silent).agent.session) hread
  rw [hjudge] at hreceive
  obtain ⟨m, rest, root, k, own, content, hread', -, hk, -, hcontent, -, -, hkeeps⟩ :=
    request_standsFor hreceive
  obtain rfl : m = Bytes.ofString selecting := by
    have hsame := hread'.symm.trans hread
    simpa using congrArg Prod.fst hsame
  obtain rfl := Option.some.inj hcontent
  obtain ⟨-, hnone⟩ | ⟨i, inner, filter, -, hi, hfilter, -, hstands⟩ := hkeeps _ _ _ hsub
  · cases hnone
  · obtain ⟨hfirst, -⟩ := List.getElem?_eq_some_iff.mp hi
    obtain rfl : i = 0 := Nat.lt_one_iff.mp hfirst
    obtain rfl := Option.some.inj hfilter
    exact ⟨_, k, _, hreceive, hk, hsub, rfl, hstands⟩

/-- A client that declares the prefix `xml`, as what it means. -/
def declaring : String :=
  "<rpc message-id='1' xmlns:xml='" ++ Xml.Scope.xmlUri ++ "'><get/></rpc>"

/-- The declaration of `xml` does not come along with the operation, which then has none. -/
theorem declaring_received_bare : ∃ t content k,
    (Running.rehearsal declaring .silent).agent.session.receive = some (.request (asked "get"), t) ∧
      (asked "get").content = some content ∧
      Xml.Document.markup? (Bytes.ofString declaring) = some k ∧
      (content.line []).map (Xml.nearest? (Element.declares? "xml")) = some none ∧
      (k.line [0]).map (Xml.nearest? (Markup.declares? "xml")) = some (some Xml.Scope.xmlUri) := by
  have hparse : Xml.Document.parse (Bytes.ofString declaring) = .ok
      { name := "rpc", attributes := [⟨"message-id", "1"⟩], children := [{ name := "get" }] } :=
    Xml.Document.parse_of_runWithin 100 declaring (by decide +kernel) (by decide +kernel)
      (by decide +kernel)
  have hjudge : judge (Bytes.ofString declaring) = (.request (asked "get"), none) := by
    rw [judge, hparse]
    rfl
  have hcarries : Framing.endOfMessage.Carries Framing.defaultLimit (Bytes.ofString declaring) := by
    decide +kernel
  have hreceive := receive_of_read
    (s := (Running.rehearsal declaring .silent).agent.session) (Framing.wraps_encode hcarries)
  rw [hjudge] at hreceive
  have houtline : ((Xml.Reading.outlineWithin 100 {} {} { chars := declaring.toList }).bind
      fun o => o.root.bind fun k => (k.line [0]).map (Xml.nearest? (Markup.declares? "xml"))) =
      some (some Xml.Scope.xmlUri) := by
    decide +kernel
  obtain ⟨o, ho, hroot⟩ := Option.bind_eq_some_iff.mp houtline
  obtain ⟨k, hk, hwritten⟩ := Option.bind_eq_some_iff.mp hroot
  have hmarkup : Xml.Document.markup? (Bytes.ofString declaring) = o.root :=
    Xml.Document.markup?_eq_of_outlineWithin 100 declaring (by decide +kernel)
      (by decide +kernel) ho
  exact ⟨_, _, k, hreceive, rfl, hmarkup.trans hk, by rfl, hwritten⟩

end FramedSession
end Netconf
