import Mathlib.Data.List.Nodup
import Mathlib.Data.List.TakeWhile
import Netconf.Capability

/-! Lists of capabilities as sets. One that is already there is not taken up again, so that what is
put together one by one has no doubles and stays in order; so are the capabilities that texts name.
What a server and a client come to agree on is told without going through the list: by the server's
capabilities, and by the parts of the client's URIs before their queries. -/
namespace Netconf

theorem baseUri_baseUri (uri : String) : baseUri (baseUri uri) = baseUri uri := by
  simp [baseUri, List.takeWhile_idem]

namespace Capability

theorem baseUri_base (c : Capability) : baseUri c.base = c.base := baseUri_baseUri c.uri

theorem isProtocol_iff {c : Capability} :
    c.isProtocol = true ↔ protocolPrefix.toList <+: c.base.toList := by
  rw [isProtocol, List.isPrefixOf_iff_prefix]

/-- A text names a capability: there is something in it besides blanks, and no blank inside. -/
def Named (text : String) : Prop :=
  Text.trim text ≠ "" ∧ (Text.trim text).toList.any Text.isBlank = false

/-- One of some texts names the capability of a URI, queries aside. -/
def Listed (texts : List String) (uri : String) : Prop :=
  ∃ t ∈ texts, baseUri (Text.trim t) = uri

instance (text : String) : Decidable (Named text) := inferInstanceAs (Decidable (_ ∧ _))

instance (texts : List String) (uri : String) : Decidable (Listed texts uri) :=
  inferInstanceAs (Decidable (∃ t ∈ texts, _))

theorem ofText_eq_ok_iff {text : String} {c : Capability} :
    ofText text = .ok c ↔ c.uri = Text.trim text := by
  unfold ofText
  dsimp only
  constructor
  · intro h
    split at h
    · cases h
    · split at h
      · cases h
        rfl
      · cases h
  · intro h
    have hne := c.uri_ne_empty
    have hfree := c.blank_free
    rw [h] at hne hfree
    rw [dif_neg hne, dif_pos hfree]
    exact congrArg Except.ok (Capability.ext h.symm)

theorem exists_ofText_iff {text : String} : (∃ c, ofText text = .ok c) ↔ Named text := by
  simp only [ofText_eq_ok_iff]
  constructor
  · rintro ⟨c, h⟩
    rw [Named, ← h]
    exact ⟨c.uri_ne_empty, c.blank_free⟩
  · rintro ⟨hne, hfree⟩
    exact ⟨⟨Text.trim text, hne, hfree⟩, rfl⟩

end Capability

namespace Capabilities

variable {cs known server client : Capabilities} {c : Capability}

/-! One by one. -/

theorem insert_of_mem (h : c ∈ cs) : insert cs c = cs := if_pos h

theorem insert_of_not_mem (h : c ∉ cs) : insert cs c = cs ++ [c] := if_neg h

theorem mem_insert {d : Capability} : d ∈ insert cs c ↔ d ∈ cs ∨ d = c := by
  by_cases h : c ∈ cs
  · rw [insert_of_mem h]
    constructor
    · exact .inl
    · rintro (hd | rfl)
      · exact hd
      · exact h
  · simp [insert_of_not_mem h]

theorem nodup_insert (h : cs.Nodup) (c : Capability) : (insert cs c).Nodup := by
  by_cases hc : c ∈ cs
  · rw [insert_of_mem hc]
    exact h
  · rw [insert_of_not_mem hc]
    exact List.nodup_append_comm.mp (List.nodup_cons.mpr ⟨hc, h⟩)

/-! One list after the other. -/

theorem mem_foldl_insert : c ∈ cs.foldl insert known ↔ c ∈ known ∨ c ∈ cs := by
  induction cs generalizing known with
  | nil => simp
  | cons d ds ih => rw [List.foldl_cons, ih, mem_insert, List.mem_cons, or_assoc]

theorem nodup_foldl_insert (h : known.Nodup) (cs : Capabilities) :
    (cs.foldl insert known).Nodup := by
  induction cs generalizing known with
  | nil => exact h
  | cons d ds ih => exact ih (nodup_insert h d)

/-- What is added comes behind what is there, in its order. -/
theorem exists_foldl_insert (known cs : Capabilities) :
    ∃ fresh : Capabilities, fresh.Sublist cs ∧ cs.foldl insert known = known ++ fresh := by
  induction cs generalizing known with
  | nil => exact ⟨[], .slnil, (List.append_nil known).symm⟩
  | cons d ds ih =>
    obtain ⟨fresh, hfresh, heq⟩ := ih (insert known d)
    rw [List.foldl_cons, heq]
    by_cases hd : d ∈ known
    · exact ⟨fresh, hfresh.cons d, by rw [insert_of_mem hd]⟩
    · exact ⟨d :: fresh, hfresh.cons_cons d, by simp [insert_of_not_mem hd]⟩

/-- Without doubles all is added. -/
theorem foldl_insert_of_nodup (h : (known ++ cs).Nodup) :
    cs.foldl insert known = known ++ cs := by
  induction cs generalizing known with
  | nil => exact (List.append_nil known).symm
  | cons d ds ih =>
    have hd : d ∉ known := fun hmem => List.disjoint_of_nodup_append h hmem List.mem_cons_self
    rw [List.append_cons] at h ⊢
    rw [List.foldl_cons, insert_of_not_mem hd, ih h]

/-! The capabilities that texts name. -/

/-- The step by which texts are gone through. -/
def take (cs : Capabilities) (t : String) : Except CapabilityError Capabilities :=
  (Capability.ofText t).map (insert cs)

theorem foldlM_take_cons (known : Capabilities) (t : String) (ts : List String) :
    (t :: ts).foldlM take known =
      (Capability.ofText t).bind fun c => ts.foldlM take (insert known c) := by
  rw [List.foldlM_cons, take]
  cases Capability.ofText t <;> rfl

/-- Texts are gone through if each names a capability, and these are added one by one. -/
theorem foldlM_take_eq_ok_iff {texts : List String} : texts.foldlM take known = .ok cs ↔
    ∃ named : Capabilities, named.uris = texts.map Text.trim ∧ named.foldl insert known = cs := by
  induction texts generalizing known with
  | nil =>
    constructor
    · intro h
      cases h
      exact ⟨[], rfl, rfl⟩
    · rintro ⟨named, huris, rfl⟩
      obtain rfl := List.map_eq_nil_iff.mp huris
      rfl
  | cons t ts ih =>
    rw [foldlM_take_cons]
    constructor
    · intro h
      cases ht : Capability.ofText t with
      | error e =>
        rw [ht] at h
        cases h
      | ok c =>
        rw [ht] at h
        obtain ⟨named, huris, hcs⟩ := ih.mp h
        exact ⟨c :: named, congrArg₂ List.cons (Capability.ofText_eq_ok_iff.mp ht) huris, hcs⟩
    · rintro ⟨named, huris, hcs⟩
      obtain ⟨c, rest, rfl, hc, hrest⟩ := List.map_eq_cons_iff.mp huris
      rw [Capability.ofText_eq_ok_iff.mpr hc]
      exact ih.mpr ⟨rest, hrest, hcs⟩

theorem ofTexts_eq_ok_iff {texts : List String} : ofTexts texts = .ok cs ↔
    ∃ named : Capabilities, named.uris = texts.map Text.trim ∧ named.foldl insert [] = cs :=
  foldlM_take_eq_ok_iff

theorem nodup_of_ofTexts {texts : List String} (h : ofTexts texts = .ok cs) : cs.Nodup := by
  obtain ⟨named, -, rfl⟩ := ofTexts_eq_ok_iff.mp h
  exact nodup_foldl_insert .nil named

theorem exists_ofTexts_iff {texts : List String} :
    (∃ cs, ofTexts texts = .ok cs) ↔ ∀ t ∈ texts, Capability.Named t := by
  constructor
  · rintro ⟨cs, h⟩ t ht
    obtain ⟨named, huris, -⟩ := ofTexts_eq_ok_iff.mp h
    have hmem : Text.trim t ∈ named.uris := huris ▸ List.mem_map_of_mem ht
    obtain ⟨c, -, hc⟩ := List.mem_map.mp hmem
    exact Capability.exists_ofText_iff.mp ⟨c, Capability.ofText_eq_ok_iff.mpr hc⟩
  · intro h
    have hnamed : ∃ named : Capabilities, named.uris = texts.map Text.trim := by
      induction texts with
      | nil => exact ⟨[], rfl⟩
      | cons t ts ih =>
        obtain ⟨c, hc⟩ := Capability.exists_ofText_iff.mpr (h t List.mem_cons_self)
        obtain ⟨named, huris⟩ := ih fun u hu => h u (List.mem_cons_of_mem t hu)
        exact ⟨c :: named, congrArg₂ List.cons (Capability.ofText_eq_ok_iff.mp hc) huris⟩
    obtain ⟨named, huris⟩ := hnamed
    exact ⟨_, ofTexts_eq_ok_iff.mpr ⟨named, huris, rfl⟩⟩

/-- The capabilities of some texts are found by the parts of the texts before their queries. -/
theorem any_base_of_ofTexts {texts : List String} (h : ofTexts texts = .ok cs) (uri : String) :
    (∃ c ∈ cs, c.base = uri) ↔ Capability.Listed texts uri := by
  obtain ⟨named, huris, rfl⟩ := ofTexts_eq_ok_iff.mp h
  have hbases : named.map Capability.base = texts.map fun t => baseUri (Text.trim t) := by
    have hmap := congrArg (List.map baseUri) huris
    simp only [uris, List.map_map] at hmap
    exact hmap
  have hlisted : uri ∈ named.map Capability.base ↔
      uri ∈ texts.map fun t => baseUri (Text.trim t) := by rw [hbases]
  simpa [mem_foldl_insert, Capability.Listed] using hlisted

/-! What is found in them. -/

theorem has_eq_true_iff {uri : String} : cs.has uri = true ↔ ∃ c ∈ cs, c.base = baseUri uri := by
  simp [has]

theorem has_base_iff : cs.has c.base = true ↔ ∃ d ∈ cs, d.base = c.base := by
  rw [has_eq_true_iff, c.baseUri_base]

theorem hasBase_eq_true_iff :
    cs.hasBase = true ↔ ∃ c ∈ cs, c.base = Capability.base10 ∨ c.base = Capability.base11 := by
  simp [hasBase, Capability.isBase]

/-! What two peers agree on. -/

/-- A capability of the server that a session with a client has. -/
def keeps (client : Capabilities) (c : Capability) : Bool := !c.isProtocol || client.has c.base

theorem keeps_eq_true_iff : keeps client c = true ↔
    (Capability.protocolPrefix.toList <+: c.base.toList → ∃ d ∈ client, d.base = c.base) := by
  rw [← Capability.isProtocol_iff, ← has_base_iff, keeps]
  cases c.isProtocol <;> simp

theorem negotiate_eq_foldl (server client : Capabilities) :
    server.negotiate client = (server.filter (keeps client)).foldl insert [] := by
  rw [List.foldl_filter]
  rfl

theorem mem_negotiate : c ∈ server.negotiate client ↔ c ∈ server ∧ keeps client c = true := by
  rw [negotiate_eq_foldl, mem_foldl_insert, List.mem_filter]
  simp

theorem nodup_negotiate (server client : Capabilities) : (server.negotiate client).Nodup := by
  rw [negotiate_eq_foldl]
  exact nodup_foldl_insert .nil _

theorem negotiate_sublist (server client : Capabilities) :
    (server.negotiate client).Sublist server := by
  obtain ⟨fresh, hfresh, heq⟩ := exists_foldl_insert [] (server.filter (keeps client))
  rw [negotiate_eq_foldl, heq]
  exact hfresh.trans List.filter_sublist

theorem negotiate_of_nodup (h : server.Nodup) (client : Capabilities) :
    server.negotiate client = server.filter (keeps client) := by
  rw [negotiate_eq_foldl, foldl_insert_of_nodup (h.filter _)]
  rfl

theorem keeps_congr {client' : Capabilities}
    (h : ∀ uri, (∃ d ∈ client, d.base = uri) ↔ ∃ d ∈ client', d.base = uri) :
    keeps client = keeps client' := by
  funext c
  rw [Bool.eq_iff_iff, keeps_eq_true_iff, keeps_eq_true_iff, h]

/-- What a session of a server with a client can use. By the part of a URI before its query, it has
what the server has and, where that is behaviour of the protocol, the client too. It is a sublist of
the server's list without doubles, of just the capabilities of which this holds: what is left of the
list if nothing stands twice in it. Of the client it depends on the parts of its URIs before their
queries alone, and to negotiate what has been negotiated changes nothing. -/
theorem negotiate_agrees (server client : Capabilities) :
    (∀ uri, (server.negotiate client).has uri = true ↔ server.has uri = true ∧
      (Capability.protocolPrefix.toList <+: (baseUri uri).toList → client.has uri = true)) ∧
    (server.negotiate client).Sublist server ∧ (server.negotiate client).Nodup ∧
    (∀ c, c ∈ server.negotiate client ↔ c ∈ server ∧
      (Capability.protocolPrefix.toList <+: c.base.toList → ∃ d ∈ client, d.base = c.base)) ∧
    (server.Nodup → server.negotiate client =
      server.filter fun c => !c.isProtocol || client.has c.base) ∧
    (∀ client' : Capabilities,
      (∀ uri, (∃ d ∈ client, d.base = uri) ↔ ∃ d ∈ client', d.base = uri) →
      server.negotiate client' = server.negotiate client) ∧
    (server.negotiate client).negotiate client = server.negotiate client := by
  have hmem : ∀ c, c ∈ server.negotiate client ↔ c ∈ server ∧ (Capability.protocolPrefix.toList <+:
      c.base.toList → ∃ d ∈ client, d.base = c.base) := by
    intro c
    rw [mem_negotiate, keeps_eq_true_iff]
  refine ⟨?_, negotiate_sublist server client, nodup_negotiate server client, hmem,
    fun h => negotiate_of_nodup h client, ?_, ?_⟩
  · intro uri
    simp only [has_eq_true_iff]
    constructor
    · rintro ⟨c, hc, hbase⟩
      obtain ⟨hserver, hclient⟩ := (hmem c).mp hc
      rw [hbase] at hclient
      exact ⟨⟨c, hserver, hbase⟩, hclient⟩
    · rintro ⟨⟨c, hserver, hbase⟩, hclient⟩
      rw [← hbase] at hclient
      exact ⟨c, (hmem c).mpr ⟨hserver, hclient⟩, hbase⟩
  · intro client' hsame
    rw [negotiate_eq_foldl, negotiate_eq_foldl, keeps_congr hsame]
  · -- Nothing is left out any more, since all of it has been kept before.
    rw [negotiate_of_nodup (nodup_negotiate server client), List.filter_eq_self]
    intro c hc
    exact (mem_negotiate.mp hc).2

/-- Notifications, with a query. -/
def noticesWith : Capability :=
  ⟨"urn:ietf:params:netconf:capability:notification:1.0?x", by decide, by decide⟩

theorem notification_ne_empty : Capability.notification ≠ "" := by decide

theorem notification_blank_free : Capability.notification.toList.any Text.isBlank = false := by
  decide

/-- Notifications, without one. -/
def notices : Capability :=
  ⟨Capability.notification, notification_ne_empty, notification_blank_free⟩

/-- A server has notifications with a query, a version of the protocol and without the query the
same again. A client that has notifications only gets both forms of them, whichever it lists. -/
theorem notices_agreed :
    [noticesWith, .ofBase11, notices].Nodup ∧
    (∀ uri, (∃ d ∈ [notices], d.base = uri) ↔ ∃ d ∈ [noticesWith], d.base = uri) ∧
    negotiate [noticesWith, .ofBase11, notices] [noticesWith] = [noticesWith, notices] := by
  have hnodup : [noticesWith, .ofBase11, notices].Nodup := by decide
  have hsame : ∀ uri, (∃ d ∈ [notices], d.base = uri) ↔ ∃ d ∈ [noticesWith], d.base = uri := by
    intro uri
    have hbase : notices.base = noticesWith.base := by decide +kernel
    simp [hbase]
  obtain ⟨-, -, -, -, hfilter, hclient, -⟩ :=
    negotiate_agrees [noticesWith, .ofBase11, notices] [notices]
  refine ⟨hnodup, hsame, ?_⟩
  rw [hclient _ hsame, hfilter hnodup]
  decide +kernel

end Capabilities
end Netconf
