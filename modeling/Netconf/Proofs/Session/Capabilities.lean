import Netconf.Proofs.Session.Opening
import Netconf.Registry

/-! Where lists of capabilities come from. All that the agent puts together itself has no doubles.
The one way by which doubles come in is a snapshot that is read back from its file: its list is
taken over as it stands there. -/
namespace Netconf

open Json

theorem ClientStream.nodup_advertised (server : Capabilities) : (advertised server).Nodup :=
  Capabilities.nodup_foldl_insert (by decide) server

theorem Hello.nodup_of_parse {m : Bytes} {cs : Capabilities} (h : parse m = .ok cs) :
    cs.Nodup := by
  obtain ⟨root, -, hcs⟩ := parse_eq_ok_iff.mp h
  exact Capabilities.nodup_of_ofTexts hcs

/-! Capabilities in a snapshot. -/

theorem Capability.ofValue?_eq_some_iff {v : Value} {c : Capability} :
    ofValue? v = some c ↔ ∃ t, v = .string t ∧ c.uri = Text.trim t := by
  cases v with
  | string t =>
    simp only [ofValue?, text?, Option.bind_some, Value.string.injEq, exists_eq_left']
    rw [← ofText_eq_ok_iff]
    cases ofText t <;> simp [Except.toOption]
  | _ => simp [ofValue?, text?]

/-- A list of capabilities is read from an array of texts, each of which names one. -/
theorem Capabilities.list?_eq_some_iff {v : Value} {cs : Capabilities} :
    list? Capability.ofValue? v = some cs ↔
      ∃ texts : List String, v = .array (texts.map .string) ∧ cs.uris = texts.map Text.trim := by
  cases v with
  | array items =>
    change items.mapM Capability.ofValue? = some cs ↔ _
    simp only [Value.array.injEq]
    induction items generalizing cs with
    | nil =>
      constructor
      · intro h
        cases h
        exact ⟨[], rfl, rfl⟩
      · rintro ⟨texts, htexts, huris⟩
        obtain rfl := List.map_eq_nil_iff.mp htexts.symm
        obtain rfl := List.map_eq_nil_iff.mp huris
        rfl
    | cons v items ih =>
      simp only [List.mapM_cons, Option.bind_eq_bind, Option.bind_eq_some_iff, Option.pure_def,
        Option.some.injEq, Capability.ofValue?_eq_some_iff, ih]
      constructor
      · rintro ⟨c, ⟨t, rfl, hc⟩, rest, ⟨texts, rfl, huris⟩, rfl⟩
        exact ⟨t :: texts, rfl, congrArg₂ List.cons hc huris⟩
      · rintro ⟨texts, htexts, huris⟩
        obtain ⟨t, texts, rfl, rfl, rfl⟩ := List.map_eq_cons_iff.mp htexts.symm
        obtain ⟨c, rest, rfl, hc, hrest⟩ := List.map_eq_cons_iff.mp huris
        exact ⟨c, ⟨t, rfl, hc⟩, rest, ⟨texts, rfl, hrest⟩, rfl⟩
  | _ => simp [list?]

/-- A file holds a snapshot whose list of capabilities is made of some texts. -/
def Directory.Lists (d : Directory) (name : String) (texts : List String) : Prop :=
  ∃ content v r, d.read? name = some content ∧ parseBytes? content = some v ∧
    Record.ofValue? Snapshot.fieldNames v = some r ∧
    r.find? "capabilities" = some (.array (texts.map .string))

/-- The capabilities of a snapshot are those of its file's list, one for each text. -/
theorem FileRegistry.lists_of_load {d : Directory} {name : String} {s : Snapshot}
    (h : load d name = .ok s) : ∃ texts, d.Lists name texts ∧
      s.capabilities.uris = texts.map Text.trim := by
  unfold load at h
  split at h
  · cases h
  · next content hread =>
    split at h
    · next s' hs =>
      cases h
      obtain ⟨v, hv, hs⟩ := Option.bind_eq_some_iff.mp hs
      simp only [Snapshot.ofValue?, Option.bind_eq_bind, Option.bind_eq_some_iff] at hs
      obtain ⟨r, hr, id, -, username, -, cs, hcs, status, -, login, -, counters, -, hs⟩ := hs
      cases hs
      obtain ⟨listed, hlisted, hcs⟩ := Option.bind_eq_some_iff.mp hcs
      obtain ⟨texts, rfl, huris⟩ := Capabilities.list?_eq_some_iff.mp hcs
      exact ⟨texts, ⟨content, v, r, hread, hv, hr, hlisted⟩, huris⟩
    · cases h

namespace Capabilities

/-- The lists of capabilities that an agent can come to have. -/
inductive Obtained : Capabilities → Prop
  | nothing : Obtained []
  | named {texts : List String} {cs : Capabilities} (h : ofTexts texts = .ok cs) : Obtained cs
  | insert {cs : Capabilities} (h : Obtained cs) (c : Capability) : Obtained (insert cs c)
  | negotiated {server client : Capabilities} (hserver : Obtained server)
      (hclient : Obtained client) : Obtained (server.negotiate client)
  | advertised {server : Capabilities} (h : Obtained server) :
      Obtained (ClientStream.advertised server)
  /-- Those of a client's opening message. -/
  | heard {m : Bytes} {cs : Capabilities} (h : Hello.parse m = .ok cs) : Obtained cs
  /-- Those of a snapshot that is read from a file. -/
  | restored {d : Directory} {name : String} {s : Snapshot}
      (h : FileRegistry.load d name = .ok s) : Obtained s.capabilities

theorem nodup_iff_uris {cs : Capabilities} : cs.Nodup ↔ cs.uris.Nodup :=
  (List.nodup_map_iff fun _ _ h => Capability.ext h).symm

/-- Whatever an agent makes of capabilities, each is a URI without blanks. None stands twice in the
list, unless the list is that of a snapshot in whose file two texts name the same capability, with
or without some more behind it. -/
theorem obtained_nodup_or_listed {cs : Capabilities} (h : Obtained cs) :
    (∀ uri ∈ cs.uris, uri ≠ "" ∧ uri.toList.any Text.isBlank = false) ∧
    (cs.Nodup ∨ ∃ (d : Directory) (name : String) (s : Snapshot) (texts : List String)
      (added : Capabilities), FileRegistry.load d name = .ok s ∧ d.Lists name texts ∧
        s.capabilities.uris = texts.map Text.trim ∧ ¬ (texts.map Text.trim).Nodup ∧
        cs = added.foldl insert s.capabilities) := by
  constructor
  · intro uri huri
    obtain ⟨c, -, rfl⟩ := List.mem_map.mp huri
    exact ⟨c.uri_ne_empty, c.blank_free⟩
  · induction h with
    | nothing => exact .inl .nil
    | named h => exact .inl (nodup_of_ofTexts h)
    | insert h c ih =>
      obtain hnodup | ⟨d, name, s, texts, added, hload, hlists, huris, hdouble, rfl⟩ := ih
      · exact .inl (nodup_insert hnodup c)
      · refine .inr ⟨d, name, s, texts, added ++ [c], hload, hlists, huris, hdouble, ?_⟩
        rw [List.foldl_append]
        rfl
    | negotiated _ _ _ _ => exact .inl (nodup_negotiate _ _)
    | advertised _ _ => exact .inl (ClientStream.nodup_advertised _)
    | heard h => exact .inl (Hello.nodup_of_parse h)
    | @restored d name s h =>
      obtain ⟨texts, hlists, huris⟩ := FileRegistry.lists_of_load h
      by_cases hnodup : s.capabilities.Nodup
      · exact .inl hnodup
      · refine .inr ⟨d, name, s, texts, [], h, hlists, huris, ?_, rfl⟩
        rwa [nodup_iff_uris, huris] at hnodup

/-- A directory with a snapshot that gives its fields in order, and lists the same capability
twice. -/
def doubling : Directory :=
  { entries := some [("session-1.json", .file (Bytes.ofString
      ("[1,null,[\"urn:x\",\" urn:x\"],\"working\",\"2024-01-01T00:00:00Z\",[0,0,0,0]]")))] }

/-- What is read from it. -/
def doubled : Capabilities := List.replicate 2 ⟨"urn:x", by decide, by decide⟩

theorem load_doubling :
    ∃ s, FileRegistry.load doubling "session-1.json" = .ok s ∧ s.capabilities = doubled := by
  have h : (FileRegistry.load doubling "session-1.json").toOption.map Snapshot.capabilities =
      some doubled := by decide +kernel
  obtain ⟨s, hs, hcs⟩ := Option.map_eq_some_iff.mp h
  cases hload : FileRegistry.load doubling "session-1.json" with
  | error e =>
    rw [hload] at hs
    cases hs
  | ok s' =>
    rw [hload] at hs
    cases hs
    exact ⟨s, rfl, hcs⟩

theorem obtained_doubled : Obtained doubled := by
  obtain ⟨s, hload, hcs⟩ := load_doubling
  exact hcs ▸ .restored hload

/-- The doubles of such a list stand in a file. -/
theorem doubled_listed : Obtained doubled ∧
    ∃ (d : Directory) (name : String) (texts : List String),
      d.Lists name texts ∧ ¬ (texts.map Text.trim).Nodup := by
  refine ⟨obtained_doubled, ?_⟩
  obtain hnodup | ⟨d, name, s, texts, added, -, hlists, -, hdouble, -⟩ :=
    (obtained_nodup_or_listed obtained_doubled).2
  · exact absurd hnodup (by decide)
  · exact ⟨d, name, texts, hlists, hdouble⟩

/-- So an agent can come to have a list with doubles. -/
theorem doubled_not_nodup : (∃ s, FileRegistry.load doubling "session-1.json" = .ok s ∧
    s.capabilities = doubled) ∧ Obtained doubled ∧ ¬ doubled.Nodup :=
  ⟨load_doubling, obtained_doubled, by decide⟩

end Capabilities
end Netconf
