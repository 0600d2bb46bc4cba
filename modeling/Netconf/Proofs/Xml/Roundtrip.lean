import Netconf.Proofs.Xml.Elaboration
import Netconf.Proofs.Xml.Rendered

/-! Rendering and reading. A tree in good order is read back from its text; and so is the tree of any
document, if it says nothing that the text of a tree cannot say. -/
namespace Netconf.Xml

namespace Element

/-- A tree in good order, at one of its elements: a name without a prefix, a namespace that is not a
reserved one, attributes with names of their own, the declarations before the others in the order of
their prefixes, each with a change, and no attribute with a prefix that means nothing. -/
structure Orderly (above : List Attribute) (e : Element) (declared : Scope)
    (plain : List (QName × String)) : Prop where
  name : QName.Written { base := e.name }
  space : ∀ uri ∈ e.space, uri ≠ "" ∧ uri ≠ Scope.xmlUri ∧ uri ≠ Scope.xmlnsUri ∧
    ∀ c ∈ uri.toList, Version.v10.isChar c = true
  attributes : e.attributes = declared.map declaration ++ kept plain
  declares : ∀ b ∈ declared, QName.Written ⟨some "xmlns", b.1⟩
  others : ∀ a ∈ plain, a.1.Written ∧ a.1.binds? = none
  distinct : (e.attributes.map (·.name)).Nodup
  sorted : declared.Sorted
  changes : ∀ b ∈ declared, binding? above b.1 ≠ some b.2
  bound : ∀ a ∈ plain, ∀ p, a.1.pfx = some p →
    p = "xml" ∨ (binding? (e.attributes ++ above) p).isSome
  few : plain.length ≤ Frame.maxAttributes
  values : ∀ a ∈ e.attributes, ∀ c ∈ a.value.toList,
    Version.v10.isChar c = true ∧ c ≠ '\r' ∧ c ≠ '\t'
  text : ∀ c ∈ e.text.toList, Version.v10.isChar c = true ∧ c ≠ '\r'

/-- What good order leaves open: prefixes that may be declared, and are bound to something, and a
default namespace that may be declared. -/
structure Admitted (e : Element) (declared : Scope) : Prop where
  declared : ∀ b ∈ declared, IsOrdinary b.1 ∧ b.2 ≠ ""
  space : e.space ≠ some "xml" ∧ e.space ≠ some "xmlns"

instance (above : List Attribute) (e : Element) (declared : Scope) (plain : List (QName × String)) :
    Decidable (e.Orderly above declared plain) :=
  decidable_of_iff
    (QName.Written { base := e.name } ∧
      (∀ uri ∈ e.space, uri ≠ "" ∧ uri ≠ Scope.xmlUri ∧ uri ≠ Scope.xmlnsUri ∧
        ∀ c ∈ uri.toList, Version.v10.isChar c = true) ∧
      e.attributes = declared.map declaration ++ kept plain ∧
      (∀ b ∈ declared, QName.Written ⟨some "xmlns", b.1⟩) ∧
      (∀ a ∈ plain, a.1.Written ∧ a.1.binds? = none) ∧
      (e.attributes.map (·.name)).Nodup ∧ declared.Pairwise (·.1 < ·.1) ∧
      (∀ b ∈ declared, binding? above b.1 ≠ some b.2) ∧
      (∀ a ∈ plain, ∀ p, a.1.pfx = some p →
        p = "xml" ∨ (binding? (e.attributes ++ above) p).isSome) ∧
      plain.length ≤ Frame.maxAttributes ∧
      (∀ a ∈ e.attributes, ∀ c ∈ a.value.toList,
        Version.v10.isChar c = true ∧ c ≠ '\r' ∧ c ≠ '\t') ∧
      ∀ c ∈ e.text.toList, Version.v10.isChar c = true ∧ c ≠ '\r')
    ⟨fun ⟨h1, h2, h3, h4, h5, h6, h7, h8, h9, h10, h11, h12⟩ =>
      ⟨h1, h2, h3, h4, h5, h6, h7, h8, h9, h10, h11, h12⟩,
    fun h => ⟨h.1, h.2, h.3, h.4, h.5, h.6, h.7, h.8, h.9, h.10, h.11, h.12⟩⟩

instance (e : Element) (declared : Scope) : Decidable (e.Admitted declared) :=
  decidable_of_iff
    ((∀ b ∈ declared, IsOrdinary b.1 ∧ b.2 ≠ "") ∧ e.space ≠ some "xml" ∧ e.space ≠ some "xmlns")
    ⟨fun ⟨h1, h2⟩ => ⟨h1, h2⟩, fun h => ⟨h.1, h.2⟩⟩

def IsOrderly (above : List Attribute) (e : Element) : Prop :=
  ∃ declared plain, e.Orderly above declared plain

def IsRenderable (above : List Attribute) (e : Element) : Prop :=
  ∃ declared plain, e.Orderly above declared plain ∧ e.Admitted declared

theorem IsRenderable.renders {above : List Attribute} {e : Element} (h : e.IsRenderable above) :
    e.Renders above := by
  obtain ⟨declared, plain, ho, ha⟩ := h
  obtain ⟨hnonempty, hlocal, hfits⟩ := ho.name.base
  have hspace : e.space ≠ some "" := fun hempty => (ho.space "" hempty).1 rfl
  have hdistinct : plain.Pairwise (·.1 ≠ ·.1) := by
    have hnames := ho.distinct
    rw [ho.attributes, List.map_append] at hnames
    have hkept := (List.nodup_append.mp hnames).2.1
    rw [kept, List.map_map, List.nodup_iff_pairwise_ne, List.pairwise_map] at hkept
    exact hkept.imp fun hne hsame => hne (by simp [hsame])
  refine ⟨⟨declared, plain, ?_⟩, ?_⟩
  · exact {
      nameNonempty := hnonempty
      nameLocal := hlocal
      nameFits := hfits
      space := hspace
      attributes := ho.attributes
      sorted := ho.sorted
      declares := fun b hb =>
        ⟨ho.declares b hb, (ha.declared b hb).1, (ha.declared b hb).2, ho.changes b hb⟩
      others := ho.others
      bound := ho.bound
      distinct := hdistinct
      few := ho.few }
  · exact {
      nameStart := by
        intro c hc
        obtain ⟨⟨d, rest, hname, hd⟩, -⟩ := QName.ofChars?_eq_some_iff.mp ho.name.spelled
        have hname : e.name.toList = d :: rest := hname
        rw [hname] at hc
        exact Option.some.inj hc ▸ hd
      space := by
        intro uri huri
        obtain ⟨-, hxml, hxmlns, hchars⟩ := ho.space uri huri
        refine ⟨?_, hchars⟩
        simp only [List.mem_cons, List.not_mem_nil, or_false, not_or]
        refine ⟨?_, ?_, hxml, hxmlns⟩
        · rintro rfl
          exact ha.space.1 huri
        · rintro rfl
          exact ha.space.2 huri
      values := fun a ha' c hc => (ho.values a ha' c hc).1
      text := fun c hc => (ho.text c hc).1 }

/-- A tree that says nothing which its text cannot say: it is legible, and has no text of white space
alone. -/
structure Steady (e : Element) : Prop extends e.Legible where
  solid : e.text.toList.all isSpace = true → e.text = ""

theorem blankless_of_steady {e : Element} {above : List Attribute}
    (h : e.Everywhere (fun _ => Steady) above) : e.blankless = e := by
  induction e using Element.induction generalizing above with
  | h e ih =>
    obtain ⟨hsteady, hbelow⟩ := everywhere_iff.mp h
    have htext : blanklessText e.text = e.text := by
      unfold blanklessText
      split
      · next hblank => exact (hsteady.solid hblank).symm
      · rfl
    have hchildren : e.children.map blankless = e.children := by
      conv_rhs => rw [← List.map_id e.children]
      exact List.map_congr_left fun c hc => ih c hc (hbelow c hc)
    rw [blankless_eq, htext, hchildren]
    cases e
    rfl

end Element

namespace Document

/-- A tree in good order is read back from its text, but for text of white space alone. -/
theorem parse_render_renderable {e : Element} (h : e.Everywhere Element.IsRenderable []) :
    parse (Bytes.ofString e.render) = .ok e.blankless :=
  parse_render (h.imp fun _ _ => Element.IsRenderable.renders)

/-- A tree with declarations at two levels, a change of the default namespace and back, and text of
white space alone. -/
def notice : Element :=
  { name := "filter", space := some "urn:b",
    attributes := [⟨"xmlns:p", "urn:x"⟩, ⟨"xmlns:q", "urn:y"⟩, ⟨"p:select", "/q:a < 'b'\n"⟩],
    children := [
      { name := "plain", text := " \t" },
      { name := "inner", space := some "urn:c", attributes := [⟨"xmlns:p", "urn:y"⟩],
        children := [{ name := "back", space := some "urn:b", attributes := [⟨"p:k", "\""⟩] }],
        text := "a & b" }],
    text := "]]>" }

theorem renderable_notice : notice.Everywhere Element.IsRenderable [] := by
  refine ⟨⟨[("p", "urn:x"), ("q", "urn:y")], [(⟨some "p", "select"⟩, "/q:a < 'b'\n")],
    by decide, by decide⟩, ⟨⟨[], [], by decide, by decide⟩, trivial⟩, ?_, trivial⟩
  exact ⟨⟨[("p", "urn:y")], [], by decide, by decide⟩,
    ⟨⟨[], [(⟨some "p", "k"⟩, "\"")], by decide, by decide⟩, trivial⟩, trivial⟩

/-- It is read back without the text between its first child's tags. -/
theorem notice_read_back : notice.Everywhere Element.IsRenderable [] ∧
    parse (Bytes.ofString notice.render) = .ok notice.blankless ∧ notice.blankless ≠ notice :=
  ⟨renderable_notice, parse_render_renderable renderable_notice, by decide⟩

/-- Trees in good order that are not read back: a prefix that is bound to nothing, a prefix that
cannot be declared, and a default namespace that cannot be. -/
def strays : List (Element × Scope × List (QName × String)) :=
  [({ name := "a", attributes := [⟨"xmlns:p", ""⟩] }, [("p", "")], []),
    ({ name := "a", attributes := [⟨"xmlns:xml", Scope.xmlUri⟩] }, [("xml", Scope.xmlUri)], []),
    ({ name := "a", space := some "xml" }, [], [])]

theorem strays_not_read_back : strays.Forall fun s =>
    s.1.Everywhere Element.IsOrderly [] ∧ parse (Bytes.ofString s.1.render) ≠ .ok s.1.blankless := by
  have horderly : ∀ s ∈ strays, s.1.Orderly [] s.2.1 s.2.2 ∧ s.1.children = [] := by decide
  have hread : ∀ s ∈ strays, Encoding.ofMark? (Bytes.ofString s.1.render) = none ∧
      (parseWithin 100 (Bytes.ofString s.1.render)).map
        (fun x => decide (x.toOption = some s.1.blankless)) = some false := by decide +kernel
  refine List.forall_iff_forall_mem.mpr fun s hs => ?_
  obtain ⟨hmark, hx⟩ := hread s hs
  obtain ⟨h, hchildren⟩ := horderly s hs
  refine ⟨Element.everywhere_iff.mpr ⟨⟨_, _, h⟩, by simp [hchildren]⟩, parse_ne_ok 100 hmark hx⟩

/-- The tree of a document that says nothing which the text of a tree cannot say is read back from its
text as it is, and gives the same text again. -/
theorem read_back_of_parse {bytes : Bytes} {e : Element} (h : parse bytes = .ok e)
    (hsteady : e.Everywhere (fun _ => Element.Steady) []) :
    ∃ e', parse (Bytes.ofString e.render) = .ok e' ∧ e' = e ∧ e'.render = e.render := by
  have hread := parse_render ((sound_of_parse h).and (hsteady.imp fun _ _ hs => hs.toLegible))
  rw [Element.blankless_of_steady hsteady] at hread
  exact ⟨e, hread, rfl, rfl⟩

/-- A document with prefixes, an equal declaration inside, and a character data section. -/
def filing : String :=
  "<p:get xmlns:p=\"urn:x\" p:k=\"1&#xA;2\"><![CDATA[a<b]]>\n<c xmlns:p=\"urn:x\"/></p:get>"

def filed : Element :=
  { name := "get", space := some "urn:x", attributes := [⟨"xmlns:p", "urn:x"⟩, ⟨"p:k", "1\n2"⟩],
    children := [{ name := "c" }], text := "a<b\n" }

theorem parse_filing : parse (Bytes.ofString filing) = .ok filed :=
  parse_of_runWithin 100 filing (by decide +kernel) (by decide +kernel) (by decide +kernel)

theorem filing_read_back : parse (Bytes.ofString filing) = .ok filed ∧
    ∃ e', parse (Bytes.ofString filed.render) = .ok e' ∧ e' = filed ∧ e'.render = filed.render := by
  have hlegible : filed.Legible := {
    nameStart := by decide
    space := by decide
    values := by decide
    text := by decide }
  have hchild : Element.Legible { name := "c" } := {
    nameStart := by decide
    space := by decide
    values := by decide
    text := by decide }
  exact ⟨parse_filing, read_back_of_parse parse_filing
    ⟨⟨hlegible, by decide⟩, ⟨⟨hchild, by decide⟩, trivial⟩, trivial⟩⟩

/-- Documents whose trees are not read back: a character of version 1.1, a namespace that cannot be a
default one, a name that cannot stand without its prefix, and white space alone that is kept since it
comes from an entity. -/
def strayDocuments : List (String × Element) :=
  [("<?xml version=\"1.1\"?><a>&#1;</a>", { name := "a", text := "\x01" }),
    ("<p:a xmlns:p=\"" ++ Scope.xmlUri ++ "\"/>",
      { name := "a", space := some Scope.xmlUri, attributes := [⟨"xmlns:p", Scope.xmlUri⟩] }),
    ("<p:1a xmlns:p=\"urn:x\"/>",
      { name := "1a", space := some "urn:x", attributes := [⟨"xmlns:p", "urn:x"⟩] }),
    ("<!DOCTYPE a [<!ENTITY s \" \">]><a>&s;</a>", { name := "a", text := " " })]

theorem strayDocuments_not_read_back : strayDocuments.Forall fun s =>
    parse (Bytes.ofString s.1) = .ok s.2 ∧ parse (Bytes.ofString s.2.render) ≠ .ok s.2 := by
  have hread : ∀ s ∈ strayDocuments, Encoding.ofMark? (Bytes.ofString s.1) = none ∧
      (parseWithin 100 (Bytes.ofString s.1)).map Except.toOption = some (some s.2) := by
    decide +kernel
  have hagain : ∀ s ∈ strayDocuments, Encoding.ofMark? (Bytes.ofString s.2.render) = none ∧
      (parseWithin 150 (Bytes.ofString s.2.render)).map
        (fun x => decide (x.toOption = some s.2)) = some false := by
    decide +kernel
  refine List.forall_iff_forall_mem.mpr fun s hs => ?_
  obtain ⟨hmark, hx⟩ := hread s hs
  obtain ⟨hmark', hx'⟩ := hagain s hs
  exact ⟨parse_of_toOption 100 hmark hx, parse_ne_ok 150 hmark' hx'⟩

end Document
end Netconf.Xml
