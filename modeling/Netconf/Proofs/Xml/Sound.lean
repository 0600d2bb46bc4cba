import Netconf.Proofs.Except
import Netconf.Proofs.Xml.Binding

/-! What is true of every element of a document that has been read, and the frame that a tag opens.
Such a frame holds what the tag says in an orderly form; and where a tag says it in that form
already, the frame holds just what is written. -/
namespace Netconf.Xml

namespace Element

mutual

/-- Something holds of an element and of those in it, each with the attributes of the elements
around it, the nearest first. -/
def Everywhere (P : List Attribute → Element → Prop) (above : List Attribute) : Element → Prop
  | ⟨name, space, attributes, children, text⟩ =>
    P above ⟨name, space, attributes, children, text⟩ ∧
      EverywhereIn P (attributes ++ above) children

def EverywhereIn (P : List Attribute → Element → Prop) (above : List Attribute) :
    List Element → Prop
  | [] => True
  | e :: es => e.Everywhere P above ∧ EverywhereIn P above es

end

variable {P Q : List Attribute → Element → Prop} {above : List Attribute}

theorem everywhereIn_iff {es : List Element} :
    EverywhereIn P above es ↔ ∀ e ∈ es, e.Everywhere P above := by
  induction es with
  | nil => simp [EverywhereIn]
  | cons e es ih => simp [EverywhereIn, ih]

theorem everywhere_iff {e : Element} :
    e.Everywhere P above ↔ P above e ∧ ∀ c ∈ e.children, c.Everywhere P (e.attributes ++ above) := by
  cases e
  rw [Everywhere, everywhereIn_iff]

theorem induction {motive : Element → Prop}
    (h : ∀ e : Element, (∀ c ∈ e.children, motive c) → motive e) (e : Element) : motive e :=
  h e fun c _hc => induction h c
termination_by e
decreasing_by
  have hlt := List.sizeOf_lt_of_mem _hc
  cases e
  simp only [Element.mk.sizeOf_spec]
  simp only at hlt
  omega

theorem Everywhere.and {e : Element} {above : List Attribute} (hp : e.Everywhere P above)
    (hq : e.Everywhere Q above) : e.Everywhere (fun above e => P above e ∧ Q above e) above := by
  induction e using induction generalizing above with
  | h e ih =>
    obtain ⟨hhere, hbelow⟩ := everywhere_iff.mp hp
    obtain ⟨hhere', hbelow'⟩ := everywhere_iff.mp hq
    exact everywhere_iff.mpr ⟨⟨hhere, hhere'⟩, fun c hc => ih c hc (hbelow c hc) (hbelow' c hc)⟩

theorem Everywhere.imp (h : ∀ above e, P above e → Q above e) :
    ∀ {e : Element} {above : List Attribute}, e.Everywhere P above → e.Everywhere Q above := by
  intro e above he
  induction e using induction generalizing above with
  | h e ih =>
    obtain ⟨hhere, hbelow⟩ := everywhere_iff.mp he
    exact everywhere_iff.mpr ⟨h above e hhere, fun c hc => ih c hc (hbelow c hc)⟩

/-- What is true of each element of a document: its name is the local part of one; its declarations
come first, in the order of the prefixes, and each changes something; and its other attributes have
names of their own, with prefixes that are bound. -/
structure Sound (above : List Attribute) (e : Element) (declared : Scope)
    (plain : List (QName × String)) : Prop where
  nameNonempty : e.name.toList ≠ []
  nameLocal : ':' ∉ e.name.toList
  nameFits : Spelling.Fits e.name.toList
  space : e.space ≠ some ""
  attributes : e.attributes = declared.map declaration ++ kept plain
  sorted : declared.Sorted
  declares : ∀ b ∈ declared, QName.Written ⟨some "xmlns", b.1⟩ ∧ IsOrdinary b.1 ∧ b.2 ≠ "" ∧
    binding? above b.1 ≠ some b.2
  others : ∀ a ∈ plain, a.1.Written ∧ a.1.binds? = none
  bound : ∀ a ∈ plain, ∀ p, a.1.pfx = some p →
    p = "xml" ∨ (binding? (e.attributes ++ above) p).isSome
  distinct : plain.Pairwise (·.1 ≠ ·.1)
  few : plain.length ≤ Frame.maxAttributes

/-- An element is sound, however its attributes are told apart. -/
def IsSound (above : List Attribute) (e : Element) : Prop :=
  ∃ declared plain, Sound above e declared plain

/-- Soundness says nothing of children and text. -/
theorem Sound.with_content {above : List Attribute} {e : Element} {declared : Scope}
    {plain : List (QName × String)} (h : Sound above e declared plain) (children : List Element)
    (text : String) : Sound above { e with children, text } declared plain :=
  { h with }

end Element

/-! What a scope has to do with the tree. -/

/-- In a scope every ordinary prefix is bound as it is by the attributes above. -/
structure Scope.Agrees (scope : Scope) (above : List Attribute) : Prop where
  prefixes : ∀ p, IsOrdinary p → scope.find? p = binding? above p
  xml : scope.find? "xml" = some Scope.xmlUri

theorem Scope.Agrees.outermost : Scope.outermost.Agrees [] where
  prefixes := fun _ h => Scope.outermost_find? h
  xml := by decide

/-- What is known of a tag before its prefixes are resolved. -/
structure StartTag.Sound (tag : StartTag) : Prop where
  name : tag.name.Written
  attributes : ∀ a ∈ tag.attributes, a.1.Written
  distinct : (plainAttributes tag.attributes).Pairwise (·.1 ≠ ·.1)

theorem StartTag.Sound.of_mem_plain {tag : StartTag} (h : tag.Sound) {a : QName × String}
    (ha : a ∈ plainAttributes tag.attributes) : a.1.Written ∧ a.1.binds? = none := by
  obtain ⟨hmem, hplain⟩ := List.mem_filter.mp ha
  exact ⟨h.attributes a hmem, by simpa using hplain⟩

theorem StartTag.Sound.of_mem_bindings {tag : StartTag} (h : tag.Sound) {b : String × String}
    (hb : b ∈ bindings tag.attributes) (hne : b.1 ≠ "") : QName.Written ⟨some "xmlns", b.1⟩ := by
  obtain ⟨a, ha, hbinds⟩ := List.mem_filterMap.mp hb
  obtain ⟨pfx, hpfx, rfl⟩ := Option.map_eq_some_iff.mp hbinds
  rw [← (QName.binds?_eq_some_iff hne).mp hpfx]
  exact h.attributes a ha

/-- A prefix of an attribute that binds nothing is `xml` or an ordinary one. -/
theorem isOrdinary_pfx {q : QName} (h : q.Written) (hplain : q.binds? = none) {p : String}
    (hp : q.pfx = some p) : p = "xml" ∨ IsOrdinary p := by
  by_cases hxml : p = "xml"
  · exact .inl hxml
  · refine .inr ⟨?_, hxml, ?_⟩
    · rintro rfl
      exact h.pfx_ne_empty hp
    · rintro rfl
      simp [QName.binds?, hp] at hplain

theorem Scope.resolve_ne_empty {s : Scope} {name : QName} {space : Option String}
    (h : s.resolve name = .ok space) : space ≠ some "" := by
  unfold resolve at h
  split at h
  · cases h
  · next uri _ =>
    cases h
    by_cases huri : uri = ""
    · simp [huri]
    · simp [huri]

/-- The bindings of a tag that may be bound, of which no ordinary one is to nothing. -/
theorem checkBinding_ordinary {pfx uri : String} (h : IsOrdinary pfx) :
    checkBinding pfx uri = .ok () ↔ uri ≠ "" := by
  obtain ⟨hne, hxml, hxmlns⟩ := h
  by_cases huri : uri = ""
  · simp [checkBinding, hne, hxml, hxmlns, huri]
  · simp [checkBinding, hne, hxml, hxmlns, huri]

theorem checkBinding_xml {uri : String} : checkBinding "xml" uri = .ok () ↔ uri = Scope.xmlUri := by
  by_cases huri : uri = Scope.xmlUri
  · simp [checkBinding, huri, Scope.xmlUri, Scope.reservedUri]
  · simp [checkBinding, huri]

/-! The frame that a tag opens. -/

namespace Frame

/-- The scope of an element with a tag. -/
def scopeWithin (tag : StartTag) (outer : Option Scope) : Scope :=
  bindings tag.attributes ++ outer.getD Scope.outermost

/-- What a tag needs for a frame, and what is in the frame. -/
theorem ofTag_eq_ok_iff {tag : StartTag} {outer : Option Scope} {f : Frame} :
    ofTag tag outer = .ok f ↔
      (∀ b ∈ bindings tag.attributes, checkBinding b.1 b.2 = .ok ()) ∧
      (plainAttributes tag.attributes).length ≤ maxAttributes ∧
      (∀ a ∈ plainAttributes tag.attributes, ∀ p, a.1.pfx = some p →
        ((scopeWithin tag outer).find? p).isSome) ∧
      ∃ space, (scopeWithin tag outer).resolve tag.name = .ok space ∧
        f = { name := tag.name, scope := scopeWithin tag outer, space
              attributes := declarations (bindings tag.attributes) outer ++
                kept (plainAttributes tag.attributes) } := by
  simp only [ofTag, Except.bind_eq_ok_iff, List.forM_eq_forM, Except.forM_eq_ok_iff, exists_const]
  by_cases hfew : maxAttributes < (plainAttributes tag.attributes).length
  · simp only [if_pos hfew, Except.bind_eq_ok_iff]
    simp [throw, throwThe, MonadExceptOf.throw, Nat.not_le.mpr hfew]
  · simp only [if_neg hfew, Except.bind_eq_ok_iff, Except.forM_eq_ok_iff, exists_const, pure,
      Except.pure, Except.ok.injEq]
    refine and_congr_right fun _ => ?_
    rw [and_iff_right (Nat.not_lt.mp hfew), ← exists_and_left]
    refine exists_congr fun space => ?_
    rw [and_left_comm, @eq_comm _ f]
    refine and_congr_left fun _ => forall₂_congr fun a _ => ?_
    cases a.1.pfx with
    | none => simp
    | some p => cases hp : ((scopeWithin tag outer).find? p).isSome <;> simp_all [scopeWithin]

/-- The scope of a tag agrees with the declarations that are kept of it, before those above. -/
theorem agrees_within {tag : StartTag} {outer : Option Scope} {above : List Attribute}
    (htag : tag.Sound) (houter : (outer.getD Scope.outermost).Agrees above)
    (hcheck : ∀ b ∈ bindings tag.attributes, checkBinding b.1 b.2 = .ok ()) :
    (scopeWithin tag outer).Agrees (declarations (bindings tag.attributes) outer ++
      kept (plainAttributes tag.attributes) ++ above) where
  prefixes := by
    intro p hp
    rw [declarations_eq, binding?_append, binding?_append, binding?_map_declaration,
      binding?_kept fun _ => htag.of_mem_plain, Option.or_none, ← houter.prefixes p hp,
      changed_find? _ _ hp, scopeWithin, Scope.find?_append]
  xml := by
    rw [scopeWithin, Scope.find?_append, houter.xml]
    cases hown : Scope.find? (bindings tag.attributes) "xml" with
    | none => rfl
    | some uri =>
      have huri := checkBinding_xml.mp (hcheck _ (Scope.mem_of_find? hown))
      rw [Option.some_or, ← huri]

/-- A tag that is sound opens a frame that is. -/
theorem sound_of_ofTag {tag : StartTag} {outer : Option Scope} {f : Frame}
    {above : List Attribute} (htag : tag.Sound) (houter : (outer.getD Scope.outermost).Agrees above)
    (h : ofTag tag outer = .ok f) :
    Element.Sound above f.close (changed (bindings tag.attributes) outer)
        (plainAttributes tag.attributes) ∧
      f.scope.Agrees (f.attributes ++ above) := by
  obtain ⟨hcheck, hfew, hbound, space, hspace, rfl⟩ := ofTag_eq_ok_iff.mp h
  obtain ⟨hne, hlocal, hfits⟩ := htag.name.base
  have hagrees := agrees_within htag houter hcheck
  have hdeclares : ∀ b ∈ changed (bindings tag.attributes) outer,
      QName.Written ⟨some "xmlns", b.1⟩ ∧ IsOrdinary b.1 ∧ b.2 ≠ "" ∧
        binding? above b.1 ≠ some b.2 := by
    intro b hb
    obtain ⟨hmem, hchanges⟩ := List.mem_filter.mp hb
    obtain ⟨hown, hordinary⟩ := mem_of_mem_ordered hmem
    refine ⟨htag.of_mem_bindings hown hordinary.1, hordinary,
      (checkBinding_ordinary hordinary).mp (hcheck b hown), ?_⟩
    rw [← houter.prefixes _ hordinary, ← bind_find? outer hordinary]
    simpa using hchanges
  have hprefixes : ∀ a ∈ plainAttributes tag.attributes, ∀ p, a.1.pfx = some p →
      p = "xml" ∨ (binding? (declarations (bindings tag.attributes) outer ++
        kept (plainAttributes tag.attributes) ++ above) p).isSome := by
    intro a ha p hp
    obtain ⟨hwritten, hplain⟩ := htag.of_mem_plain ha
    refine (isOrdinary_pfx hwritten hplain hp).imp_right fun hordinary => ?_
    rw [← hagrees.prefixes p hordinary]
    exact hbound a ha p hp
  exact ⟨{
    nameNonempty := hne
    nameLocal := hlocal
    nameFits := hfits
    space := Scope.resolve_ne_empty hspace
    attributes := rfl
    sorted := changed_sorted _ _
    declares := hdeclares
    others := fun _ => htag.of_mem_plain
    bound := hprefixes
    distinct := htag.distinct
    few := hfew }, hagrees⟩

end Frame
end Netconf.Xml
