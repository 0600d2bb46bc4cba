import Netconf.Proofs.Xml.Sound
import Netconf.Xml.Printer

/-! Elements whose text can be read. Such an element is sound, and besides it says nothing that a
document of version 1.0 could not say. The tag that its text starts with opens a frame that holds
just what the element does. -/
namespace Netconf.Xml

namespace Element

/-- What an element needs beyond soundness, so that its text can be read: a name that starts like
one, a namespace that may be a default one, and characters of XML 1.0. -/
structure Legible (e : Element) : Prop where
  nameStart : ∀ c ∈ e.name.toList.head?, isNameStart c = true
  space : ∀ uri ∈ e.space, uri ∉ ["xml", "xmlns", Scope.xmlUri, Scope.xmlnsUri] ∧
    ∀ c ∈ uri.toList, Version.v10.isChar c = true
  values : ∀ a ∈ e.attributes, ∀ c ∈ a.value.toList, Version.v10.isChar c = true
  text : ∀ c ∈ e.text.toList, Version.v10.isChar c = true

/-! The tag of an element. -/

/-- The declaration of an element's namespace as the default one, where it is not so around. -/
def ownDefault (e : Element) (inherited : Option String) : List (QName × String) :=
  if e.space = inherited then [] else [(⟨none, "xmlns"⟩, e.space.getD "")]

/-- The attributes that the text of an element starts with. -/
def tagAttributes (e : Element) (inherited : Option String) (declared : Scope)
    (plain : List (QName × String)) : List (QName × String) :=
  e.ownDefault inherited ++ declared.map (fun b => (⟨some "xmlns", b.1⟩, b.2)) ++ plain

/-- The tag that the text of an element starts with. -/
def startTag (e : Element) (inherited : Option String) (declared : Scope)
    (plain : List (QName × String)) : StartTag :=
  { name := { base := e.name }, attributes := e.tagAttributes inherited declared plain }

/-- The frame of an element of which no text and no child has been read. -/
def opened (e : Element) (scope : Scope) : Frame :=
  { name := { base := e.name }, scope, space := e.space, attributes := e.attributes }

variable {above : List Attribute} {e : Element} {declared : Scope} {plain : List (QName × String)}
  {inherited : Option String}

theorem written_xmlns : QName.Written ⟨none, "xmlns"⟩ := by decide

theorem Sound.written_name (h : e.Sound above declared plain) (hl : e.Legible) :
    QName.Written { base := e.name } := by
  refine ⟨?_, h.nameFits⟩
  refine QName.ofChars?_eq_some_iff.mpr ⟨?_, .inl ⟨h.nameLocal, by simp [QName.text]⟩⟩
  cases hname : e.name.toList with
  | nil => exact absurd hname h.nameNonempty
  | cons c rest => exact ⟨c, rest, hname, hl.nameStart c (by simp [hname])⟩

theorem mem_ownDefault {a : QName × String} (ha : a ∈ e.ownDefault inherited) :
    a = (⟨none, "xmlns"⟩, e.space.getD "") := by
  unfold ownDefault at ha
  split at ha
  · cases ha
  · simpa using ha

theorem Sound.written_tagAttributes (h : e.Sound above declared plain) (inherited : Option String) :
    ∀ a ∈ e.tagAttributes inherited declared plain, a.1.Written := by
  intro a ha
  simp only [tagAttributes, List.mem_append, List.mem_map] at ha
  obtain (ha | ⟨b, hb, rfl⟩) | ha := ha
  · rw [mem_ownDefault ha]
    exact written_xmlns
  · exact (h.declares b hb).1
  · exact (h.others a ha).1

theorem bindings_append (as bs : List (QName × String)) :
    bindings (as ++ bs) = bindings as ++ bindings bs :=
  List.filterMap_append

theorem Sound.bindings_tagAttributes (h : e.Sound above declared plain) :
    bindings (e.tagAttributes inherited declared plain) =
      bindings (e.ownDefault inherited) ++ declared := by
  have hdeclared : bindings (declared.map fun b => ((⟨some "xmlns", b.1⟩ : QName), b.2)) =
      declared := by
    simp [bindings, List.filterMap_map, QName.binds?]
  have hplain : bindings plain = [] := by
    refine List.filterMap_eq_nil_iff.mpr fun a ha => ?_
    rw [(h.others a ha).2, Option.map_none]
  rw [tagAttributes, bindings_append, bindings_append, hdeclared, hplain, List.append_nil]

theorem bindings_ownDefault : bindings (e.ownDefault inherited) =
    if e.space = inherited then [] else [("", e.space.getD "")] := by
  unfold ownDefault
  split <;> simp [bindings, QName.binds?]

theorem Sound.plainAttributes_tagAttributes (h : e.Sound above declared plain)
    (inherited : Option String) :
    plainAttributes (e.tagAttributes inherited declared plain) = plain := by
  have hdefault : plainAttributes (e.ownDefault inherited) = [] := by
    unfold ownDefault
    split <;> simp [plainAttributes, QName.binds?]
  have hdeclared : plainAttributes (declared.map fun b => ((⟨some "xmlns", b.1⟩ : QName), b.2)) =
      [] := by
    simp [plainAttributes, List.filter_map, QName.binds?, Function.comp_def]
  have hplain : plainAttributes plain = plain := by
    refine List.filter_eq_self.mpr fun a ha => ?_
    rw [(h.others a ha).2, Option.isNone_none]
  simp only [plainAttributes, tagAttributes, List.filter_append] at hdefault hdeclared hplain ⊢
  rw [hdefault, hdeclared, hplain, List.append_nil, List.nil_append]

end Element

/-- A scope is that around an element: it agrees with the attributes above, and the default
namespace is the inherited one. -/
structure Scope.Surrounds (scope : Scope) (above : List Attribute) (inherited : Option String) :
    Prop extends scope.Agrees above where
  default : scope.find? "" = some (inherited.getD "")
  nonempty : inherited ≠ some ""

theorem Scope.Surrounds.outermost : Scope.outermost.Surrounds [] none where
  toAgrees := Agrees.outermost
  default := by decide
  nonempty := by decide

/-- Of sorted bindings of ordinary prefixes all are kept if they change something. -/
theorem changed_eq {above : List Attribute} {default declared : Scope} {outer : Option Scope}
    (hdefault : ∀ b ∈ default, b.1 = "") (hsorted : declared.Sorted)
    (houter : (outer.getD Scope.outermost).Agrees above)
    (hdeclared : ∀ b ∈ declared, IsOrdinary b.1 ∧ binding? above b.1 ≠ some b.2) :
    changed (default ++ declared) outer = declared := by
  have hkept : (default ++ declared).filter
      (fun b => b.1 ≠ "" && b.1 ≠ "xml" && b.1 ≠ "xmlns") = declared := by
    rw [List.filter_append, List.filter_eq_nil_iff.mpr, List.nil_append, List.filter_eq_self]
    · intro b hb
      simpa [IsOrdinary, and_assoc] using (hdeclared b hb).1
    · intro b hb
      simp [hdefault b hb]
  rw [changed, ordered, hkept, Scope.foldl_insertBinding_sorted (by simpa using hsorted),
    List.nil_append, List.filter_eq_self]
  intro b hb
  obtain ⟨hordinary, hchanges⟩ := hdeclared b hb
  rw [← houter.prefixes _ hordinary, ← bind_find? outer hordinary] at hchanges
  simpa using hchanges

namespace Element.Sound

variable {above : List Attribute} {e : Element} {declared : Scope} {plain : List (QName × String)}
  {inherited : Option String} {outer : Option Scope}

theorem checkBinding_tagAttributes (h : e.Sound above declared plain) (inherited : Option String)
    (hl : e.Legible) :
    ∀ b ∈ bindings (e.tagAttributes inherited declared plain), checkBinding b.1 b.2 = .ok () := by
  intro b hb
  rw [h.bindings_tagAttributes, bindings_ownDefault] at hb
  obtain hb | hb := List.mem_append.mp hb
  · split at hb
    · cases hb
    · obtain rfl := List.mem_singleton.mp hb
      cases hspace : e.space with
      | none => decide
      | some uri =>
        have hfree := (hl.space uri hspace).1
        simp only [List.mem_cons, List.not_mem_nil, or_false] at hfree
        simp only [checkBinding, Option.getD_some, if_true]
        rw [if_neg hfree]
  · obtain ⟨-, hordinary, hne, -⟩ := h.declares b hb
    exact (checkBinding_ordinary hordinary).mpr hne

/-- Within its tag the default namespace is that of the element. -/
theorem default_within (h : e.Sound above declared plain)
    (houter : (outer.getD Scope.outermost).Surrounds above inherited) :
    (Frame.scopeWithin (e.startTag inherited declared plain) outer).find? "" =
      some (e.space.getD "") := by
  have hdeclared : Scope.find? declared "" = none := by
    rw [Option.eq_none_iff_forall_ne_some]
    intro uri huri
    exact (h.declares _ (Scope.mem_of_find? huri)).2.1.1 rfl
  rw [Frame.scopeWithin, startTag, h.bindings_tagAttributes, bindings_ownDefault,
    Scope.find?_append, Scope.find?_append, hdeclared, houter.default]
  split
  · next hsame => simp [hsame]
  · simp [Scope.find?_cons]

theorem sound_startTag (h : e.Sound above declared plain) (hl : e.Legible) :
    (e.startTag inherited declared plain).Sound where
  name := h.written_name hl
  attributes := h.written_tagAttributes _
  distinct := by
    rw [startTag, h.plainAttributes_tagAttributes]
    exact h.distinct

/-- The attributes that are kept of the tag are those of the element. -/
theorem attributes_tagAttributes (h : e.Sound above declared plain)
    (houter : (outer.getD Scope.outermost).Agrees above) :
    declarations (bindings (e.tagAttributes inherited declared plain)) outer ++
      kept (plainAttributes (e.tagAttributes inherited declared plain)) = e.attributes := by
  have hdefault : ∀ b ∈ bindings (e.ownDefault inherited), b.1 = "" := by
    intro b hb
    rw [bindings_ownDefault] at hb
    split at hb
    · cases hb
    · rw [List.mem_singleton.mp hb]
  have hchanges : ∀ b ∈ declared, IsOrdinary b.1 ∧ binding? above b.1 ≠ some b.2 :=
    fun b hb => ⟨(h.declares b hb).2.1, (h.declares b hb).2.2.2⟩
  rw [declarations_eq, h.bindings_tagAttributes, changed_eq hdefault h.sorted houter hchanges,
    h.plainAttributes_tagAttributes, ← h.attributes]

/-- The tag of an element that is sound and legible opens the frame of that element. -/
theorem ofTag_startTag (h : e.Sound above declared plain) (hl : e.Legible)
    (houter : (outer.getD Scope.outermost).Surrounds above inherited) :
    ∃ scope, Frame.ofTag (e.startTag inherited declared plain) outer = .ok (e.opened scope) ∧
      scope.Surrounds (e.attributes ++ above) e.space := by
  have hplain : plainAttributes (e.startTag inherited declared plain).attributes = plain :=
    h.plainAttributes_tagAttributes _
  have hattributes : declarations (bindings (e.startTag inherited declared plain).attributes) outer
      ++ kept (plainAttributes (e.startTag inherited declared plain).attributes) = e.attributes :=
    h.attributes_tagAttributes houter.toAgrees
  have hcheck := h.checkBinding_tagAttributes inherited hl
  have hagrees := Frame.agrees_within (h.sound_startTag hl) houter.toAgrees hcheck
  rw [hattributes] at hagrees
  have hdefault := h.default_within houter
  refine ⟨Frame.scopeWithin (e.startTag inherited declared plain) outer, ?_,
    { toAgrees := hagrees, default := hdefault, nonempty := h.space }⟩
  refine Frame.ofTag_eq_ok_iff.mpr ⟨hcheck, ?_, ?_, e.space, ?_, ?_⟩
  · rw [hplain]
    exact h.few
  · intro a ha p hp
    rw [hplain] at ha
    obtain rfl | hbound := h.bound a ha p hp
    · rw [hagrees.xml, Option.isSome_some]
    · obtain ⟨hwritten, hbinds⟩ := h.others a ha
      obtain rfl | hordinary := isOrdinary_pfx hwritten hbinds hp
      · rw [hagrees.xml, Option.isSome_some]
      · rw [hagrees.prefixes p hordinary, hbound]
  · simp only [Scope.resolve, startTag, Option.getD_none] at hdefault ⊢
    rw [hdefault]
    cases hspace : e.space with
    | none => simp
    | some uri =>
      have hne : uri ≠ "" := by
        rintro rfl
        exact h.space hspace
      simp [hne]
  · rw [hattributes]
    rfl

end Element.Sound
end Netconf.Xml
