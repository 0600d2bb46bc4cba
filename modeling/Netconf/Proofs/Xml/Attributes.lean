import Netconf.Proofs.Xml.Legible
import Netconf.Proofs.Xml.Passage

/-! The attributes of a tag, read from the text of an element: their values with all that is escaped
in them, and the order in which they are taken. -/
namespace Netconf.Xml

namespace Reading

variable {rest : List Char} {stack : List Frame} {root : Option Element} {pending : Run}

/-! Attribute values. -/

/-- A value behind its opening quote, with the characters so far, last first. -/
def openedValue (chars : List Char) : ValuePart := { mark := some '"', chars }

theorem takesReference_value (tag : StartTag) (name : QName) (chars : List Char) :
    TakesReference
      (fun s => standing stack root
        (.tag (.value tag name { openedValue chars with reference := some s })) pending)
      (fun c => standing stack root (.tag (.value tag name (openedValue (c :: chars)))) pending) where
  lexis := fun _ => rfl
  more := by
    intro s s' t h
    have hdialect : (standing stack root
      (.tag (.value tag name { openedValue chars with reference := some s })) pending).dialect =
      {} := rfl
    change Reading.tag _ (.value tag name { openedValue chars with reference := some s }) t = _
    simp only [Reading.tag, hdialect, TagPart.step, ValuePart.step, h]
    rfl
  done := by
    intro s t c h
    have hdialect : (standing stack root
      (.tag (.value tag name { openedValue chars with reference := some s })) pending).dialect =
      {} := rfl
    change Reading.tag _ (.value tag name { openedValue chars with reference := some s }) t = _
    simp only [Reading.tag, hdialect, TagPart.step, ValuePart.step, h]
    rfl

/-- A token that stands for itself is another character of a value. -/
theorem step_openedValue {chars : List Char} {c : Char} {t : Token}
    (hchar : Version.v10.isChar c = true)
    (ht : t = .character c ∨ t = .equals ∧ c = '=' ∨ t = .semicolon ∧ c = ';') :
    (openedValue chars).step {} t = .ok (.more (openedValue (c :: chars))) := by
  obtain rfl | ⟨rfl, rfl⟩ | ⟨rfl, rfl⟩ := ht
  · have hliteral : ({} : Dialect).version.isLiteral c = true := hchar
    simp [ValuePart.step, openedValue, ValuePart.inside, hliteral, Except.map, ValuePart.append]
  · rfl
  · rfl

theorem passes_valueChar {tag : StartTag} {name : QName} {chars : List Char} {c : Char}
    (hchar : Version.v10.isChar c = true) (hrest : Calm rest) :
    Passes (standing stack root (.tag (.value tag name (openedValue chars))) pending)
      (escapeInAttribute c) rest
      (standing stack root (.tag (.value tag name (openedValue (c :: chars)))) pending) := by
  obtain ⟨hplain, hfree⟩ | ⟨ds, hescaped, hrefers⟩ := escapes_attribute c
  · rw [hplain]
    simp only [List.mem_cons, List.not_mem_nil, or_false, not_or] at hfree
    obtain ⟨hless, hgreater, hquote, hmark, hand⟩ := hfree
    obtain ⟨t, htoken, hspelling, ht⟩ := exists_token hless hgreater hand hrest
    refine passes_tag [] t htoken ?_
    have hstep : (openedValue chars).step {} t = .ok (.more (openedValue (c :: chars))) := by
      refine step_openedValue hchar ?_
      obtain ht | rfl | rfl | ⟨-, hc⟩ := ht
      · exact .inl ht
      · exact .inr (.inl ⟨rfl, (List.singleton_inj.mp hspelling).symm⟩)
      · exact .inr (.inr ⟨rfl, (List.singleton_inj.mp hspelling).symm⟩)
      · exact absurd hc (not_or.mpr ⟨hquote, hmark⟩)
    simp only [TagPart.step, hstep]
  · rw [hescaped]
    refine Passes.cons ?_ (passes_reference (takesReference_value tag name chars) hrefers)
    exact passes_tag [] .ampersand rfl rfl

theorem passes_valueChars {tag : StartTag} {name : QName} {cs : List Char}
    (hchars : ∀ c ∈ cs, Version.v10.isChar c = true) (hrest : Calm rest) :
    Passes (standing stack root (.tag (.value tag name (openedValue []))) pending)
      (cs.flatMap escapeInAttribute) rest
      (standing stack root (.tag (.value tag name (openedValue cs.reverse))) pending) := by
  refine passes_escaped escapes_attribute (by decide)
    (fun known => standing stack root (.tag (.value tag name (openedValue known.reverse))) pending)
    (fun known c hc rest hcalm => ?_) [] hrest
  rw [List.reverse_append, List.reverse_singleton, List.singleton_append]
  exact passes_valueChar (hchars c hc) hcalm

/-! Attributes. -/

/-- A part of a tag behind which the tag can end, and white space can follow. -/
def Behind (part : TagPart) (tag : StartTag) : Prop :=
  ∀ t, t = .tagEnd ∨ t = .emptyTagEnd ∨ t = .character ' ' →
    part.step {} t = TagPart.between tag false t

theorem behind_afterValue (tag : StartTag) : Behind (.afterValue tag) tag := fun _ _ => rfl

theorem behind_startName {q : QName} (h : q.Written) (hpfx : q.pfx = none) :
    Behind (.startName (({} : Spelling).after q.text.toList)) { name := q } := by
  have hcomplete : (({} : Spelling).after q.text.toList).complete = .ok (.done q) :=
    Spelling.complete_after h
  have hprefix : TagPart.checkPrefix q = .ok () := by
    simp [TagPart.checkPrefix, hpfx]
  intro t ht
  have hqualified : (({} : Spelling).after q.text.toList).qualified TagPart.endsStart t =
      .ok (.done q) := by
    obtain rfl | rfl | rfl := ht
    · exact hcomplete
    · exact hcomplete
    · exact hcomplete
  simp only [TagPart.step, hqualified, TagPart.afterStartName, hprefix]

end Reading

namespace StartTag

/-- A tag with another attribute behind those that it has. -/
def extended (tag : StartTag) (a : QName × String) : StartTag :=
  { tag with attributes := a :: tag.attributes }

/-- An attribute that can be read behind those that a tag has. -/
structure Takes (tag : StartTag) (a : QName × String) : Prop where
  written : a.1.Written
  chars : ∀ c ∈ a.2.toList, Version.v10.isChar c = true
  admits : tag.admits a.1 = true

/-- Attributes that can be read behind those that a tag has, one after the other. -/
def TakesAll (tag : StartTag) : List (QName × String) → Prop
  | [] => True
  | a :: as => tag.Takes a ∧ (tag.extended a).TakesAll as

end StartTag

namespace Reading

variable {rest : List Char} {stack : List Frame} {root : Option Element} {pending : Run}

theorem passes_attribute {part : TagPart} {tag : StartTag} {a : QName × String}
    (hpart : Behind part tag) (h : tag.Takes a) :
    Passes (standing stack root (.tag part) pending) (attributeChars a.1.text a.2) rest
      (standing stack root (.tag (.afterValue (tag.extended a))) pending) := by
  obtain ⟨⟨c, cs, htext, hc⟩, -⟩ := QName.ofChars?_eq_some_iff.mp h.written.spelled
  have hadd : Spelling.add {} c = ({} : Spelling).after [c] := by
    simp [Spelling.add, Spelling.after, Ne.symm (ne_colon_of_isNameStart hc)]
  have hcontinues : (Spelling.add {} c).Continues cs := by
    rw [hadd]
    exact Spelling.continues_rest h.written htext
  have hnameChars : ∀ d ∈ cs, isNameChar d = true :=
    fun d hd => h.written.fits.chars d (by simp [htext, hd])
  have hspace : ∀ behind, Passes (standing stack root (.tag part) pending) [' '] behind
      (standing stack root (.tag (.gap tag)) pending) := by
    intro behind
    refine passes_tag [] (.character ' ') rfl ?_
    rw [hpart _ (.inr (.inr rfl))]
    rfl
  have hfirst : ∀ behind, Passes (standing stack root (.tag (.gap tag)) pending) [c] behind
      (standing stack root (.tag (.attributeName tag (Spelling.add {} c))) pending) := by
    intro behind
    have hname := isNameChar_of_isNameStart hc
    refine passes_tag [] _ (token_of_isNameChar hname) ?_
    simp [TagPart.step, TagPart.between, isSpace_of_isNameChar hname, hc]
  have hsign : ∀ behind, Passes
      (standing stack root (.tag (.attributeName tag ((Spelling.add {} c).after cs))) pending) ['='] behind
      (standing stack root (.tag (.value tag a.1 {})) pending) := by
    intro behind
    refine passes_tag [] .equals rfl ?_
    have hqualified : ((Spelling.add {} c).after cs).qualified (· = .equals) .equals =
        .ok (.done a.1) := by
      rw [hadd, ← Spelling.after_cons, ← htext]
      exact Spelling.complete_after h.written
    simp only [TagPart.step, hqualified, h.admits, if_true]
    rfl
  have hopen : ∀ behind, Passes (standing stack root (.tag (.value tag a.1 {})) pending) ['"'] behind
      (standing stack root (.tag (.value tag a.1 (openedValue []))) pending) :=
    fun behind => passes_tag [] (.quote '"') rfl rfl
  have hclose : ∀ behind, Passes
      (standing stack root (.tag (.value tag a.1 (openedValue a.2.toList.reverse))) pending)
      ['"'] behind (standing stack root (.tag (.afterValue (tag.extended a))) pending) := by
    intro behind
    refine passes_tag [] (.quote '"') rfl ?_
    simp [TagPart.step, ValuePart.step, ValuePart.quoted, openedValue, StartTag.extended]
  have hquote : ∀ behind, Calm ('"' :: behind) :=
    fun behind => calm_of_ne (by decide) (by decide)
  unfold attributeChars
  rw [htext]
  simp only [List.cons_append, List.append_assoc]
  refine Passes.cons (hspace _) (Passes.cons (hfirst _) ?_)
  refine Passes.append (passes_name (takesName_attributeName tag) hnameChars hcontinues) ?_
  refine Passes.cons (hsign _) (Passes.cons (hopen _) ?_)
  exact Passes.append (passes_valueChars h.chars (hquote _)) (hclose _)

/-- Attributes lead through a tag, which holds them then. -/
theorem passes_attributes {part : TagPart} {tag : StartTag} {as : List (QName × String)}
    (hpart : Behind part tag) (h : tag.TakesAll as) :
    ∃ part', Behind part' { tag with attributes := as.reverse ++ tag.attributes } ∧
      ∀ stack root pending rest, Passes (standing stack root (.tag part) pending)
        (as.flatMap fun a => attributeChars a.1.text a.2) rest
        (standing stack root (.tag part') pending) := by
  induction as generalizing part tag with
  | nil => exact ⟨part, hpart, fun _ _ _ _ => Passes.refl _ _⟩
  | cons a as ih =>
    obtain ⟨ha, has⟩ := h
    obtain ⟨part', hbehind, hpasses⟩ := ih (behind_afterValue (tag.extended a)) has
    refine ⟨part', ?_, fun stack root pending rest => ?_⟩
    · simpa [StartTag.extended] using hbehind
    · rw [List.flatMap_cons]
      exact Passes.append (passes_attribute hpart ha) (hpasses stack root pending rest)

end Reading

/-! The tag of an element. -/

theorem StartTag.takesAll_of_split {tag : StartTag} {as : List (QName × String)}
    (h : ∀ before a behind, as = before ++ a :: behind →
      StartTag.Takes { tag with attributes := before.reverse ++ tag.attributes } a) :
    tag.TakesAll as := by
  induction as generalizing tag with
  | nil => trivial
  | cons a as ih =>
    refine ⟨h [] a as rfl, ih fun before b behind has => ?_⟩
    have hb := h (a :: before) b behind (by rw [has, List.cons_append])
    simpa [StartTag.extended] using hb

theorem kept_append (as bs : List (QName × String)) : kept (as ++ bs) = kept as ++ kept bs :=
  List.map_append

namespace Element

variable {above : List Attribute} {e : Element} {declared : Scope} {plain : List (QName × String)}
  {inherited : Option String}

/-- The tag says what the element does, behind the default namespace. -/
theorem Sound.kept_tagAttributes (h : e.Sound above declared plain) (inherited : Option String) :
    kept (e.tagAttributes inherited declared plain) =
      kept (e.ownDefault inherited) ++ e.attributes := by
  have hdeclared : kept (declared.map fun b => ((⟨some "xmlns", b.1⟩ : QName), b.2)) =
      declared.map declaration := by
    simp [kept, declaration, QName.text]
  rw [tagAttributes, kept_append, kept_append, hdeclared, List.append_assoc, ← h.attributes]

theorem Sound.chars_tagAttributes (h : e.Sound above declared plain) (hl : e.Legible) :
    ∀ a ∈ e.tagAttributes inherited declared plain, ∀ c ∈ a.2.toList,
      Version.v10.isChar c = true := by
  intro a ha c hc
  have hmem : (⟨a.1.text, a.2⟩ : Attribute) ∈ kept (e.tagAttributes inherited declared plain) :=
    List.mem_map.mpr ⟨a, ha, rfl⟩
  rw [h.kept_tagAttributes] at hmem
  obtain hmem | hmem := List.mem_append.mp hmem
  · obtain ⟨b, hb, heq⟩ := List.mem_map.mp hmem
    have hvalue : a.2 = e.space.getD "" := by
      rw [← (Attribute.mk.inj heq).2, mem_ownDefault hb]
    rw [hvalue] at hc
    cases hspace : e.space with
    | none => simp [hspace] at hc
    | some uri =>
      rw [hspace] at hc
      exact (hl.space uri hspace).2 c hc
  · exact hl.values _ hmem c hc

theorem Sound.admits_tagAttributes (h : e.Sound above declared plain) {before behind}
    {a : QName × String} (heq : e.tagAttributes inherited declared plain = before ++ a :: behind)
    (tag : StartTag) : StartTag.admits { tag with attributes := before.reverse } a.1 = true := by
  cases hbinds : a.1.binds? with
  | some p => simp [StartTag.admits, hbinds]
  | none =>
    have hdistinct := h.distinct
    rw [← h.plainAttributes_tagAttributes inherited, heq, plainAttributes,
      List.filter_append, List.filter_cons, if_pos (by simp [hbinds])] at hdistinct
    have hother : ∀ b ∈ before, b.1 ≠ a.1 := by
      intro b hb hsame
      refine (List.pairwise_append.mp hdistinct).2.2 b ?_ a (by simp) hsame
      exact List.mem_filter.mpr ⟨hb, by simp [hsame, hbinds]⟩
    simpa [StartTag.admits, hbinds] using hother

theorem Sound.takesAll (h : e.Sound above declared plain) (hl : e.Legible)
    (inherited : Option String) :
    StartTag.TakesAll { name := { base := e.name } } (e.tagAttributes inherited declared plain) := by
  refine StartTag.takesAll_of_split fun before a behind heq => ?_
  have hmem : a ∈ e.tagAttributes inherited declared plain := by
    rw [heq]
    simp
  rw [List.append_nil]
  exact {
    written := h.written_tagAttributes _ a hmem
    chars := h.chars_tagAttributes hl a hmem
    admits := h.admits_tagAttributes heq _ }

end Element

end Netconf.Xml
