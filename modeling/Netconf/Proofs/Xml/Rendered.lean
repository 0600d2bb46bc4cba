import Mathlib.Data.List.TakeWhile
import Netconf.Proofs.Text.Bytes
import Netconf.Proofs.Xml.Attributes
import Netconf.Proofs.Xml.Evaluation

/-! Texts of trees, read again. The text of a tree whose elements are sound and legible holds that
tree, except that text of white space alone is not kept. That is so however an empty element is
written: with one tag, or with a start tag and an end tag. -/
namespace Netconf.Xml

namespace Element

/-- The text of an element, unless it is white space alone. -/
def blanklessText (text : String) : String := if text.toList.all isSpace then "" else text

mutual

/-- The tree without text of white space alone. -/
def blankless : Element → Element
  | ⟨name, space, attributes, children, text⟩ =>
    ⟨name, space, attributes, blanklessAll children, blanklessText text⟩

def blanklessAll : List Element → List Element
  | [] => []
  | e :: es => e.blankless :: blanklessAll es

end

theorem blanklessAll_eq (es : List Element) : blanklessAll es = es.map blankless := by
  induction es with
  | nil => rfl
  | cons e es ih => rw [blanklessAll, ih, List.map_cons]

theorem blankless_eq (e : Element) : e.blankless =
    { e with children := e.children.map blankless, text := blanklessText e.text } := by
  cases e
  rw [blankless, blanklessAll_eq]

theorem isBlank_of_isSpace {c : Char} (h : isSpace c = true) : Text.isBlank c = true := by
  simp only [isSpace, Bool.or_eq_true, beq_iff_eq] at h
  obtain ((rfl | rfl) | rfl) | rfl := h <;> decide

/-- White space alone is nothing but blanks, so that it makes no difference to a trimmed text. -/
theorem content_blankless (e : Element) : e.blankless.content = e.content := by
  rw [blankless_eq, content, content, blanklessText]
  split
  · next hspace =>
    have hblank : Text.trimStart e.text.toList = [] := by
      rw [Text.trimStart, List.dropWhile_eq_nil_iff]
      exact fun c hc => isBlank_of_isSpace (List.all_eq_true.mp hspace c hc)
    rw [Text.trim, Text.trim, hblank]
    rfl
  · rfl

/-- What the text of an element needs, so that it can be read. -/
def Renders (above : List Attribute) (e : Element) : Prop := e.IsSound above ∧ e.Legible

end Element

namespace Run

theorem append_append (run : Run) (as bs : List Char) :
    (run.append as).append bs = run.append (as ++ bs) := by
  simp [append, Bool.and_assoc]

@[simp] theorem append_nil (run : Run) : run.append [] = run := by simp [append]

theorem text_append (text : String) :
    (({} : Run).append text.toList).text = Element.blanklessText text := by
  simp [Run.text, append, Element.blanklessText]

end Run

namespace Reading

variable {rest : List Char} {stack : List Frame} {f : Frame} {root : Option Element} {pending : Run}

/-! Text. -/

theorem takesReference_text :
    TakesReference (fun s => standing (f :: stack) root (.reference s) pending)
      (fun c => standing (f :: stack) root .content (pending.append [c])) where
  lexis := fun _ => rfl
  more := by
    intro s s' t h
    change Reading.refer _ s t = _
    have hversion : (standing (f :: stack) root (.reference s) pending).dialect.version = .v10 :=
      rfl
    simp only [Reading.refer, hversion, h]
    rfl
  done := by
    intro s t c h
    change Reading.refer _ s t = _
    have hversion : (standing (f :: stack) root (.reference s) pending).dialect.version = .v10 :=
      rfl
    simp only [Reading.refer, hversion, h]
    rfl

theorem passes_textChar {c : Char} (hchar : Version.v10.isChar c = true) (hrest : Calm rest) :
    Passes (standing (f :: stack) root .content pending) (escapeInText c) rest
      (standing (f :: stack) root .content (pending.append [c])) := by
  obtain ⟨hplain, hfree⟩ | ⟨ds, hescaped, hrefers⟩ := escapes_text c
  · rw [hplain]
    simp only [List.mem_cons, List.not_mem_nil, or_false, not_or] at hfree
    obtain ⟨hless, hgreater, hand⟩ := hfree
    obtain ⟨t, htoken, hspelling, ht⟩ := exists_token hless hgreater hand hrest
    refine passes_token [] { token := t, next := {} }
      { reading := standing (f :: stack) root .content (pending.append [c]) } htoken rfl ?_ rfl
    change Reading.content (standing (f :: stack) root .content pending) t = _
    obtain rfl | rfl | rfl | ⟨rfl, -⟩ := ht
    · have hliteral : ({} : Dialect).version.isLiteral c = true := hchar
      change Reading.character (standing (f :: stack) root .content pending) c = _
      simp [Reading.character, standing, hliteral, proceed]
    · rw [← hspelling]
      rfl
    · rw [← hspelling]
      rfl
    · rw [← hspelling]
      rfl
  · rw [hescaped]
    refine Passes.cons ?_ (passes_reference takesReference_text hrefers)
    exact passes_token [] { token := .ampersand, next := {} }
      { reading := standing (f :: stack) root (.reference {}) pending } rfl rfl rfl rfl

theorem passes_textChars {cs : List Char} (hchars : ∀ c ∈ cs, Version.v10.isChar c = true)
    (hrest : Calm rest) :
    Passes (standing (f :: stack) root .content pending) (cs.flatMap escapeInText) rest
      (standing (f :: stack) root .content (pending.append cs)) := by
  have hall := passes_escaped escapes_text (by decide)
    (fun known => standing (f :: stack) root .content (pending.append known))
    (fun known c hc rest hcalm => by
      rw [← Run.append_append]
      exact passes_textChar (hchars c hc) hcalm) [] hrest
  rwa [Run.append_nil] at hall

/-! Tags. -/

/-- The frame with the character data before the next tag. -/
def heard (f : Frame) (run : Run) : Frame := { f with text := f.text ++ run.text }

@[simp] theorem heard_empty (f : Frame) : heard f {} = f := by
  simp [heard, Run.text]

theorem flush_standing (place : Place) :
    (standing stack root place).flush = standing stack root place := by
  cases stack with
  | nil => rfl
  | cons f fs =>
    change standing (heard f {} :: fs) root place = _
    rw [heard_empty]

/-- A tag begins where an angle bracket stands before a name. -/
theorem passes_tagStart {r : Reading} (hlexis : r.lexis = {}) (hplace : r.place = .content)
    {c : Char} (hc : isNameStart c = true) :
    Passes r ['<'] (c :: rest) { r.flush with place := .tag (.startName {}), stage := .body } := by
  have hname := isNameChar_of_isNameStart hc
  refine passes_token [] { token := .tagStart, next := {} }
    { reading := { r.flush with place := .tag (.startName {}), stage := .body } } ?_ rfl ?_ rfl
  · rw [hlexis]
    have hquestion := ne_of_isNameChar (d := '?') hname (by decide)
    have hslash := ne_of_isNameChar (d := '/') hname (by decide)
    have hbang := ne_of_isNameChar (d := '!') hname (by decide)
    change Lexis.markupToken {} (c :: rest) = _
    unfold Lexis.markupToken
    split
    case h_4 hsame =>
      obtain ⟨rfl, rfl⟩ := List.cons.inj hsame
      rw [hname, Bool.or_true]
      rfl
    all_goals simp_all
  · have hsame : { r with lexis := {} } = r := by rw [← hlexis]
    rw [hsame]
    unfold step
    rw [hplace]
    rfl

/-- A start tag that is complete opens its frame, or closes it at once. -/
theorem enter_standing (root : Option Element) (part : TagPart) (tag : StartTag)
    (htag : Frame.ofTag tag (stack.head?.map (·.scope)) = .ok f) :
    (standing stack root (.tag part)).enter tag = .ok (if tag.selfClosing then
      (standing stack root (.tag part)).attach f.close else standing (f :: stack) root (.tag part)) := by
  have hstack : (standing stack root (.tag part)).stack = stack := rfl
  simp only [enter, flush_standing, hstack, htag]
  rfl

theorem goto_attach (place place' : Place) (e : Element) :
    ((standing stack root place).attach e).goto place' = (standing stack root place').attach e := by
  cases stack <;> rfl

theorem passes_tagEnd {part : TagPart} {tag : StartTag} (hpart : Behind part tag)
    (htag : Frame.ofTag { tag with attributes := tag.attributes.reverse }
      (stack.head?.map (·.scope)) = .ok f) :
    Passes (standing stack root (.tag part)) ['>'] rest (standing (f :: stack) root .content) := by
  refine passes_token [] { token := .tagEnd, next := {} }
    { reading := standing (f :: stack) root .content } rfl rfl ?_ rfl
  change Reading.tag (standing stack root (.tag part)) part .tagEnd = _
  have hstep : part.step (standing stack root (.tag part)).dialect .tagEnd =
      .ok (.done (tag.complete false)) := hpart _ (.inl rfl)
  have henter := enter_standing root part
    { tag with attributes := tag.attributes.reverse, selfClosing := false } htag
  simp only [Reading.tag, hstep, StartTag.complete, henter]
  rfl

theorem passes_emptyTagEnd {part : TagPart} {tag : StartTag} (hpart : Behind part tag)
    (htag : Frame.ofTag { tag with attributes := tag.attributes.reverse }
      (stack.head?.map (·.scope)) = .ok f) :
    Passes (standing stack root (.tag part)) ['/', '>'] rest
      ((standing stack root .content).attach f.close) := by
  refine passes_token ['>'] { token := .emptyTagEnd, next := {}, more := 1 }
    { reading := (standing stack root .content).attach f.close } rfl rfl ?_ rfl
  change Reading.tag (standing stack root (.tag part)) part .emptyTagEnd = _
  have hstep : part.step (standing stack root (.tag part)).dialect .emptyTagEnd =
      .ok (.done (tag.complete true)) := hpart _ (.inr (.inl rfl))
  have henter := enter_standing root part
    { tag with attributes := tag.attributes.reverse, selfClosing := true } htag
  simp only [Reading.tag, hstep, StartTag.complete, henter, if_true, Except.map]
  rw [goto_attach]

/-- The end tag of the innermost element closes it. -/
theorem passes_finish {q : QName} (hq : q.Written) (hpfx : q.pfx = none) (hname : f.name = q) :
    Passes (standing (f :: stack) root .content pending) ('<' :: '/' :: (q.text.toList ++ ['>'])) rest
      ((standing stack root .content).attach (heard f pending).close) := by
  have hopen : Passes (standing (f :: stack) root .content pending) ['<', '/']
      (q.text.toList ++ ['>'] ++ rest)
      (standing (heard f pending :: stack) root (.tag (.finishName {}))) :=
    passes_token ['/'] { token := .endTagStart, next := {}, more := 1 }
      ⟨standing (heard f pending :: stack) root (.tag (.finishName {})), []⟩ rfl rfl rfl rfl
  refine Passes.append hopen (Passes.append (passes_name takesName_finishName (fun c hc => hq.fits.chars c hc)
    (Spelling.continues_text hq)) ?_)
  have hcomplete : (({} : Spelling).after q.text.toList).qualified (· = .tagEnd) .tagEnd =
      .ok (.done q) := Spelling.complete_after hq
  generalize ({} : Spelling).after q.text.toList = s at hcomplete ⊢
  have hprefix : TagPart.checkPrefix q = .ok () := by
    simp [TagPart.checkPrefix, hpfx]
  have hleave : (standing (heard f pending :: stack) root (.tag (.finishName s))).leave q =
      .ok ((standing stack root (.tag (.finishName s))).attach (heard f pending).close) := by
    simp only [leave, flush_standing]
    exact if_pos hname
  refine passes_token [] { token := .tagEnd, next := {} }
    ⟨(standing stack root .content).attach (heard f pending).close, []⟩ rfl rfl ?_ rfl
  change Reading.tag (standing (heard f pending :: stack) root (.tag (.finishName s)))
    (.finishName s) .tagEnd = _
  simp only [Reading.tag, TagPart.step, hcomplete, hprefix, Except.bind, TagPart.afterFinish, hleave,
    Except.map, goto_attach]

end Reading

/-! Elements. -/

namespace Element

mutual

/-- The text of an element, in which only the empty elements that are in short form have one tag. -/
def spelled (short : Element → Bool) (inherited : Option String) : Element → List Char
  | ⟨name, space, attributes, children, text⟩ =>
    let opening := '<' :: name.toList ++ defaultNamespaceChars space inherited ++
      attributes.flatMap fun a => attributeChars a.name a.value
    if children.isEmpty && text.isEmpty && short ⟨name, space, attributes, children, text⟩ then
      opening ++ ['/', '>']
    else opening ++ '>' :: textChars text ++ spelledAll short space children ++
      '<' :: '/' :: name.toList ++ ['>']

/-- The texts of some siblings in such forms. -/
def spelledAll (short : Element → Bool) (inherited : Option String) : List Element → List Char
  | [] => []
  | e :: es => e.spelled short inherited ++ spelledAll short inherited es

end

mutual

/-- An element is rendered with all empty elements in short form. -/
theorem spelled_short (inherited : Option String) :
    ∀ e : Element, e.spelled (fun _ => true) inherited = e.chars inherited
  | ⟨name, space, attributes, children, text⟩ => by
    rw [spelled, chars, spelledAll_short space children, Bool.and_true]

theorem spelledAll_short (inherited : Option String) :
    ∀ es : List Element, spelledAll (fun _ => true) inherited es = charsOfAll inherited es
  | [] => rfl
  | e :: es => by
    rw [spelledAll, charsOfAll, spelled_short inherited e, spelledAll_short inherited es]

end

variable {above : List Attribute} {e : Element} {declared : Scope} {plain : List (QName × String)}
  {inherited : Option String} {short : Element → Bool}

theorem spelledAll_append (es es' : List Element) : spelledAll short inherited (es ++ es') =
    spelledAll short inherited es ++ spelledAll short inherited es' := by
  induction es with
  | nil => rfl
  | cons e es ih => rw [List.cons_append, spelledAll, spelledAll, ih, List.append_assoc]

theorem spelledAll_map {α : Type} {tree : α → Element} {chars : α → List Char}
    (h : ∀ x, (tree x).spelled short inherited = chars x) (xs : List α) :
    spelledAll short inherited (xs.map tree) = xs.flatMap chars := by
  induction xs with
  | nil => rfl
  | cons x xs ih => rw [List.map_cons, spelledAll, h, ih, List.flatMap_cons]

/-- What stands behind the attributes in the text of an element. -/
def remainder (short : Element → Bool) (e : Element) : List Char :=
  if e.children.isEmpty && e.text.isEmpty && short e then ['/', '>']
  else '>' :: (textChars e.text ++ (spelledAll short e.space e.children ++
    '<' :: '/' :: (e.name.toList ++ ['>'])))

theorem defaultNamespaceChars_eq : defaultNamespaceChars e.space inherited =
    (e.ownDefault inherited).flatMap fun a => attributeChars a.1.text a.2 := by
  unfold defaultNamespaceChars ownDefault
  cases hspace : e.space with
  | none =>
    cases inherited with
    | none => rfl
    | some uri => simp [QName.text]
  | some uri =>
    by_cases hsame : inherited = some uri
    · simp [hsame]
    · simp [hsame, Ne.symm hsame, QName.text]

/-- The text of an element begins with its tag. -/
theorem Sound.spelled_eq (h : e.Sound above declared plain) : e.spelled short inherited =
    '<' :: (e.name.toList ++ ((e.tagAttributes inherited declared plain).flatMap
      (fun a => attributeChars a.1.text a.2) ++ e.remainder short)) := by
  have hkept : ∀ as : List (QName × String), as.flatMap (fun a => attributeChars a.1.text a.2) =
      (kept as).flatMap fun a => attributeChars a.name a.value := by
    intro as
    rw [kept, List.flatMap_map]
  have hattributes : (e.tagAttributes inherited declared plain).flatMap
        (fun a => attributeChars a.1.text a.2) = defaultNamespaceChars e.space inherited ++
      e.attributes.flatMap fun a => attributeChars a.name a.value := by
    rw [defaultNamespaceChars_eq, hkept, hkept, h.kept_tagAttributes, List.flatMap_append]
  rw [hattributes]
  obtain ⟨name, space, attributes, children, text⟩ := e
  rw [spelled, remainder]
  split <;> simp

end Element

namespace Reading

open Element

variable {rest : List Char} {stack : List Frame} {f : Frame} {root : Option Element} {pending : Run}
  {short : Element → Bool}

/-- The scope that the innermost of some open elements is read in. -/
def scopeAround (stack : List Frame) : Scope :=
  (stack.head?.map (·.scope)).getD Scope.outermost

/-- Behind its opening bracket the text of an element is read as that element. -/
def ReadsBack (short : Element → Bool) (stack : List Frame) (inherited : Option String)
    (e : Element) : Prop :=
  ∀ root rest, Passes (standing stack root (.tag (.startName {})))
    (e.spelled short inherited).tail rest
    ((standing stack root .content).attach e.blankless)

/-- The children of an element are read one after the other, up to its end tag. -/
theorem passes_children {es : List Element} {inherited : Option String} {q : QName}
    (hq : q.Written) (hpfx : q.pfx = none) (hname : f.name = q)
    (hes : ∀ e ∈ es, ∀ children text,
      ReadsBack short ({ f with children, text } :: stack) inherited e)
    (hstart : ∀ e ∈ es, ∃ c cs, e.spelled short inherited = '<' :: c :: cs ∧ isNameStart c = true) :
    Passes (standing (f :: stack) root .content pending)
      (spelledAll short inherited es ++ '<' :: '/' :: (q.text.toList ++ ['>'])) rest
      ((standing stack root .content).attach { (heard f pending).close with
        children := f.children.reverse ++ es.map blankless }) := by
  induction es generalizing f pending with
  | nil =>
    have hclosed : { (heard f pending).close with children := f.children.reverse ++ [] } =
        (heard f pending).close := by
      rw [List.append_nil]
      rfl
    rw [spelledAll, List.nil_append, List.map_nil, hclosed]
    exact passes_finish hq hpfx hname
  | cons e es ih =>
    obtain ⟨c, cs, hspelled, hc⟩ := hstart e (by simp)
    have hfirst := hes e (by simp) f.children (f.text ++ pending.text) root
      (spelledAll short inherited es ++ '<' :: '/' :: (q.text.toList ++ ['>']) ++ rest)
    rw [hspelled, List.tail_cons] at hfirst
    -- The other children are read in the frame that holds the text before the first, and the first.
    have hothers := @ih { heard f pending with children := e.blankless :: f.children } {} hname
      (fun e he => hes e (by simp [he])) (fun e he => hstart e (by simp [he]))
    rw [heard_empty, List.reverse_cons, List.append_assoc, List.singleton_append] at hothers
    rw [spelledAll, hspelled, List.append_assoc, List.cons_append]
    have hall := Passes.append hfirst hothers
    exact Passes.cons (passes_tagStart rfl rfl hc) hall

/-- The text of an element that can be read starts with its name. -/
theorem exists_spelled {e : Element} {above : List Attribute} (h : e.Renders above)
    (inherited : Option String) :
    ∃ c cs, e.spelled short inherited = '<' :: c :: cs ∧ isNameStart c = true := by
  obtain ⟨⟨declared, plain, hsound⟩, hl⟩ := h
  obtain ⟨⟨c, cs, htext, hc⟩, -⟩ :=
    QName.ofChars?_eq_some_iff.mp (hsound.written_name hl).spelled
  have hname : e.name.toList = c :: cs := htext
  rw [hsound.spelled_eq, hname, List.cons_append]
  exact ⟨c, _, rfl, hc⟩

/-- Behind text stands a tag. -/
theorem calm_children {es : List Element} {above : List Attribute} {inherited : Option String}
    (hes : ∀ e ∈ es, e.Renders above) :
    Calm (spelledAll short inherited es ++ '<' :: rest) := by
  cases es with
  | nil => exact calm_of_ne (by decide) (by decide)
  | cons e es =>
    obtain ⟨c, cs, hspelled, -⟩ := exists_spelled (hes e (by simp)) inherited
    rw [spelledAll, hspelled]
    exact calm_of_ne (by decide) (by decide)

/-- An element that is sound and legible, with all in it, is read back. -/
theorem readsBack (e : Element) {above : List Attribute} {inherited : Option String}
    (he : e.Everywhere Renders above) (hscope : (scopeAround stack).Surrounds above inherited) :
    ReadsBack short stack inherited e := by
  induction e using Element.induction generalizing above inherited stack with
  | h e ih =>
    obtain ⟨⟨⟨declared, plain, hsound⟩, hl⟩, hbelow⟩ := everywhere_iff.mp he
    obtain ⟨scope, htag, hsurrounds⟩ := hsound.ofTag_startTag hl hscope
    have hname := hsound.written_name hl
    obtain ⟨part, hpart, hattributes⟩ :=
      passes_attributes (behind_startName hname rfl) (hsound.takesAll hl inherited)
    intro root rest
    have hopened : Frame.ofTag
        { name := { base := e.name }, attributes := ((e.tagAttributes inherited declared plain).reverse
          ++ []).reverse } (stack.head?.map (·.scope)) = .ok (e.opened scope) := by
      rw [List.append_nil, List.reverse_reverse]
      exact htag
    rw [hsound.spelled_eq, List.tail_cons]
    refine Passes.append (passes_name takesName_startName (fun c hc => hname.fits.chars c hc)
      (Spelling.continues_text hname)) (Passes.append (hattributes _ _ _ _) ?_)
    unfold remainder
    split
    · next hempty =>
      simp only [Bool.and_eq_true, List.isEmpty_iff, String.isEmpty_iff] at hempty
      have hclosed : e.blankless = (e.opened scope).close := by
        rw [blankless_eq]
        simp [hempty.1.1, hempty.1.2, blanklessText, opened, Frame.close]
      rw [hclosed]
      exact passes_emptyTagEnd hpart hopened
    · have hclosed : e.blankless = { (heard (e.opened scope) (({} : Run).append e.text.toList)).close
          with children := (e.opened scope).children.reverse ++ e.children.map blankless } := by
        rw [blankless_eq, ← Run.text_append]
        simp [heard, opened, Frame.close]
      have hcalm : Calm (spelledAll short e.space e.children ++
          '<' :: '/' :: (e.name.toList ++ ['>']) ++ rest) := by
        rw [List.append_assoc]
        exact calm_children fun c hc => (everywhere_iff.mp (hbelow c hc)).1
      rw [hclosed]
      have hinner : ∀ c ∈ e.children, ∀ children text,
          ReadsBack short ({ e.opened scope with children, text } :: stack) e.space c :=
        fun c hc children text => ih c hc (hbelow c hc) hsurrounds
      have hstart : ∀ c ∈ e.children, ∃ d cs,
          c.spelled short e.space = '<' :: d :: cs ∧ isNameStart d = true :=
        fun c hc => exists_spelled (everywhere_iff.mp (hbelow c hc)).1 e.space
      refine Passes.cons (passes_tagEnd hpart hopened)
        (Passes.append (passes_textChars hl.text hcalm) ?_)
      have hchildren := @passes_children rest stack (e.opened scope) root
        (({} : Run).append e.text.toList) short _ _ _ hname rfl rfl hinner hstart
      exact hchildren

end Reading

/-! Documents. -/

namespace Document

/-- A text that starts with a tag has no declaration. -/
theorem parse_ofString {c : Char} {cs : List Char} (hc : isNameStart c = true) :
    parse (Bytes.ofString (String.ofList ('<' :: c :: cs))) =
      (Reading.run {} { chars := '<' :: c :: cs }).bind Reading.finish := by
  have hbytes : Bytes.ofString (String.ofList ('<' :: c :: cs)) =
      0x3C :: (String.utf8EncodeChar c ++ cs.flatMap String.utf8EncodeChar) := by
    rw [Bytes.ofString_ofList]
    rfl
  refine parse_eq_run ?_ ?_ ?_
  · rw [hbytes]
    rfl
  · rw [hbytes]
    unfold startsWithDeclaration
    split
    · next b more heq =>
      exfalso
      cases hencoded : String.utf8EncodeChar c with
      | nil => exact String.utf8EncodeChar_ne_nil hencoded
      | cons d ds =>
        rw [hencoded] at heq
        obtain rfl : d = 0x3F := (List.cons.inj (List.cons.inj heq).2).1
        have hquestion : c = '?' := by
          rw [← Char.ofNat_toNat c, Bytes.toNat_of_utf8EncodeChar hencoded (by decide)]
          rfl
        rw [hquestion] at hc
        exact absurd hc (by decide)
    · rfl
  · rw [decode?_ofString, String.toList_ofList]

/-- The text of a tree is read as that tree, without text of white space alone. -/
theorem parse_spelled (short : Element → Bool) {e : Element} (h : e.Everywhere Element.Renders []) :
    parse (Bytes.ofString (String.ofList (e.spelled short none))) = .ok e.blankless := by
  obtain ⟨c, cs, hchars, hc⟩ : ∃ c cs,
      e.spelled short none = '<' :: c :: cs ∧ isNameStart c = true :=
    Reading.exists_spelled (Element.everywhere_iff.mp h).1 none
  have hread : Reading.ReadsBack short [] none e :=
    Reading.readsBack e h Scope.Surrounds.outermost
  have hrun : Reading.run {} { chars := '<' :: c :: cs } =
      Reading.run (Reading.standing [] (some e.blankless) .content) { chars := [] } := by
    have hinner := hread none []
    rw [hchars, List.tail_cons] at hinner
    have hall := Reading.Passes.cons (Reading.passes_tagStart (r := {}) rfl rfl hc) hinner
    rwa [Reading.Passes, List.append_nil] at hall
  have hend : Reading.run (Reading.standing [] (some e.blankless) .content) { chars := [] } =
      .ok (Reading.standing [] (some e.blankless) .content) :=
    Reading.run_of_runWithin (n := 1) rfl
  rw [hchars, parse_ofString hc, hrun, hend]
  rfl

theorem parse_render {e : Element} (h : e.Everywhere Element.Renders []) :
    parse (Bytes.ofString e.render) = .ok e.blankless := by
  rw [Element.render, Element.renderWithin_eq, ← Element.spelled_short]
  exact parse_spelled _ h

end Document
end Netconf.Xml
