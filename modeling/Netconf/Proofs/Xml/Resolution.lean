import Netconf.Proofs.Xml.Elaboration

/-! Prefixes, resolved by the nearest declaration around: in the markup of a document, where every
declaration stands as it is written; in its tree, where those are left that change something; and in
an element that has been taken out of the tree with the declarations around it. -/
namespace Netconf.Xml

/-! Lines from the root of a tree to a place in it. -/

/-- The elements on the way to a place, from the outermost on. -/
def Element.line (e : Element) : List Nat → Option (List Element)
  | [] => some [e]
  | i :: path => (e.children[i]?.bind fun c => c.line path).map (e :: ·)

/-- The pieces of markup on the way to a place, from the outermost on. -/
def Markup.line (k : Markup) : List Nat → Option (List Markup)
  | [] => some [k]
  | i :: path => (k.children[i]?.bind fun c => c.line path).map (k :: ·)

/-- What an element declares a prefix as. -/
def Element.declares? (pfx : String) (e : Element) : Option String := e.attribute? ("xmlns:" ++ pfx)

theorem Element.declares?_eq (e : Element) (pfx : String) :
    e.declares? pfx = binding? e.attributes pfx := rfl

/-- What a tag declares a prefix as. -/
def Markup.declares? (pfx : String) (k : Markup) : Option String :=
  (k.tag.attributes.find? (·.1 == ⟨some "xmlns", pfx⟩)).map (·.2)

/-- What the last of some things says. -/
def nearest? {α : Type} (says? : α → Option String) (line : List α) : Option String :=
  line.reverse.findSome? says?

/-- What a prefix means that is declared in some way, or not at all: `xml` needs no declaration. -/
def meaning? (pfx : String) (declared : Option String) : Option String :=
  declared.or (if pfx = "xml" then some Scope.xmlUri else none)

@[simp] theorem nearest?_nil {α : Type} (says? : α → Option String) : nearest? says? [] = none := rfl

@[simp] theorem nearest?_cons {α : Type} (says? : α → Option String) (a : α) (line : List α) :
    nearest? says? (a :: line) = (nearest? says? line).or (says? a) := by
  rw [nearest?, List.reverse_cons, List.findSome?_append]
  simp [nearest?]

theorem nearest?_eq_none {α : Type} {says? : α → Option String} {line : List α}
    (h : ∀ a ∈ line, says? a = none) : nearest? says? line = none := by
  rw [nearest?, List.findSome?_eq_none_iff]
  intro a ha
  exact h a (List.mem_reverse.mp ha)

theorem exists_of_nearest? {α : Type} {says? : α → Option String} {line : List α} {uri : String}
    (h : nearest? says? line = some uri) : ∃ a ∈ line, says? a = some uri := by
  obtain ⟨a, ha, hsays⟩ := List.exists_of_findSome?_eq_some h
  exact ⟨a, List.mem_reverse.mp ha, hsays⟩

theorem Markup.declares?_eq (k : Markup) {pfx : String} (hpfx : pfx ≠ "") :
    k.declares? pfx = Scope.find? (bindings k.tag.attributes) pfx := by
  unfold Markup.declares?
  induction k.tag.attributes with
  | nil => rfl
  | cons a as ih =>
    by_cases ha : a.1 = ⟨some "xmlns", pfx⟩
    · have hbinds := (QName.binds?_eq_some_iff hpfx).mpr ha
      have hcons : bindings (a :: as) = (pfx, a.2) :: bindings as := by
        simp [bindings, hbinds]
      rw [List.find?_cons_of_pos (by simpa using ha), hcons, Scope.find?_cons, if_pos rfl,
        Option.map_some]
    · have hbinds : a.1.binds? ≠ some pfx := mt (QName.binds?_eq_some_iff hpfx).mp ha
      rw [List.find?_cons_of_neg (by simpa using ha), ih]
      cases hown : a.1.binds? with
      | none => simp [bindings, hown]
      | some p =>
        have hne : p ≠ pfx := fun h => hbinds (by rw [hown, h])
        simp [bindings, hown, Scope.find?_cons, hne]

/-! From the markup to the tree. -/

namespace Markup

/-- An element has the name that a tag has without its prefix. No element declares a prefix that is
not ordinary; a tag may declare `xml`, as what it means. -/
structure IsOf (k : Markup) (e : Element) : Prop where
  name : e.name = k.tag.name.base
  element : ∀ p, ¬ IsOrdinary p → e.declares? p = none
  tag : ∀ p uri, ¬ IsOrdinary p → k.declares? p = some uri → p = "xml" ∧ uri = Scope.xmlUri

variable {k : Markup} {e : Element} {outer : Option Scope} {above : List Attribute}

theorem Elaborates.isOf (h : k.Elaborates outer e)
    (houter : (outer.getD Scope.outermost).Agrees above) : IsOf k e := by
  obtain ⟨htag, f, hf, he, -⟩ := elaborates_iff.mp h
  obtain ⟨hsound, -⟩ := Frame.sound_of_ofTag htag houter hf
  obtain ⟨hcheck, -, -, space, -, hframe⟩ := Frame.ofTag_eq_ok_iff.mp hf
  refine ⟨?_, fun p hp => ?_, fun p uri hp hdeclares => ?_⟩
  · rw [he, hframe]
    rfl
  · have hattributes : e.attributes = f.close.attributes := by
      rw [he]
    rw [Element.declares?_eq, hattributes, hsound.attributes, binding?_append,
      binding?_map_declaration, binding?_kept hsound.others, Option.or_none,
      Option.eq_none_iff_forall_ne_some]
    intro uri huri
    exact hp (hsound.declares _ (Scope.mem_of_find? huri)).2.1
  · have hne : p ≠ "" := by
      rintro rfl
      obtain ⟨a, ha, -⟩ := Option.map_eq_some_iff.mp hdeclares
      have hname : a.1 = ⟨some "xmlns", ""⟩ := by simpa using List.find?_some ha
      have hwritten := htag.attributes a (List.mem_of_find?_eq_some ha)
      rw [hname] at hwritten
      exact hwritten.base.1 rfl
    rw [k.declares?_eq hne] at hdeclares
    have hchecked := hcheck _ (Scope.mem_of_find? hdeclares)
    by_cases hxml : p = "xml"
    · subst hxml
      exact ⟨rfl, checkBinding_xml.mp hchecked⟩
    · have hxmlns : p = "xmlns" := by
        by_contra hxmlns
        exact hp ⟨hne, hxml, hxmlns⟩
      subst hxmlns
      simp [checkBinding] at hchecked

/-- The scope within a tag agrees with the attributes of the element, before those above. -/
theorem Elaborates.agrees (h : k.Elaborates outer e)
    (houter : (outer.getD Scope.outermost).Agrees above) :
    ∃ f : Frame, f.scope.Agrees (e.attributes ++ above) ∧
      List.Forall₂ (Markup.Elaborates (some f.scope)) k.children e.children ∧
      ∀ p, p ≠ "" → f.scope.find? p =
        (k.declares? p).or ((outer.getD Scope.outermost).find? p) := by
  obtain ⟨htag, f, hf, he, hchildren⟩ := elaborates_iff.mp h
  obtain ⟨-, hagrees⟩ := Frame.sound_of_ofTag htag houter hf
  obtain ⟨-, -, -, space, -, hframe⟩ := Frame.ofTag_eq_ok_iff.mp hf
  have hattributes : e.attributes = f.attributes := by
    rw [he]
    rfl
  refine ⟨f, by rwa [hattributes], hchildren, fun p hp => ?_⟩
  rw [hframe, Frame.scopeWithin, Scope.find?_append, k.declares?_eq hp]

/-- The way to a place in the tree is one in the markup, along which all that the tree declares, before
the attributes above it, binds an ordinary prefix as all that is written does. -/
theorem Elaborates.line (h : k.Elaborates outer e)
    (houter : (outer.getD Scope.outermost).Agrees above)
    {path : List Nat} {es : List Element} (hes : e.line path = some es) :
    ∃ ks, k.line path = some ks ∧ List.Forall₂ IsOf ks es ∧ ∀ p, IsOrdinary p →
      (nearest? (Element.declares? p) es).or (binding? above p) =
        (nearest? (Markup.declares? p) ks).or ((outer.getD Scope.outermost).find? p) := by
  induction path generalizing k e outer above es with
  | nil =>
    obtain rfl := Option.some.inj hes
    refine ⟨[k], rfl, .cons (h.isOf houter) .nil, fun p hp => ?_⟩
    obtain ⟨f, hagrees, -, hscope⟩ := h.agrees houter
    have hhere := hagrees.prefixes p hp
    rw [hscope p hp.1, binding?_append] at hhere
    simpa [Element.declares?_eq] using hhere.symm
  | cons i path ih =>
    obtain ⟨f, hagrees, hchildren, hscope⟩ := h.agrees houter
    obtain ⟨es', hes', rfl⟩ := Option.map_eq_some_iff.mp hes
    obtain ⟨c, hc, hline⟩ := Option.bind_eq_some_iff.mp hes'
    obtain ⟨k', hk', helaborates⟩ := exists_child hchildren hc
    obtain ⟨ks, hks, hall, hagree⟩ := ih helaborates hagrees hline
    refine ⟨k :: ks, by simp [Markup.line, hk', hks], .cons (h.isOf houter) hall, fun p hp => ?_⟩
    -- What the line below finds above it, it finds in this element, or else above this one.
    have hinner := hagree p hp
    rw [Option.getD_some, hscope p hp.1, binding?_append] at hinner
    rw [nearest?_cons, nearest?_cons, Option.or_assoc, Option.or_assoc, Element.declares?_eq]
    exact hinner

end Markup

/-! Elements with the declarations around them. -/

/-- Another attribute, where there is none of its name. -/
def adopt (known : List Attribute) (a : Attribute) : List Attribute :=
  if known.any (·.name == a.name) then known else known ++ [a]

theorem binding?_adopt (known : List Attribute) (a : Attribute) (pfx : String) :
    binding? (adopt known a) pfx = (binding? known pfx).or (binding? [a] pfx) := by
  unfold adopt
  split
  · next hknown =>
    obtain ⟨b, hb, hname⟩ := List.any_eq_true.mp hknown
    by_cases ha : a.name = "xmlns:" ++ pfx
    · have hfound : (binding? known pfx).isSome := by
        rw [binding?, Option.isSome_map, List.find?_isSome]
        exact ⟨b, hb, by simpa [ha] using hname⟩
      rw [Option.or_of_isSome hfound]
    · simp [binding?, ha]
  · rw [binding?_append]

theorem binding?_foldl_adopt (known added : List Attribute) (pfx : String) :
    binding? (added.foldl adopt known) pfx = (binding? known pfx).or (binding? added pfx) := by
  induction added generalizing known with
  | nil => simp
  | cons a added ih =>
    rw [List.foldl_cons, ih, binding?_adopt, Option.or_assoc, ← binding?_append]
    rfl

theorem exists_foldl_adopt (known more : List Attribute) : ∃ added,
    more.foldl adopt known = known ++ added ∧
      ∀ a ∈ added, a ∈ more ∧ known.any (·.name == a.name) = false := by
  induction more generalizing known with
  | nil => exact ⟨[], by simp, by simp⟩
  | cons a more ih =>
    obtain ⟨added, hadded, hfresh⟩ := ih (adopt known a)
    rw [List.foldl_cons, hadded]
    unfold adopt at hfresh ⊢
    split at hfresh
    · next hknown =>
      rw [if_pos hknown]
      exact ⟨added, rfl, fun b hb => ⟨List.mem_cons_of_mem _ (hfresh b hb).1, (hfresh b hb).2⟩⟩
    · next hknown =>
      rw [if_neg hknown, List.append_assoc]
      refine ⟨a :: added, rfl, fun b hb => ?_⟩
      obtain rfl | hb := List.mem_cons.mp hb
      · exact ⟨List.mem_cons_self, by simpa using hknown⟩
      · obtain ⟨hmem, hnew⟩ := hfresh b hb
        rw [List.any_append, Bool.or_eq_false_iff] at hnew
        exact ⟨List.mem_cons_of_mem _ hmem, hnew.1⟩

/-- Only declarations bind a prefix. -/
theorem binding?_declarations (as : List Attribute) (pfx : String) :
    binding? (as.filter (·.isDeclaration)) pfx = binding? as pfx := by
  rw [binding?, List.find?_filter]
  refine congrArg (Option.map _) (congrFun (congrArg _ (funext fun a => ?_)) as)
  cases hname : a.name == "xmlns:" ++ pfx with
  | false => simp
  | true => simp [isDeclaration_of_name (eq_of_beq hname)]

namespace Element

@[simp] theorem inherit_children (e : Element) (around : List Attribute) :
    (e.inherit around).children = e.children := rfl

/-- With the declarations around it an element declares what it does, and else what they do. -/
theorem declares?_inherit (e around : Element) (pfx : String) :
    (e.inherit around.attributes).declares? pfx = (e.declares? pfx).or (around.declares? pfx) := by
  have hall := binding?_foldl_adopt e.attributes (around.attributes.filter (·.isDeclaration)) pfx
  rw [binding?_declarations] at hall
  exact hall

/-- An element has been taken out of another with the declarations around it: they are added where
the element makes none of that prefix, and nothing else is changed. -/
def Inherits (own : Element) (around : List Attribute) (e : Element) : Prop :=
  ∃ added, e = { own with attributes := own.attributes ++ added } ∧
    ∀ a ∈ added, a ∈ around ∧ a.isDeclaration = true ∧ own.attribute? a.name = none

theorem inherits_inherit (own : Element) (around : List Attribute) :
    own.Inherits around (own.inherit around) := by
  obtain ⟨added, hadded, hfresh⟩ :=
    exists_foldl_adopt own.attributes (around.filter (·.isDeclaration))
  refine ⟨added, ?_, fun a ha => ?_⟩
  · rw [← hadded]
    rfl
  · obtain ⟨hmem, hnew⟩ := hfresh a ha
    obtain ⟨haround, hdeclares⟩ := List.mem_filter.mp hmem
    refine ⟨haround, hdeclares, ?_⟩
    rw [attribute?, Option.map_eq_none_iff, List.find?_eq_none]
    simpa using hnew

/-- An element that stands alone means by every prefix, at each place in it, what is meant there in
some markup, where the element has its own place. -/
def StandsFor (e : Element) (k : Markup) (place : List Nat) : Prop :=
  ∀ path es, e.line path = some es → ∃ ks, k.line (place ++ path) = some ks ∧
    es.map (·.name) <:+ ks.map (·.tag.name.base) ∧
    ∀ p, meaning? p (nearest? (declares? p) es) = meaning? p (nearest? (Markup.declares? p) ks)

/-- The root of a document means what is written. -/
theorem standsFor_of_elaborates {k : Markup} {e : Element} (h : k.Elaborates none e) :
    e.StandsFor k [] := by
  intro path es hes
  obtain ⟨ks, hks, hall, hagree⟩ := h.line Scope.Agrees.outermost hes
  have hnames : es.map (·.name) = ks.map (·.tag.name.base) := by
    rw [← List.forall₂_eq_eq_eq, List.forall₂_map_left_iff, List.forall₂_map_right_iff]
    exact hall.flip.imp fun _ _ hof => hof.name
  refine ⟨ks, hks, hnames ▸ List.suffix_rfl, fun p => ?_⟩
  by_cases hp : IsOrdinary p
  · have hsame := hagree p hp
    rw [binding?_nil, Option.getD_none, Scope.outermost_find? hp, Option.or_none,
      Option.or_none] at hsame
    rw [hsame]
  · -- The tree declares no such prefix, and a tag only `xml`, as what it means anyway.
    obtain ⟨hnone, -⟩ := (List.forall₂_and_left es ks).mp
      (hall.flip.imp fun _ _ hof => ⟨hof.element, hof⟩)
    obtain ⟨hreserved, -⟩ := (List.forall₂_and_left ks es).mp
      (hall.imp fun _ _ hof => ⟨hof.tag, hof⟩)
    have htree : nearest? (declares? p) es = none := nearest?_eq_none fun a ha => hnone a ha p hp
    rw [htree]
    cases hwritten : nearest? (Markup.declares? p) ks with
    | none => rfl
    | some uri =>
      obtain ⟨a, ha, hsays⟩ := exists_of_nearest? hwritten
      obtain ⟨rfl, rfl⟩ := hreserved a ha p uri hp hsays
      rfl

/-- A line in an element that has been taken out is one in the element around it, where the
declarations are those of both. -/
theorem line_inherit {e c : Element} {i : Nat} (hc : e.children[i]? = some c) {path : List Nat}
    {es : List Element} (hes : (c.inherit e.attributes).line path = some es) :
    ∃ es', e.line (i :: path) = some es' ∧ es.map (·.name) <:+ es'.map (·.name) ∧
      ∀ p, nearest? (declares? p) es = nearest? (declares? p) es' := by
  cases path with
  | nil =>
    obtain rfl := Option.some.inj hes
    refine ⟨[e, c], by simp [line, hc], ⟨[e.name], rfl⟩, fun p => ?_⟩
    simp [declares?_inherit]
  | cons j path =>
    obtain ⟨below, hbelow, rfl⟩ := Option.map_eq_some_iff.mp hes
    have hinner : c.line (j :: path) = some (c :: below) := by
      rw [line, ← inherit_children c e.attributes, hbelow, Option.map_some]
    have hline : e.line (i :: j :: path) = some (e :: c :: below) := by
      rw [line, hc, Option.bind_some, hinner, Option.map_some]
    refine ⟨_, hline, ⟨[e.name], rfl⟩, fun p => ?_⟩
    simp [declares?_inherit, Option.or_assoc]

/-- A child that is taken out with the declarations around it means what it meant at its place. -/
theorem StandsFor.inherit {e c : Element} {k : Markup} {place : List Nat} (h : e.StandsFor k place)
    {i : Nat} (hc : e.children[i]? = some c) :
    (c.inherit e.attributes).StandsFor k (place ++ [i]) := by
  intro path es hes
  obtain ⟨es', hes', hsuffix, hsame⟩ := line_inherit hc hes
  obtain ⟨ks, hks, hnames, hmeans⟩ := h _ _ hes'
  refine ⟨ks, by simpa using hks, hsuffix.trans hnames, fun p => ?_⟩
  rw [hsame]
  exact hmeans p

end Element
end Netconf.Xml
