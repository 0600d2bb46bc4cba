import Mathlib.Data.List.Basic
import Netconf.Proofs.Xml.Name
import Netconf.Xml.Reading

/-! What a prefix stands for. A tree keeps the declarations of prefixes only where they change
something; nevertheless the nearest one among an element and the elements around it binds a prefix
to what it was bound to when the tags of these elements were read. -/
namespace Netconf.Xml

/-- A prefix that means nothing without a declaration. -/
def IsOrdinary (pfx : String) : Prop := pfx ≠ "" ∧ pfx ≠ "xml" ∧ pfx ≠ "xmlns"

instance (pfx : String) : Decidable (IsOrdinary pfx) := inferInstanceAs (Decidable (_ ∧ _))

/-- The attribute that declares a prefix. -/
def declaration (b : String × String) : Attribute := ⟨"xmlns:" ++ b.1, b.2⟩

/-- The namespace that a prefix is bound to by the first declaration of it among some attributes. -/
def binding? (attributes : List Attribute) (pfx : String) : Option String :=
  (attributes.find? (·.name == "xmlns:" ++ pfx)).map (·.value)

@[simp] theorem binding?_nil (pfx : String) : binding? [] pfx = none := rfl

@[simp] theorem binding?_append (as bs : List Attribute) (pfx : String) :
    binding? (as ++ bs) pfx = (binding? as pfx).or (binding? bs pfx) := by
  simp only [binding?, List.find?_append]
  cases as.find? (·.name == "xmlns:" ++ pfx) <;> rfl

namespace Scope

@[simp] theorem find?_nil (pfx : String) : find? [] pfx = none := rfl

theorem find?_cons (b : String × String) (s : Scope) (pfx : String) :
    find? (b :: s) pfx = if b.1 = pfx then some b.2 else s.find? pfx := by
  by_cases h : b.1 = pfx
  · simp [find?, h]
  · simp [find?, h]

@[simp] theorem find?_append (s t : Scope) (pfx : String) :
    find? (s ++ t) pfx = (s.find? pfx).or (t.find? pfx) := by
  simp only [find?, List.find?_append]
  cases List.find? (·.1 == pfx) s <;> rfl

theorem mem_of_find? {s : Scope} {pfx uri : String} (h : s.find? pfx = some uri) :
    (pfx, uri) ∈ s := by
  obtain ⟨b, hb, rfl⟩ := Option.map_eq_some_iff.mp h
  have hkey : b.1 = pfx := by simpa using List.find?_some hb
  subst hkey
  exact List.mem_of_find?_eq_some hb

theorem outermost_find? {pfx : String} (h : IsOrdinary pfx) : outermost.find? pfx = none := by
  obtain ⟨hempty, hxml, hxmlns⟩ := h
  simp [outermost, find?_cons, Ne.symm hempty, Ne.symm hxml, Ne.symm hxmlns]

/-- A filter on the prefixes takes away the bindings of others only. -/
theorem find?_filter_key (keep : String → Bool) (s : Scope) {pfx : String}
    (h : keep pfx = true) : find? (s.filter fun b => keep b.1) pfx = find? s pfx := by
  induction s with
  | nil => rfl
  | cons b s ih =>
    by_cases hb : b.1 = pfx
    · have hkeep : keep b.1 = true := by rw [hb, h]
      rw [List.filter_cons, if_pos hkeep, find?_cons, find?_cons, if_pos hb, if_pos hb]
    · rw [find?_cons, if_neg hb, List.filter_cons]
      split
      · rw [find?_cons, if_neg hb, ih]
      · exact ih

/-! Bindings in the order of their prefixes. -/

/-- Each prefix is bound once, and the prefixes stand in their order. -/
def Sorted (s : Scope) : Prop := s.Pairwise (·.1 < ·.1)

theorem Sorted.find?_eq_some_iff {s : Scope} (h : s.Sorted) {pfx uri : String} :
    s.find? pfx = some uri ↔ (pfx, uri) ∈ s := by
  refine ⟨mem_of_find?, ?_⟩
  intro hmem
  induction s with
  | nil => cases hmem
  | cons b s ih =>
    obtain ⟨hb, hs⟩ := List.pairwise_cons.mp h
    rw [find?_cons]
    obtain rfl | hmem := List.mem_cons.mp hmem
    · rw [if_pos rfl]
    · rw [if_neg, ih hs hmem]
      rintro rfl
      have hlt := hb _ hmem
      exact String.lt_irrefl _ hlt

theorem mem_insertBinding {b c : String × String} {s : Scope} (h : c ∈ insertBinding b s) :
    c = b ∨ c ∈ s := by
  induction s with
  | nil => exact .inl (List.mem_singleton.mp h)
  | cons d s ih =>
    unfold insertBinding at h
    split at h
    · exact .inr h
    · split at h
      · exact List.mem_cons.mp h
      · obtain rfl | h := List.mem_cons.mp h
        · exact .inr (by simp)
        · exact (ih h).imp_right fun hc => by simp [hc]

theorem Sorted.insertBinding {s : Scope} (h : s.Sorted) (b : String × String) :
    Sorted (Xml.insertBinding b s) := by
  induction s with
  | nil => simp [Xml.insertBinding, Sorted]
  | cons d s ih =>
    obtain ⟨hd, hs⟩ := List.pairwise_cons.mp h
    unfold Xml.insertBinding
    split
    · exact h
    · next hne =>
      split
      · next hlt =>
        refine List.pairwise_cons.mpr ⟨?_, h⟩
        intro c hc
        obtain rfl | hc := List.mem_cons.mp hc
        · exact hlt
        · exact String.lt_trans hlt (hd c hc)
      · next hnot =>
        refine List.pairwise_cons.mpr ⟨?_, ih hs⟩
        intro c hc
        obtain rfl | hc := mem_insertBinding hc
        · exact Std.lt_of_le_of_ne (String.not_lt.mp hnot) (Ne.symm hne)
        · exact hd c hc

theorem Sorted.find?_insertBinding {s : Scope} (h : s.Sorted) (b : String × String)
    (pfx : String) :
    find? (Xml.insertBinding b s) pfx =
      (s.find? pfx).or (if b.1 = pfx then some b.2 else none) := by
  induction s with
  | nil => simp [Xml.insertBinding, find?_cons]
  | cons d s ih =>
    obtain ⟨hd, hs⟩ := List.pairwise_cons.mp h
    unfold Xml.insertBinding
    rw [find?_cons d s]
    split
    · next heq =>
      rw [find?_cons, heq]
      split <;> simp
    · next hne =>
      split
      · next hlt =>
        rw [find?_cons, find?_cons]
        by_cases hb : b.1 = pfx
        · -- The prefix comes before all others, so that it is not among them.
          have hnone : find? s pfx = none := by
            cases hfind : find? s pfx with
            | none => rfl
            | some uri =>
              have hmem := hd _ (mem_of_find? hfind)
              rw [← hb] at hmem
              exact absurd (String.lt_trans hlt hmem) (String.lt_irrefl _)
          have hdne : d.1 ≠ pfx := fun h => hne (hb.trans h.symm)
          simp [hb, hdne, hnone]
        · simp [hb]
      · rw [find?_cons, ih hs]
        split <;> simp

theorem foldl_insertBinding (own known : Scope) (h : known.Sorted) :
    Sorted (own.foldl (fun known b => insertBinding b known) known) ∧
      ∀ pfx, find? (own.foldl (fun known b => insertBinding b known) known) pfx =
        (known.find? pfx).or (own.find? pfx) := by
  induction own generalizing known with
  | nil => exact ⟨h, by simp⟩
  | cons b own ih =>
    obtain ⟨hsorted, hfind⟩ := ih _ (h.insertBinding b)
    refine ⟨hsorted, fun pfx => ?_⟩
    rw [List.foldl_cons, hfind, h.find?_insertBinding, find?_cons, Option.or_assoc]
    split <;> simp

/-- A binding behind all others is put there. -/
theorem insertBinding_concat {s : Scope} {b : String × String} (h : ∀ c ∈ s, c.1 < b.1) :
    insertBinding b s = s ++ [b] := by
  induction s with
  | nil => rfl
  | cons c s ih =>
    have hc := h c (by simp)
    have hne : b.1 ≠ c.1 := by
      intro heq
      rw [heq] at hc
      exact String.lt_irrefl _ hc
    rw [insertBinding, if_neg hne, if_neg (String.lt_asymm hc),
      ih fun d hd => h d (by simp [hd]), List.cons_append]

theorem foldl_insertBinding_sorted {own known : Scope} (h : Sorted (known ++ own)) :
    own.foldl (fun known b => insertBinding b known) known = known ++ own := by
  induction own generalizing known with
  | nil => simp
  | cons b own ih =>
    have hlast : ∀ c ∈ known, c.1 < b.1 :=
      fun c hc => (List.pairwise_append.mp h).2.2 c hc b (by simp)
    rw [List.foldl_cons, insertBinding_concat hlast, ih (by simpa using h)]
    simp

end Scope

/-! Attributes that bind something, and others. -/

/-- A name whose text starts like a declaration is that of one. -/
theorem QName.Written.of_text {q : QName} (h : q.Written) {rest : List Char}
    (htext : q.text.toList = "xmlns:".toList ++ rest) : q = ⟨some "xmlns", String.ofList rest⟩ := by
  have hspelled := h.spelled
  rw [htext] at hspelled
  have hcolon : "xmlns:".toList ++ rest = "xmlns".toList ++ ':' :: rest := rfl
  obtain ⟨-, ⟨hnone, -⟩ | ⟨p, b, hcs, hp, hb, -, rfl⟩⟩ := QName.ofChars?_eq_some_iff.mp hspelled
  · rw [hcolon] at hnone
    simp at hnone
  · rw [hcolon] at hcs
    obtain ⟨rfl, -, rfl⟩ := (List.append_cons_inj_of_notMem hp hb).mp hcs.symm
    simp

theorem QName.binds?_eq_some_iff {q : QName} {pfx : String} (hpfx : pfx ≠ "") :
    q.binds? = some pfx ↔ q = ⟨some "xmlns", pfx⟩ := by
  obtain ⟨p, base⟩ := q
  unfold binds?
  dsimp only
  split
  · simp
  · split
    · simp [Ne.symm hpfx]
    · simp
  · next hnot _ =>
    simp only [reduceCtorEq, QName.mk.injEq, false_iff, not_and]
    exact fun h => absurd h hnot

/-- An attribute that binds nothing declares nothing. -/
theorem isDeclaration_plain {q : QName} (h : q.Written) (hplain : q.binds? = none) (value : String) :
    Attribute.isDeclaration ⟨q.text, value⟩ = false := by
  rw [Bool.eq_false_iff]
  intro hdecl
  obtain ⟨rest, hrest⟩ := List.isPrefixOf_iff_prefix.mp hdecl
  rw [h.of_text hrest.symm] at hplain
  simp [QName.binds?] at hplain

/-- The attributes of a tag that bind nothing, as the element keeps them. -/
def kept (plain : List (QName × String)) : List Attribute := plain.map fun a => ⟨a.1.text, a.2⟩

theorem name_of_binding? {as : List Attribute} {pfx uri : String}
    (h : binding? as pfx = some uri) : ∃ a ∈ as, a.name = "xmlns:" ++ pfx ∧ a.value = uri := by
  obtain ⟨a, ha, hvalue⟩ := Option.map_eq_some_iff.mp h
  exact ⟨a, List.mem_of_find?_eq_some ha, by simpa using List.find?_some ha, hvalue⟩

theorem isDeclaration_of_name {a : Attribute} {pfx : String} (h : a.name = "xmlns:" ++ pfx) :
    a.isDeclaration = true := by
  rw [Attribute.isDeclaration, h, List.isPrefixOf_iff_prefix, String.toList_append]
  exact List.prefix_append _ _

theorem binding?_kept {plain : List (QName × String)}
    (h : ∀ a ∈ plain, a.1.Written ∧ a.1.binds? = none) (pfx : String) :
    binding? (kept plain) pfx = none := by
  rw [Option.eq_none_iff_forall_ne_some]
  intro uri huri
  obtain ⟨a, ha, hname, -⟩ := name_of_binding? huri
  obtain ⟨b, hb, rfl⟩ := List.mem_map.mp ha
  have hplain := isDeclaration_plain (h b hb).1 (h b hb).2 b.2
  rw [isDeclaration_of_name hname] at hplain
  cases hplain

theorem binding?_map_declaration (s : Scope) (pfx : String) :
    binding? (s.map declaration) pfx = s.find? pfx := by
  induction s with
  | nil => rfl
  | cons b s ih =>
    rw [Scope.find?_cons, List.map_cons, ← ih]
    by_cases hb : b.1 = pfx
    · simp [binding?, declaration, hb]
    · have hname : "xmlns:" ++ b.1 ≠ "xmlns:" ++ pfx := by
        intro h
        exact hb (String.toList_inj.mp (by simpa using congrArg String.toList h))
      simp [binding?, declaration, hb, hname]

/-! Declarations that change something. -/

/-- The bindings of ordinary prefixes, in their order. -/
def ordered (own : Scope) : Scope :=
  (own.filter fun b => b.1 ≠ "" && b.1 ≠ "xml" && b.1 ≠ "xmlns").foldl
    (fun known b => insertBinding b known) []

/-- Those of them that give a prefix another meaning than it has around. -/
def changed (own : Scope) (outer : Option Scope) : Scope :=
  (ordered own).filter fun b => outer.bind (·.find? b.1) ≠ some b.2

theorem declarations_eq (own : Scope) (outer : Option Scope) :
    declarations own outer = (changed own outer).map declaration := rfl

theorem ordered_sorted (own : Scope) : (ordered own).Sorted :=
  (Scope.foldl_insertBinding _ [] List.Pairwise.nil).1

theorem ordered_find? (own : Scope) {pfx : String} (h : IsOrdinary pfx) :
    (ordered own).find? pfx = own.find? pfx := by
  have hkeep := Scope.find?_filter_key (fun p => p ≠ "" && p ≠ "xml" && p ≠ "xmlns") own
    (by simpa [IsOrdinary, and_assoc] using h)
  rw [ordered, (Scope.foldl_insertBinding _ [] List.Pairwise.nil).2]
  simpa using hkeep

theorem mem_of_mem_ordered {own : Scope} {b : String × String} (h : b ∈ ordered own) :
    b ∈ own ∧ IsOrdinary b.1 := by
  have hfold : ∀ (s known : Scope),
      b ∈ s.foldl (fun known b => insertBinding b known) known → b ∈ known ∨ b ∈ s := by
    intro s
    induction s with
    | nil => exact fun known h => .inl h
    | cons c s ih =>
      intro known h
      obtain h | h := ih _ h
      · obtain rfl | h := Scope.mem_insertBinding h
        · exact .inr (by simp)
        · exact .inl h
      · exact .inr (by simp [h])
  obtain h | h := hfold _ _ h
  · cases h
  · simpa [IsOrdinary, and_assoc] using h

theorem changed_sorted (own : Scope) (outer : Option Scope) : (changed own outer).Sorted :=
  (ordered_sorted own).filter _

/-- Around the root nothing is bound but what is bound everywhere. -/
theorem bind_find? (outer : Option Scope) {pfx : String} (h : IsOrdinary pfx) :
    outer.bind (·.find? pfx) = (outer.getD Scope.outermost).find? pfx := by
  cases outer with
  | none => exact (Scope.outermost_find? h).symm
  | some s => rfl

/-- Together with what is bound around, the declarations that change something say as much as all. -/
theorem changed_find? (own : Scope) (outer : Option Scope) {pfx : String} (h : IsOrdinary pfx) :
    ((changed own outer).find? pfx).or ((outer.getD Scope.outermost).find? pfx) =
      (own.find? pfx).or ((outer.getD Scope.outermost).find? pfx) := by
  rw [← bind_find? outer h, ← ordered_find? own h]
  cases hown : (ordered own).find? pfx with
  | none =>
    have hnone : (changed own outer).find? pfx = none := by
      rw [Option.eq_none_iff_forall_ne_some]
      intro uri huri
      have hmem := (List.mem_filter.mp (Scope.mem_of_find? huri)).1
      rw [(ordered_sorted own).find?_eq_some_iff.mpr hmem] at hown
      cases hown
    rw [hnone]
  | some uri =>
    by_cases hsame : outer.bind (·.find? pfx) = some uri
    · -- The binding is left out, and the scope around says the same.
      have hchanged : (changed own outer).find? pfx = none := by
        rw [Option.eq_none_iff_forall_ne_some]
        intro other hother
        obtain ⟨hmem, hdiffers⟩ := List.mem_filter.mp (Scope.mem_of_find? hother)
        rw [(ordered_sorted own).find?_eq_some_iff.mpr hmem] at hown
        obtain rfl := Option.some.inj hown
        simp [hsame] at hdiffers
      simp [hchanged, hsame]
    · have hmem : (pfx, uri) ∈ changed own outer :=
        List.mem_filter.mpr ⟨Scope.mem_of_find? hown, by simpa using hsame⟩
      rw [(changed_sorted own outer).find?_eq_some_iff.mpr hmem]

end Netconf.Xml
