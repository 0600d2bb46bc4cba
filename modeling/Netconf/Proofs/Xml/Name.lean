import Mathlib.Data.List.Basic
import Mathlib.Data.List.Induction
import Mathlib.Data.List.TakeDrop
import Netconf.Xml.Tag

/-! Names as they are spelled. A reader that has gone through the characters of a name knows what
qualified name they spell; and a text that spells one, and is not too long, leads through it. -/
namespace Netconf.Xml

/-! Characters of names. What is said of all characters of a list is decided by going through the
list, and not through all characters. -/

instance (priority := 1100) decidableForallMemList (p : Char → Prop) [DecidablePred p]
    (cs : List Char) : Decidable (∀ c ∈ cs, p c) :=
  List.decidableBAll p cs

instance (priority := 1100) decidableForallMemOption (p : Char → Prop) [DecidablePred p]
    (c? : Option Char) : Decidable (∀ c ∈ c?, p c) :=
  Option.decidableForallMem c?

theorem isNameChar_of_isNameStart {c : Char} (h : isNameStart c = true) : isNameChar c = true := by
  simp [isNameChar, h]

theorem isNameStart_colon : isNameStart ':' = false := by decide

theorem ne_colon_of_isNameStart {c : Char} (h : isNameStart c = true) : c ≠ ':' := by
  rintro rfl
  rw [isNameStart_colon] at h
  cases h

/-- No mark and no white space is a character of a name. -/
theorem ne_of_isNameChar {c d : Char} (h : isNameChar c = true) (hd : isNameChar d = false) :
    c ≠ d := by
  rintro rfl
  rw [h] at hd
  cases hd

theorem isSpace_of_isNameChar {c : Char} (h : isNameChar c = true) : isSpace c = false := by
  have hspace := ne_of_isNameChar (d := ' ') h (by decide)
  have htab := ne_of_isNameChar (d := '\t') h (by decide)
  have hline := ne_of_isNameChar (d := '\n') h (by decide)
  have hreturn := ne_of_isNameChar (d := '\r') h (by decide)
  simp [isSpace, hspace, htab, hline, hreturn]

/-! Qualified names. -/

namespace QName

/-- Characters before the first colon, and those from there on. -/
theorem span_colon (cs : List Char) :
    (':' ∉ cs ∧ cs.span (· != ':') = (cs, [])) ∨
      ∃ p b, cs = p ++ ':' :: b ∧ ':' ∉ p ∧ cs.span (· != ':') = (p, ':' :: b) := by
  simp only [List.span_eq_takeWhile_dropWhile]
  induction cs with
  | nil => simp
  | cons c cs ih =>
    by_cases hc : c = ':'
    · exact .inr ⟨[], cs, by simp [hc], by simp, by simp [hc]⟩
    · obtain ⟨hnone, hsplit⟩ | ⟨p, b, hcs, hp, hsplit⟩ := ih
      · refine .inl ⟨by simp [hnone, Ne.symm hc], ?_⟩
        simpa [List.takeWhile_cons, List.dropWhile_cons, hc] using hsplit
      · refine .inr ⟨c :: p, b, by simp [hcs], by simp [hp, Ne.symm hc], ?_⟩
        simpa [List.takeWhile_cons, List.dropWhile_cons, hc] using hsplit

/-- What characters spell: they start like a name, and there is no colon, or one with something on
both sides of it. -/
theorem ofChars?_eq_some_iff {cs : List Char} {q : QName} :
    ofChars? cs = some q ↔ (∃ c rest, cs = c :: rest ∧ isNameStart c = true) ∧
      (':' ∉ cs ∧ q = { base := String.ofList cs } ∨
        ∃ p b, cs = p ++ ':' :: b ∧ ':' ∉ p ∧ ':' ∉ b ∧ b ≠ [] ∧
          q = { pfx := some (String.ofList p), base := String.ofList b }) := by
  cases cs with
  | nil => simp [ofChars?]
  | cons c rest =>
    by_cases hc : isNameStart c = true
    · have hstart : ∃ d more, c :: rest = d :: more ∧ isNameStart d = true := ⟨c, rest, rfl, hc⟩
      rw [and_iff_right hstart]
      obtain ⟨hnone, hsplit⟩ | ⟨p, b, hcs, hp, hsplit⟩ := span_colon (c :: rest)
      · simp only [ofChars?, hc, if_true, hsplit, Option.some.injEq]
        constructor
        · rintro rfl
          exact .inl ⟨hnone, rfl⟩
        · rintro (⟨-, rfl⟩ | ⟨p, b, hcs, -⟩)
          · rfl
          · simp [hcs] at hnone
      · simp only [ofChars?, hc, if_true, hsplit, Option.ite_none_left_eq_some, Option.some.injEq,
          Bool.or_eq_true, List.isEmpty_iff, List.contains_iff_mem, not_or]
        constructor
        · rintro ⟨⟨hb, hcolon⟩, rfl⟩
          exact .inr ⟨p, b, hcs, hp, hcolon, hb, rfl⟩
        · rintro (⟨hnone, -⟩ | ⟨p', b', hcs', hp', hcolon, hb, rfl⟩)
          · simp [hcs] at hnone
          · obtain ⟨rfl, -, rfl⟩ :=
              (List.append_cons_inj_of_notMem hp' hcolon).mp (hcs'.symm.trans hcs)
            exact ⟨⟨hb, hcolon⟩, rfl⟩
    · simp only [ofChars?, hc]
      simp [hc]

theorem text_of_ofChars? {cs : List Char} {q : QName} (h : ofChars? cs = some q) :
    q.text.toList = cs := by
  obtain ⟨-, ⟨-, rfl⟩ | ⟨p, b, rfl, -, -, -, rfl⟩⟩ := ofChars?_eq_some_iff.mp h
  · simp [text]
  · simp [text]

end QName

namespace Spelling

/-- The length of characters in bytes. -/
def size : List Char → Nat
  | [] => 0
  | c :: cs => c.utf8Size + size cs

@[simp] theorem size_nil : size [] = 0 := rfl

@[simp] theorem size_cons (c : Char) (cs : List Char) : size (c :: cs) = c.utf8Size + size cs := rfl

@[simp] theorem size_append (as bs : List Char) : size (as ++ bs) = size as + size bs := by
  induction as with
  | nil => simp
  | cons a as ih => rw [List.cons_append, size_cons, size_cons, ih, Nat.add_assoc]

@[simp] theorem size_reverse (cs : List Char) : size cs.reverse = size cs := by
  induction cs with
  | nil => rfl
  | cons c cs ih => simp [ih, Nat.add_comm]

/-- Characters that a name can consist of, and no more than fit. -/
structure Fits (cs : List Char) : Prop where
  chars : ∀ c ∈ cs, isNameChar c = true
  short : size cs.dropLast ≤ maxBytes

theorem size_dropLast_le (a cs : List Char) : size cs.dropLast ≤ size (a ++ cs).dropLast := by
  cases cs with
  | nil => simp
  | cons c cs =>
    rw [List.dropLast_append_of_ne_nil (by simp)]
    simp

theorem size_dropLast_le_size (cs : List Char) : size cs.dropLast ≤ size cs := by
  cases cs using List.reverseRecOn with
  | nil => simp
  | append_singleton cs c => simp

theorem Fits.right {a cs : List Char} (h : Fits (a ++ cs)) : Fits cs where
  chars := fun c hc => h.chars c (by simp [hc])
  short := Nat.le_trans (size_dropLast_le a cs) h.short

end Spelling

/-- A name is written in characters that a reader takes for it. -/
structure QName.Written (q : QName) : Prop where
  spelled : QName.ofChars? q.text.toList = some q
  fits : Spelling.Fits q.text.toList

instance (cs : List Char) : Decidable (Spelling.Fits cs) :=
  decidable_of_iff ((∀ c ∈ cs, isNameChar c = true) ∧ Spelling.size cs.dropLast ≤ Spelling.maxBytes)
    ⟨fun h => ⟨h.1, h.2⟩, fun h => ⟨h.chars, h.short⟩⟩

instance (q : QName) : Decidable q.Written :=
  decidable_of_iff (QName.ofChars? q.text.toList = some q ∧ Spelling.Fits q.text.toList)
    ⟨fun h => ⟨h.1, h.2⟩, fun h => ⟨h.spelled, h.fits⟩⟩

namespace QName.Written

theorem of_ofChars? {cs : List Char} {q : QName} (h : QName.ofChars? cs = some q)
    (hfits : Spelling.Fits cs) : q.Written := by
  have htext := text_of_ofChars? h
  exact ⟨by rw [htext, h], by rw [htext]; exact hfits⟩

/-- The local part has no colon, is not empty, and is as short as the whole. -/
theorem base {q : QName} (h : q.Written) :
    q.base.toList ≠ [] ∧ ':' ∉ q.base.toList ∧ Spelling.Fits q.base.toList := by
  have hfits := h.fits
  obtain ⟨⟨c, rest, hcs, -⟩, ⟨hcolon, hq⟩ | ⟨p, b, hcs', -, hb, hne, hq⟩⟩ :=
    ofChars?_eq_some_iff.mp h.spelled
  · rw [hq]
    simp only [String.toList_ofList]
    exact ⟨by rw [hcs]; simp, hcolon, hfits⟩
  · rw [hcs'] at hfits
    have hright : Spelling.Fits b := (Spelling.Fits.right (a := p ++ [':']) (by simpa using hfits))
    rw [hq]
    simp only [String.toList_ofList]
    exact ⟨hne, hb, hright⟩

theorem pfx_ne_empty {q : QName} (h : q.Written) : q.pfx ≠ some "" := by
  intro hpfx
  obtain ⟨⟨c, rest, hcs, hc⟩, ⟨-, hq⟩ | ⟨p, b, hcs', hp, -, -, hq⟩⟩ :=
    ofChars?_eq_some_iff.mp h.spelled
  · rw [hq] at hpfx
    cases hpfx
  · rw [hq] at hpfx
    have hnil : p = [] := by simpa using congrArg String.toList (Option.some.inj hpfx)
    rw [hcs', hnil] at hcs
    exact ne_colon_of_isNameStart hc (List.head_eq_of_cons_eq hcs).symm

end QName.Written

namespace Spelling

/-! Reading on. -/

/-- What a reader keeps of the characters of a name that it has gone through. -/
structure Sound (s : Spelling) : Prop where
  chars : ∀ c ∈ s.chars, isNameChar c = true
  bytes : s.bytes = size s.chars
  short : ∀ c cs, s.chars = c :: cs → c ≠ ':' → size cs ≤ maxBytes

theorem Sound.empty : Sound {} := ⟨by simp, rfl, by simp⟩

theorem Sound.first {c : Char} (h : isNameStart c = true) : Sound (Spelling.add {} c) where
  chars := by simpa [add] using isNameChar_of_isNameStart h
  bytes := by simp [add]
  short := by
    intro d ds hd _
    simp only [add, List.cons.injEq] at hd
    simp [← hd.2]

theorem Sound.add_colon {s : Spelling} (h : s.Sound) (colon : Bool) :
    Sound { s.add ':' with colon } where
  chars := by
    simp only [add, List.mem_cons, forall_eq_or_imp]
    exact ⟨by decide, h.chars⟩
  bytes := by
    simp only [add, h.bytes, size_cons]
    omega
  short := by
    intro d ds hd hne
    simp only [add, List.cons.injEq] at hd
    exact absurd hd.1.symm hne

theorem isNameChar_of_admits {s : Spelling} {c : Char} (h : s.admits c = true) :
    isNameChar c = true := by
  unfold admits at h
  split at h
  · simp only [Bool.or_eq_true, beq_iff_eq] at h
    obtain rfl | h := h
    · decide
    · exact isNameChar_of_isNameStart h
  · exact h

theorem Sound.push {s s' : Spelling} {c : Char} (h : s.Sound) (hc : isNameChar c = true)
    (hs : s.push c = .ok s') : s'.Sound := by
  unfold Spelling.push at hs
  split at hs
  · cases hs
  · next hshort =>
    cases hs
    refine ⟨?_, ?_, ?_⟩
    · simp only [add, List.mem_cons, forall_eq_or_imp]
      exact ⟨hc, h.chars⟩
    · simp only [add, h.bytes, size_cons]
      omega
    · intro d ds hd _
      simp only [add, List.cons.injEq] at hd
      rw [← hd.2, ← h.bytes]
      exact Nat.le_of_not_lt hshort

theorem Sound.complete {s : Spelling} {q : QName} (h : s.Sound) (hs : s.name? = some q) :
    q.Written := by
  refine QName.Written.of_ofChars? hs ⟨fun c hc => h.chars c (by simpa [letters] using hc), ?_⟩
  cases hchars : s.chars with
  | nil => simp [letters, hchars]
  | cons c cs =>
    have hlast : c ≠ ':' := by
      rintro rfl
      obtain ⟨-, ⟨hcolon, -⟩ | ⟨p, b, hcs, -, hb, hne, -⟩⟩ := QName.ofChars?_eq_some_iff.mp hs
      · simp [letters, hchars] at hcolon
      · have hlast := congrArg List.getLast? hcs
        obtain ⟨d, hd⟩ := Option.ne_none_iff_exists'.mp (mt List.getLast?_eq_none_iff.mp hne)
        rw [letters, hchars, List.reverse_cons, List.getLast?_concat, List.getLast?_append,
          List.getLast?_cons, hd] at hlast
        obtain rfl : ':' = d := by simpa using hlast
        exact hb (List.mem_of_getLast? hd)
    have hshort := h.short c cs hchars hlast
    simpa [letters, hchars] using hshort

/-- What comes of a name with another token: it goes on soundly, or it is one that is written. -/
theorem Sound.qualified {s : Spelling} (h : s.Sound) (ends : Token → Bool) (t : Token) :
    (∀ s', s.qualified ends t = .ok (.more s') → s'.Sound) ∧
      ∀ q, s.qualified ends t = .ok (.done q) → q.Written := by
  have hcomplete : ∀ p, s.complete = .ok p → ∃ q, p = .done q ∧ q.Written := by
    intro p hp
    unfold Spelling.complete at hp
    split at hp
    · next q hq =>
      cases hp
      exact ⟨q, rfl, h.complete hq⟩
    · cases hp
  have hall : ∀ p, s.qualified ends t = .ok p →
      (∃ q, p = .done q ∧ q.Written) ∨ ∃ s', p = .more s' ∧ s'.Sound := by
    intro p hp
    unfold Spelling.qualified at hp
    split at hp
    · split at hp
      · cases hp
      · cases hp
        exact .inr ⟨_, rfl, h.add_colon true⟩
    · next c _ =>
      split at hp
      · exact .inl (hcomplete p hp)
      · split at hp
        · next hadmits =>
          cases hpush : s.push c with
          | error e =>
            rw [hpush] at hp
            cases hp
          | ok s' =>
            rw [hpush] at hp
            cases hp
            exact .inr ⟨s', rfl, h.push (isNameChar_of_admits hadmits) hpush⟩
        · cases hp
    · split at hp
      · exact .inl (hcomplete p hp)
      · cases hp
  constructor
  · intro s' hs
    obtain ⟨q, hq, -⟩ | ⟨s'', hs', hsound⟩ := hall _ hs
    · cases hq
    · cases hs'
      exact hsound
  · intro q hq
    obtain ⟨q', hq', hwritten⟩ | ⟨s', hs', -⟩ := hall _ hq
    · cases hq'
      exact hwritten
    · cases hs'

/-! Characters that lead on. -/

/-- The name with some more characters. -/
def after (s : Spelling) (cs : List Char) : Spelling :=
  { chars := cs.reverse ++ s.chars, bytes := s.bytes + size cs, colon := s.colon || cs.contains ':' }

@[simp] theorem after_nil (s : Spelling) : s.after [] = s := by simp [after]

theorem after_cons (s : Spelling) (c : Char) (cs : List Char) :
    s.after (c :: cs) = (s.after [c]).after cs := by
  simp only [after, List.reverse_cons, List.append_assoc, size_cons, size_nil, List.contains_cons,
    Spelling.mk.injEq]
  exact ⟨by simp, by omega, by simp [Bool.or_assoc]⟩

/-- Characters that a name can go on with, one after the other. -/
def Continues (s : Spelling) : List Char → Prop
  | [] => True
  | c :: cs => (∀ ends, s.qualified ends (.character c) = .ok (.more (s.after [c]))) ∧
      (s.after [c]).Continues cs

theorem qualified_character {s : Spelling} {c : Char} (hc : c ≠ ':') (hname : isNameChar c = true)
    (hadmits : s.admits c = true) (hshort : s.bytes ≤ maxBytes) (ends : Token → Bool) :
    s.qualified ends (.character c) = .ok (.more (s.after [c])) := by
  have hnot : ¬ maxBytes < s.bytes := Nat.not_lt.mpr hshort
  unfold Spelling.qualified
  split
  · next heq => exact absurd (Token.character.inj heq) hc
  · next d _ heq =>
    cases heq
    rw [isSpace_of_isNameChar hname, hadmits, Spelling.push, if_neg hnot]
    simp [Except.map, add, after, Ne.symm hc]
  · next _ hother => exact absurd rfl (hother c)

theorem qualified_colon {s : Spelling} (hne : s.chars ≠ []) (hcolon : s.colon = false)
    (ends : Token → Bool) :
    s.qualified ends (.character ':') = .ok (.more (s.after [':'])) := by
  have hempty : s.chars.isEmpty = false := by simpa using hne
  simp only [Spelling.qualified, hempty, hcolon, Bool.or_self, Bool.false_eq_true, if_false]
  simp [add, after]

theorem continues_append {s : Spelling} {as bs : List Char} (h : s.Continues as)
    (h' : (s.after as).Continues bs) : s.Continues (as ++ bs) := by
  induction as generalizing s with
  | nil => simpa using h'
  | cons a as ih =>
    rw [after_cons] at h'
    exact ⟨h.1, ih h.2 h'⟩

/-- Inside a name every character but a colon leads on, while the name is short enough. -/
theorem continues_of_colonFree {s : Spelling} {cs : List Char} (hne : s.chars ≠ [])
    (hcolon : ':' ∉ cs) (hchars : ∀ c ∈ cs, isNameChar c = true)
    (hshort : cs ≠ [] → s.bytes + size cs.dropLast ≤ maxBytes) : s.Continues cs := by
  induction cs generalizing s with
  | nil => trivial
  | cons c cs ih =>
    have hname := hchars c (by simp)
    have hadmits : s.admits c = true := by
      have hempty : s.chars.isEmpty = false := by simpa using hne
      simp [admits, hempty, hname]
    have hshort := hshort (by simp)
    simp only [List.mem_cons, not_or] at hcolon
    refine ⟨qualified_character (Ne.symm hcolon.1) hname hadmits (by omega),
      ih (by simp [after]) hcolon.2 (fun d hd => hchars d (by simp [hd])) ?_⟩
    intro hcs
    rw [List.dropLast_cons_of_ne_nil hcs, size_cons] at hshort
    simp only [after, size_cons, size_nil]
    omega

/-- Behind the first character of a written name its other characters lead on. -/
theorem continues_rest {q : QName} (h : q.Written) {c : Char} {rest : List Char}
    (htext : q.text.toList = c :: rest) : (({} : Spelling).after [c]).Continues rest := by
  have hchars : ∀ d ∈ rest, isNameChar d = true :=
    fun d hd => h.fits.chars d (by simp [htext, hd])
  have hshort := h.fits.short
  have hspelled := h.spelled
  rw [htext] at hshort hspelled
  obtain ⟨⟨d, more, hcs, hd⟩, ⟨hnone, -⟩ | ⟨p, b, hcs', hp, hb, -, -⟩⟩ :=
    QName.ofChars?_eq_some_iff.mp hspelled
  · refine continues_of_colonFree (by simp [after]) (by simp_all) hchars ?_
    intro hne
    rw [List.dropLast_cons_of_ne_nil hne, size_cons] at hshort
    simpa [after] using hshort
  · obtain ⟨rfl, rfl⟩ := List.cons.inj hcs
    cases p with
    | nil =>
      obtain ⟨rfl, -⟩ := List.cons.inj hcs'
      exact absurd hd (by decide)
    | cons e p =>
      obtain ⟨rfl, hrest⟩ := List.cons.inj hcs'
      replace hrest : rest = p ++ ':' :: b := hrest
      subst hrest
      simp only [List.mem_cons, not_or] at hp
      have hlong : c.utf8Size + size p + size (':' :: b).dropLast ≤ maxBytes := by
        rw [← List.cons_append, List.dropLast_append_of_ne_nil (by simp)] at hshort
        simpa [Nat.add_assoc] using hshort
      refine continues_append (continues_of_colonFree (by simp [after]) hp.2
        (fun d hd => hchars d (by simp [hd])) ?_) ⟨qualified_colon (by simp [after]) ?_,
        continues_of_colonFree (by simp [after]) hb (fun d hd => hchars d (by simp [hd])) ?_⟩
      · intro hne
        have hpart := size_dropLast_le_size p
        simp only [after, size_cons, size_nil]
        omega
      · simp [after, hp.1, hp.2]
      · intro hne
        rw [List.dropLast_cons_of_ne_nil hne, size_cons] at hlong
        simp only [after, size_cons, size_nil]
        omega

/-- The characters of a written name lead through it. -/
theorem continues_text {q : QName} (h : q.Written) : ({} : Spelling).Continues q.text.toList := by
  obtain ⟨⟨c, rest, htext, hc⟩, -⟩ := QName.ofChars?_eq_some_iff.mp h.spelled
  rw [htext]
  refine ⟨qualified_character (ne_colon_of_isNameStart hc) (isNameChar_of_isNameStart hc) ?_
    (Nat.zero_le _), continues_rest h htext⟩
  simp [admits, hc]

theorem complete_after {q : QName} (h : q.Written) :
    (({} : Spelling).after q.text.toList).complete = .ok (.done q) := by
  have hname : (({} : Spelling).after q.text.toList).name? = some q := by
    simpa [name?, letters, after] using h.spelled
  rw [Spelling.complete, hname]

end Spelling
end Netconf.Xml
