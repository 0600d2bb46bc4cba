import Mathlib.Data.List.Infix
import Netconf.Bytes
import Netconf.Text.Blank

/-! Bytes of texts. They are those of the characters one after the other, and they spell the text
again. What stands among them as the bytes of a text of ASCII stands in the text itself. Blanks are
bytes of ASCII. -/
namespace Netconf.Bytes

theorem loop_eq (b : ByteArray) (i : Nat) (acc : List UInt8) :
    ByteArray.toList.loop b i acc = acc.reverse ++ b.data.toList.drop i := by
  induction i, acc using ByteArray.toList.loop.induct b with
  | case1 i acc hi ih =>
    have hlength : i < b.data.toList.length := by
      rw [Array.length_toList]
      exact hi
    have hget : b.get! i = b.data.toList[i] := getElem!_pos b.data i hi
    rw [ByteArray.toList.loop, if_pos hi, ih, List.drop_eq_getElem_cons hlength, hget,
      List.reverse_cons, List.append_assoc, List.singleton_append]
  | case2 i acc hi =>
    have hdone : b.data.toList.drop i = [] := by
      rw [List.drop_eq_nil_iff, Array.length_toList]
      exact Nat.le_of_not_lt hi
    rw [ByteArray.toList.loop, if_neg hi, hdone, List.append_nil]

theorem toList_eq (b : ByteArray) : b.toList = b.data.toList := by
  rw [ByteArray.toList, loop_eq, List.reverse_nil, List.nil_append, List.drop_zero]

/-- The bytes of a text are those of its characters. -/
theorem ofString_ofList (cs : List Char) :
    ofString (String.ofList cs) = cs.flatMap String.utf8EncodeChar := by
  rw [ofString, toList_eq]
  simp [List.utf8Encode]

/-- The bytes of a text spell that text. -/
theorem toString?_ofString (s : String) : toString? (ofString s) = some s := by
  have hbytes : (⟨(ofString s).toArray⟩ : ByteArray) = s.toByteArray := by
    rw [ofString, toList_eq]
    rfl
  rw [toString?, hbytes, String.fromUTF8?, dif_pos s.isValidUTF8]
  rfl

/-- Bytes spell a text just if they are its bytes. -/
theorem toString?_eq_some_iff {bytes : Bytes} {s : String} :
    toString? bytes = some s ↔ ofString s = bytes := by
  constructor
  · intro h
    unfold toString? String.fromUTF8? at h
    split at h
    · rw [ofString, toList_eq, ← Option.some.inj h]
      rfl
    · cases h
  · rintro rfl
    exact toString?_ofString s

/-- A character whose first byte is below 128 is the one of that number. -/
theorem toNat_of_utf8EncodeChar {c : Char} {b : UInt8} {bs : Bytes}
    (h : String.utf8EncodeChar c = b :: bs) (hb : b.toNat < 128) : c.toNat = b.toNat := by
  have hchar : c.val.toNat = c.toNat := rfl
  have hbyte : ∀ n : Nat, n < 256 → (UInt8.ofNat n).toNat = n := by
    intro n hn
    rw [UInt8.toNat_ofNat']
    exact Nat.mod_eq_of_lt hn
  simp only [String.utf8EncodeChar] at h
  split at h
  · obtain ⟨rfl, -⟩ := List.cons.inj h
    rw [hbyte _ (by omega), hchar]
  · split at h
    · obtain ⟨rfl, -⟩ := List.cons.inj h
      rw [hbyte _ (by omega)] at hb
      omega
    · split at h
      · obtain ⟨rfl, -⟩ := List.cons.inj h
        rw [hbyte _ (by omega)] at hb
        omega
      · obtain ⟨rfl, -⟩ := List.cons.inj h
        rw [hbyte _ (by omega)] at hb
        omega

/-! Texts of ASCII inside others. -/

theorem utf8EncodeChar_of_lt {c : Char} (h : c.toNat < 128) :
    String.utf8EncodeChar c = [UInt8.ofNat c.toNat] := by
  have hchar : c.val.toNat = c.toNat := rfl
  simp only [String.utf8EncodeChar]
  rw [if_pos (by omega), hchar]

/-- A character that is not of ASCII has no byte that is. -/
theorem le_of_mem_utf8EncodeChar {c : Char} (h : ¬ c.toNat < 128) {b : UInt8}
    (hb : b ∈ String.utf8EncodeChar c) : 128 ≤ b.toNat := by
  have hchar : c.val.toNat = c.toNat := rfl
  have hbyte : ∀ n k : Nat, 128 ≤ k → n < 256 - k → 128 ≤ (UInt8.ofNat (n + k)).toNat := by
    intro n k hk hn
    rw [UInt8.toNat_ofNat', Nat.mod_eq_of_lt (by omega)]
    omega
  simp only [String.utf8EncodeChar] at hb
  rw [if_neg (by omega)] at hb
  split at hb
  · simp only [List.mem_cons, List.not_mem_nil, or_false] at hb
    obtain rfl | rfl := hb <;> exact hbyte _ _ (by omega) (by omega)
  · split at hb
    · simp only [List.mem_cons, List.not_mem_nil, or_false] at hb
      obtain rfl | rfl | rfl := hb <;> exact hbyte _ _ (by omega) (by omega)
    · simp only [List.mem_cons, List.not_mem_nil, or_false] at hb
      obtain rfl | rfl | rfl | rfl := hb <;> exact hbyte _ _ (by omega) (by omega)

variable {w cs : List Char}

/-- A text of ASCII with whose bytes those of another begin is what the other begins with. -/
theorem prefix_of_utf8 (hw : ∀ c ∈ w, c.toNat < 128)
    (h : w.flatMap String.utf8EncodeChar <+: cs.flatMap String.utf8EncodeChar) : w <+: cs := by
  induction w generalizing cs with
  | nil => exact List.nil_prefix
  | cons d w ih =>
    have hd : d.toNat < 128 := hw d (by simp)
    have hbyte : (UInt8.ofNat d.toNat).toNat = d.toNat := by
      rw [UInt8.toNat_ofNat', Nat.mod_eq_of_lt (by omega)]
    rw [List.flatMap_cons, utf8EncodeChar_of_lt hd, List.singleton_append] at h
    cases cs with
    | nil => simp at h
    | cons c cs =>
      obtain ⟨b, bs, hc⟩ := List.exists_cons_of_ne_nil (String.utf8EncodeChar_ne_nil (c := c))
      rw [List.flatMap_cons, hc, List.cons_append, List.cons_prefix_cons] at h
      obtain ⟨rfl, hrest⟩ := h
      have hsame : c.toNat = d.toNat := by
        rw [toNat_of_utf8EncodeChar hc (by omega), hbyte]
      have hchar : c = d := by rw [← Char.ofNat_toNat c, hsame, Char.ofNat_toNat]
      subst hchar
      rw [utf8EncodeChar_of_lt hd] at hc
      obtain rfl := (List.cons.inj hc).2
      exact List.cons_prefix_cons.mpr ⟨rfl, ih (fun e he => hw e (by simp [he])) hrest⟩

/-- A text of ASCII stands in another one if its bytes stand among those of the other. -/
theorem infix_of_utf8 (hw : ∀ c ∈ w, c.toNat < 128)
    (h : w.flatMap String.utf8EncodeChar <:+: cs.flatMap String.utf8EncodeChar) : w <:+: cs := by
  induction cs with
  | nil =>
    cases w with
    | nil => exact List.infix_rfl
    | cons d w => simp [List.flatMap_cons] at h
  | cons c cs ih =>
    by_cases hc : c.toNat < 128
    · have hcons : (c :: cs).flatMap String.utf8EncodeChar =
          UInt8.ofNat c.toNat :: cs.flatMap String.utf8EncodeChar := by
        rw [List.flatMap_cons, utf8EncodeChar_of_lt hc, List.singleton_append]
      obtain hprefix | hinfix := List.infix_cons_iff.mp (hcons ▸ h)
      · rw [← hcons] at hprefix
        exact (prefix_of_utf8 hw hprefix).isInfix
      · exact (ih hinfix).trans (List.suffix_cons c cs).isInfix
    · -- No byte of the character is among those of the text.
      have hnone : ∀ {l : List UInt8}, (∃ l', w.flatMap String.utf8EncodeChar = l ++ l') →
          (∀ b ∈ l, b ∈ String.utf8EncodeChar c) → l = [] := by
        rintro l ⟨l', hl⟩ hmem
        refine List.eq_nil_iff_forall_not_mem.mpr fun b hb => ?_
        have hb' : b ∈ w.flatMap String.utf8EncodeChar := by simp [hl, hb]
        obtain ⟨d, hd, hbd⟩ := List.mem_flatMap.mp hb'
        rw [utf8EncodeChar_of_lt (hw d hd), List.mem_singleton] at hbd
        have hlow := hw d hd
        have hhigh := le_of_mem_utf8EncodeChar hc (hmem b hb)
        rw [hbd, UInt8.toNat_ofNat', Nat.mod_eq_of_lt (by omega)] at hhigh
        omega
      rw [List.flatMap_cons] at h
      refine (ih ?_).trans (List.suffix_cons c cs).isInfix
      obtain hinside | hbehind | ⟨l, l', hl, hsuffix, hprefix⟩ := List.infix_append_iff.mp h
      · rw [hnone ⟨[], (List.append_nil _).symm⟩ fun b hb => hinside.subset hb]
        exact List.nil_infix
      · exact hbehind
      · rw [hl, hnone ⟨l', hl⟩ fun b hb => hsuffix.subset hb, List.nil_append]
        exact hprefix.isInfix

/-- The characters of bytes of ASCII. -/
def ascii (w : Bytes) : List Char := w.map fun b => Char.ofNat b.toNat

theorem toNat_ofNat_of_lt {n : Nat} (h : n < 256) : (Char.ofNat n).toNat = n := by
  have hvalid : n.isValidChar := .inl (by omega)
  rw [Char.ofNat, dif_pos hvalid]
  rfl

theorem utf8_ascii {w : Bytes} (hw : ∀ b ∈ w, b.toNat < 128) :
    (ascii w).flatMap String.utf8EncodeChar = w := by
  induction w with
  | nil => rfl
  | cons b w ih =>
    have hb := hw b (by simp)
    have hnat : (Char.ofNat b.toNat).toNat = b.toNat := toNat_ofNat_of_lt b.toNat_lt
    have hchar : String.utf8EncodeChar (Char.ofNat b.toNat) = [b] := by
      rw [utf8EncodeChar_of_lt (by rw [hnat]; exact hb), hnat, UInt8.ofNat_toNat]
    have hcons : ascii (b :: w) = Char.ofNat b.toNat :: ascii w := rfl
    rw [hcons, List.flatMap_cons, hchar, ih fun d hd => hw d (by simp [hd]), List.singleton_append]

/-- Behind bytes of ASCII, bytes spell what they spell alone. -/
theorem toString?_ascii_append {w : Bytes} (hw : ∀ b ∈ w, b.toNat < 128) (m : Bytes) :
    toString? (w ++ m) = (toString? m).map fun s => String.ofList (ascii w ++ s.toList) := by
  have hbytes : ∀ cs : List Char, ofString (String.ofList (ascii w ++ cs)) =
      w ++ cs.flatMap String.utf8EncodeChar := by
    intro cs
    rw [ofString_ofList, List.flatMap_append, utf8_ascii hw]
  cases hm : toString? m with
  | some s =>
    rw [Option.map_some, toString?_eq_some_iff, hbytes, ← ofString_ofList, String.ofList_toList,
      toString?_eq_some_iff.mp hm]
  | none =>
    rw [Option.map_none, Option.eq_none_iff_forall_ne_some]
    intro s hs
    rw [toString?_eq_some_iff, ← String.ofList_toList (s := s), ofString_ofList] at hs
    have hascii : ∀ c ∈ ascii w, c.toNat < 128 := by
      intro c hc
      obtain ⟨b, hb, rfl⟩ := List.mem_map.mp hc
      rw [toNat_ofNat_of_lt b.toNat_lt]
      exact hw b hb
    have hprefix : (ascii w).flatMap String.utf8EncodeChar <+:
        s.toList.flatMap String.utf8EncodeChar := by
      rw [utf8_ascii hw, hs]
      exact List.prefix_append w m
    obtain ⟨cs, hcs⟩ := prefix_of_utf8 hascii hprefix
    rw [← hcs, List.flatMap_append, utf8_ascii hw] at hs
    have hspelled : toString? m = some (String.ofList cs) := by
      rw [toString?_eq_some_iff, ofString_ofList]
      exact List.append_cancel_left hs
    rw [hm] at hspelled
    cases hspelled

/-! Blanks. -/

/-- Bytes that are blanks, and nothing else. -/
def IsBlank (w : Bytes) : Prop := ∀ b ∈ w, Text.isBlankByte b = true

instance (w : Bytes) : Decidable (IsBlank w) := List.decidableBAll (Text.isBlankByte · = true) w

theorem isBlankByte_cases {b : UInt8} (h : Text.isBlankByte b = true) :
    b = 0x20 ∨ b = 0x09 ∨ b = 0x0A ∨ b = 0x0C ∨ b = 0x0D := by
  simpa [Text.isBlankByte, or_assoc] using h

theorem IsBlank.ascii {w : Bytes} (h : IsBlank w) : ∀ b ∈ w, b.toNat < 128 := by
  intro b hb
  obtain rfl | rfl | rfl | rfl | rfl := isBlankByte_cases (h b hb) <;> decide

end Netconf.Bytes
