import Mathlib.Data.List.Forall2
import Netconf.Json.Legible
import Netconf.Proofs.Text.Bytes

/-! JSON in the bytes of a text. These are all there and in their places, so that nothing in them
has to be mended, and the value is that of the text. -/
namespace Netconf

/-! The bytes of a character. -/

namespace Text

/-- Bytes that are within bounds, one for each. -/
def AreWithin (bounds : List (UInt8 × UInt8)) (bytes : Bytes) : Prop :=
  List.Forall₂ (fun p b => p.1 ≤ b ∧ b ≤ p.2) bounds bytes

variable {bounds : List (UInt8 × UInt8)} {tail : Bytes}

theorem AreWithin.tailFault? (h : AreWithin bounds tail) (start length : Nat) (rest : Bytes) :
    Text.tailFault? start length bounds (tail ++ rest) = none := by
  induction h generalizing length with
  | nil => rfl
  | @cons p b bounds tail hb _ ih =>
    rw [List.cons_append, Text.tailFault?, if_pos hb]
    exact ih _

theorem within_ofNat (low high : Nat) {n : Nat} (hlow : low ≤ n) (hhigh : n ≤ high)
    (h : high < 256) :
    UInt8.ofNat low ≤ UInt8.ofNat n ∧ UInt8.ofNat n ≤ UInt8.ofNat high := by
  have hbyte {m : Nat} (hm : m < 256) : (UInt8.ofNat m).toNat = m := by
    rw [UInt8.toNat_ofNat', Nat.mod_eq_of_lt hm]
  rw [UInt8.le_iff_toNat_le, UInt8.le_iff_toNat_le, hbyte (by omega), hbyte (by omega), hbyte h]
  exact ⟨hlow, hhigh⟩

/-- What the first byte of a character says about the others. -/
theorem tailBounds?_ofNat {n : Nat} (h : n < 256) : tailBounds? (UInt8.ofNat n) =
    if n < 0x80 then some []
    else if n < 0xC2 then none
    else if n < 0xE0 then some [(0x80, 0xBF)]
    else if n = 0xE0 then some [(0xA0, 0xBF), (0x80, 0xBF)]
    else if n = 0xED then some [(0x80, 0x9F), (0x80, 0xBF)]
    else if n < 0xF0 then some [(0x80, 0xBF), (0x80, 0xBF)]
    else if n = 0xF0 then some [(0x90, 0xBF), (0x80, 0xBF), (0x80, 0xBF)]
    else if n < 0xF4 then some [(0x80, 0xBF), (0x80, 0xBF), (0x80, 0xBF)]
    else if n = 0xF4 then some [(0x80, 0x8F), (0x80, 0xBF), (0x80, 0xBF)]
    else none := by
  have hn : (UInt8.ofNat n).toNat = n := by rw [UInt8.toNat_ofNat', Nat.mod_eq_of_lt h]
  simp only [tailBounds?, UInt8.lt_iff_toNat_lt, ← UInt8.toNat_inj, hn]
  rfl

/-- A byte behind the first one of a character. -/
theorem within_any (n : Nat) : (0x80 : UInt8) ≤ UInt8.ofNat (n % 64 + 128) ∧
    UInt8.ofNat (n % 64 + 128) ≤ (0xBF : UInt8) :=
  within_ofNat 0x80 0xBF (by omega) (by omega) (by omega)

/-- Of three bytes, the first leaves out what has a shorter form, and half surrogate pairs. -/
theorem areWithin_three {v : Nat} (hlong : 0x7FF < v) (hshort : v ≤ 0xFFFF)
    (hvalid : v < 0xD800 ∨ 0xDFFF < v) :
    ∃ bounds, tailBounds? (UInt8.ofNat (v / 4096 % 16 + 224)) = some bounds ∧
      AreWithin bounds [UInt8.ofNat (v / 64 % 64 + 128), UInt8.ofNat (v % 64 + 128)] := by
  rw [tailBounds?_ofNat (by omega), if_neg (by omega), if_neg (by omega), if_neg (by omega)]
  by_cases hlow : v / 4096 = 0
  · refine ⟨_, if_pos (by omega), .cons ?_ (.cons (within_any v) .nil)⟩
    exact within_ofNat 0xA0 0xBF (by omega) (by omega) (by omega)
  · rw [if_neg (by omega)]
    by_cases hpair : v / 4096 = 13
    · refine ⟨_, if_pos (by omega), .cons ?_ (.cons (within_any v) .nil)⟩
      exact within_ofNat 0x80 0x9F (by omega) (by omega) (by omega)
    · rw [if_neg (by omega)]
      exact ⟨_, if_pos (by omega), .cons (within_any _) (.cons (within_any v) .nil)⟩

/-- Of four bytes, the first leaves out what has a shorter form, and what is past the last
character. -/
theorem areWithin_four {v : Nat} (hlong : 0xFFFF < v) (hvalid : v < 0x110000) :
    ∃ bounds, tailBounds? (UInt8.ofNat (v / 262144 % 8 + 240)) = some bounds ∧
      AreWithin bounds [UInt8.ofNat (v / 4096 % 64 + 128), UInt8.ofNat (v / 64 % 64 + 128),
        UInt8.ofNat (v % 64 + 128)] := by
  rw [tailBounds?_ofNat (by omega), if_neg (by omega), if_neg (by omega), if_neg (by omega),
    if_neg (by omega), if_neg (by omega), if_neg (by omega)]
  by_cases hlow : v / 262144 = 0
  · refine ⟨_, if_pos (by omega), .cons ?_ (.cons (within_any _) (.cons (within_any v) .nil))⟩
    exact within_ofNat 0x90 0xBF (by omega) (by omega) (by omega)
  · rw [if_neg (by omega)]
    by_cases hhigh : v / 262144 = 4
    · rw [if_neg (by omega)]
      refine ⟨_, if_pos (by omega), .cons ?_ (.cons (within_any _) (.cons (within_any v) .nil))⟩
      exact within_ofNat 0x80 0x8F (by omega) (by omega) (by omega)
    · exact ⟨_, if_pos (by omega),
        .cons (within_any _) (.cons (within_any _) (.cons (within_any v) .nil))⟩

theorem areWithin_utf8 {c : Char} {b : UInt8} (h : String.utf8EncodeChar c = b :: tail) :
    ∃ bounds, tailBounds? b = some bounds ∧ AreWithin bounds tail := by
  have hvalid : c.val.toNat < 0xD800 ∨ 0xDFFF < c.val.toNat ∧ c.val.toNat < 0x110000 := c.valid
  simp only [String.utf8EncodeChar] at h
  generalize c.val.toNat = v at *
  split at h
  · obtain ⟨rfl, rfl⟩ := List.cons.inj h
    exact ⟨[], by rw [tailBounds?_ofNat (by omega), if_pos (by omega)], .nil⟩
  · split at h
    · obtain ⟨rfl, rfl⟩ := List.cons.inj h
      refine ⟨[(0x80, 0xBF)], ?_, .cons (within_any v) .nil⟩
      rw [tailBounds?_ofNat (by omega), if_neg (by omega), if_neg (by omega), if_pos (by omega)]
    · split at h
      · obtain ⟨rfl, rfl⟩ := List.cons.inj h
        exact areWithin_three (by omega) (by omega) (by omega)
      · obtain ⟨rfl, rfl⟩ := List.cons.inj h
        exact areWithin_four (by omega) (by omega)

end Text

/-! Nothing to mend. -/

namespace Json

variable {c : Char} {b : UInt8} {tail : Bytes}

theorem tailLength?_utf8 (h : String.utf8EncodeChar c = b :: tail) (rest : Bytes) :
    tailLength? b (tail ++ rest) = some tail.length := by
  obtain ⟨bounds, hbounds, hwithin⟩ := Text.areWithin_utf8 h
  rw [tailLength?, hbounds, Option.filter_some, if_pos (by rw [hwithin.tailFault?]; rfl),
    Option.map_some, List.Forall₂.length_eq hwithin]

/-- The bytes of a character are gone through. -/
theorem mend?_tail (escaped : Bool) (done tail rest : Bytes) :
    ∃ escaped', mend? escaped tail.length done (tail ++ rest) =
      mend? escaped' 0 (tail.reverse ++ done) rest := by
  induction tail generalizing escaped done with
  | nil => exact ⟨escaped, rfl⟩
  | cons b tail ih =>
    obtain ⟨escaped', htail⟩ := ih false (b :: done)
    refine ⟨escaped', ?_⟩
    rw [List.reverse_cons, List.append_assoc, List.cons_append, List.length_cons]
    exact htail

theorem mend?_utf8 (escaped : Bool) (done : Bytes) (cs : List Char) :
    mend? escaped 0 done (cs.flatMap String.utf8EncodeChar) =
      some (done.reverse ++ cs.flatMap String.utf8EncodeChar) := by
  induction cs generalizing escaped done with
  | nil => simp [mend?]
  | cons c cs ih =>
    obtain ⟨b, tail, hc⟩ := List.exists_cons_of_ne_nil (String.utf8EncodeChar_ne_nil (c := c))
    obtain ⟨escaped', htail⟩ := mend?_tail (b == 0x5C && !escaped) (b :: done) tail
      (cs.flatMap String.utf8EncodeChar)
    rw [List.flatMap_cons, hc, List.cons_append, mend?.eq_def]
    dsimp only
    rw [tailLength?_utf8 hc]
    dsimp only
    rw [htail, ih]
    simp

/-- The bytes of a text are read as the text is. -/
theorem parseBytes?_ofString (s : String) : parseBytes? (Bytes.ofString s) = parse? s := by
  have hmend : mend? false 0 [] (Bytes.ofString s) = some (Bytes.ofString s) := by
    rw [← String.ofList_toList (s := s), Bytes.ofString_ofList, mend?_utf8]
    rfl
  rw [parseBytes?, hmend, Option.bind_some, Bytes.toString?_ofString, Option.bind_some]

end Json
end Netconf
