import Netconf.Framing.Read

/-! The first message of a string of bytes with marks, told without its reader. The reader finds
just this one, and leaves just what stands behind its mark. -/
namespace Netconf.Framing

/-- A string of bytes begins with a message: it stands before the first mark. Its size is looked at
at each greater-than sign that completes no mark, the last of which is the first one in the mark. -/
structure Opens (limit : Nat) (bytes m rest : Bytes) : Prop where
  split : bytes = m ++ marker ++ rest
  first : ¬ marker <:+: (m ++ marker).dropLast
  fits : m.length + 3 ≤ limit

/-- What the reader knows of the bytes that it has gone through without coming to an end: no mark
is among them, and no greater-than sign lies beyond the limit. -/
structure GoneThrough (limit : Nat) (a : Bytes) : Prop where
  unmarked : ¬ marker <:+: a
  within : ∀ u v, a = u ++ 0x3E :: v → u.length + 1 ≤ limit

variable {limit : Nat}

theorem GoneThrough.nil : GoneThrough limit [] where
  unmarked := by
    intro h
    simpa [marker] using List.IsInfix.length_le h
  within := by simp

theorem GoneThrough.concat {a : Bytes} {x : UInt8} (h : GoneThrough limit a)
    (hx : ¬ marker <:+ a ++ [x]) (hlimit : x = 0x3E → a.length + 1 ≤ limit) :
    GoneThrough limit (a ++ [x]) where
  unmarked := by
    rw [List.infix_concat_iff]
    exact not_or.mpr ⟨hx, h.unmarked⟩
  within := by
    intro u v huv
    obtain rfl | ⟨w, y, rfl⟩ := List.eq_nil_or_concat v
    · obtain ⟨rfl, hx⟩ := List.append_inj' huv rfl
      exact hlimit (List.head_eq_of_cons_eq hx)
    · have hcut : a ++ [x] = (u ++ 0x3E :: w) ++ [y] := by simpa using huv
      exact h.within u w (List.append_inj' hcut rfl).1

theorem GoneThrough.left {a b : Bytes} (h : GoneThrough limit (a ++ b)) : GoneThrough limit a where
  unmarked := fun hm => h.unmarked (hm.trans (List.prefix_append a b).isInfix)
  within := fun u v huv => h.within u (v ++ b) (by rw [huv, List.append_assoc, List.cons_append])

theorem reversedMarker_isPrefixOf_iff {read : Bytes} :
    reversedMarker.isPrefixOf read = true ↔ ∃ a, read.reverse = a ++ marker := by
  rw [List.isPrefixOf_iff_prefix, reversedMarker, ← List.reverse_suffix, List.reverse_reverse]
  exact ⟨fun ⟨a, h⟩ => ⟨a, h.symm⟩, fun ⟨a, h⟩ => ⟨a, h.symm⟩⟩

theorem reversedMarker_isPrefixOf_concat {a : Bytes} {x : UInt8} :
    reversedMarker.isPrefixOf (x :: a.reverse) = true ↔ marker <:+ a ++ [x] := by
  have hread : x :: a.reverse = (a ++ [x]).reverse := by simp
  rw [hread, reversedMarker_isPrefixOf_iff, List.reverse_reverse]
  exact ⟨fun ⟨u, h⟩ => ⟨u, h.symm⟩, fun ⟨u, h⟩ => ⟨u, h.symm⟩⟩

theorem last_of_marker_suffix {a : Bytes} {x : UInt8} (h : marker <:+ a ++ [x]) : x = 0x3E := by
  obtain ⟨u, hu⟩ := h
  have hlast := congrArg List.getLast? hu
  simpa [marker] using hlast.symm

/-- The reader has gone through `a` and finds a message in what it has and what comes. -/
theorem opens_of_readMarked {m : Bytes} {last input : Incoming}
    (hlast : last = .silent ∨ last = .closed) (a b : Bytes) (h : GoneThrough limit a)
    (hread : readMarked limit a.length a.reverse (.ofBytes b last) = (.message m, input)) :
    ∃ rest, Opens limit (a ++ b) m rest ∧ input = .ofBytes rest last := by
  induction b generalizing a with
  | nil =>
    obtain rfl | rfl := hlast <;> simp [readMarked] at hread
  | cons x b ih =>
    have hgo : GoneThrough limit (a ++ [x]) →
        readMarked limit (a.length + 1) (x :: a.reverse) (.ofBytes b last) = (.message m, input) →
        ∃ rest, Opens limit (a ++ x :: b) m rest ∧ input = .ofBytes rest last := by
      intro hthrough hread
      have hnext := ih (a ++ [x]) hthrough (by simpa using hread)
      simpa using hnext
    rw [Incoming.ofBytes_cons, readMarked] at hread
    by_cases hx : x = 0x3E
    · rw [if_pos hx] at hread
      by_cases hm : marker <:+ a ++ [x]
      · rw [if_pos (reversedMarker_isPrefixOf_concat.mpr hm)] at hread
        obtain ⟨u, hu⟩ := hm
        have hread' : x :: a.reverse = (u ++ marker).reverse := by rw [hu]; simp
        have hmu : m = u := by
          rw [hread'] at hread
          simpa [marker] using (congrArg Prod.fst hread).symm
        subst hmu
        have ha : a = (m ++ marker).dropLast := by rw [hu]; simp
        refine ⟨b, ⟨?_, ha ▸ h.unmarked, ?_⟩, (congrArg Prod.snd hread).symm⟩
        · rw [hu]
          simp
        · have hfirst := h.within (m ++ [0x5D, 0x5D]) [0x5D, 0x5D] (by rw [ha]; simp [marker])
          simp only [List.length_append, List.length_cons, List.length_nil] at hfirst
          omega
      · rw [if_neg (mt reversedMarker_isPrefixOf_concat.mp hm)] at hread
        by_cases hl : limit < a.length + 1
        · rw [if_pos hl] at hread
          cases hread
        · rw [if_neg hl] at hread
          exact hgo (h.concat hm fun _ => Nat.le_of_not_lt hl) hread
    · rw [if_neg hx] at hread
      exact hgo (h.concat (mt last_of_marker_suffix hx) fun hx' => absurd hx' hx) hread

/-- The reader goes through bytes at which it does not come to an end. -/
theorem readMarked_through (a b : Bytes) (rest : Incoming) (h : GoneThrough limit (a ++ b)) :
    readMarked limit a.length a.reverse (.ofBytes b rest) =
      readMarked limit (a ++ b).length (a ++ b).reverse rest := by
  induction b generalizing a with
  | nil => simp
  | cons x b ih =>
    have hsplit : a ++ x :: b = (a ++ [x]) ++ b := by simp
    rw [hsplit] at h ⊢
    have hm : ¬ marker <:+ a ++ [x] := fun hm => h.left.unmarked hm.isInfix
    have hnext := ih (a ++ [x]) h
    rw [List.length_append, List.length_singleton, List.reverse_append] at hnext
    rw [Incoming.ofBytes_cons, readMarked]
    by_cases hx : x = 0x3E
    · have hlimit : a.length + 1 ≤ limit := h.left.within a [] (by rw [hx])
      rw [if_pos hx, if_neg (mt reversedMarker_isPrefixOf_concat.mp hm),
        if_neg (Nat.not_lt.mpr hlimit)]
      exact hnext
    · rw [if_neg hx]
      exact hnext

/-- All but the last byte of the first message and its mark is gone through. -/
theorem Opens.goneThrough {bytes m rest : Bytes} (h : Opens limit bytes m rest) :
    GoneThrough limit (m ++ marker.dropLast) where
  unmarked := by
    rw [← List.dropLast_append_of_ne_nil (by decide)]
    exact h.first
  within := by
    intro u v huv
    have hat : (m ++ marker.dropLast)[u.length]? = some 0x3E := by rw [huv]; simp
    by_cases hin : u.length < m.length + 3
    · have := h.fits
      omega
    · have hlen := congrArg List.length huv
      simp only [List.length_append, marker, List.dropLast, List.length_cons,
        List.length_nil] at hlen
      rw [List.getElem?_append_right (by omega)] at hat
      have hback : u.length - m.length = 3 ∨ u.length - m.length = 4 := by omega
      obtain hk | hk := hback <;> rw [hk] at hat <;> simp [marker] at hat

theorem readMarked_of_opens {bytes m rest : Bytes} (h : Opens limit bytes m rest)
    (last : Incoming) :
    readMarked limit 0 [] (.ofBytes bytes last) = (.message m, .ofBytes rest last) := by
  have hsplit : bytes = (m ++ marker.dropLast) ++ 0x3E :: rest := by rw [h.split]; simp [marker]
  have hm : marker <:+ (m ++ marker.dropLast) ++ [0x3E] := ⟨m, by simp [marker]⟩
  have hthrough := readMarked_through [] (m ++ marker.dropLast) (.byte 0x3E (.ofBytes rest last))
    h.goneThrough
  rw [hsplit, Incoming.ofBytes_append, Incoming.ofBytes_cons]
  refine hthrough.trans ?_
  rw [List.nil_append, readMarked, if_pos rfl, if_pos (reversedMarker_isPrefixOf_concat.mpr hm)]
  simp [marker]

/-- A message in whose frame the mark begins nowhere but behind the message is the first one. -/
theorem not_marker_infix {p : Bytes} (h : ∀ i < p.length, ¬ marker <+: (p ++ marker).drop i) :
    ¬ marker <:+: (p ++ marker).dropLast := by
  rintro ⟨a, b, hab⟩
  have hlen := congrArg List.length hab
  simp only [List.length_append, List.length_dropLast, marker, List.length_cons,
    List.length_nil] at hlen
  have hprefix : a ++ marker <+: p ++ marker :=
    (List.prefix_append _ b).trans (hab ▸ List.dropLast_prefix _)
  obtain ⟨c, hc⟩ := hprefix
  refine h a.length (by omega) ?_
  rw [← hc, List.append_assoc, List.drop_left]
  exact List.prefix_append marker c

/-- The reader of marked messages gets the message that the bytes begin with, if they begin with
one, and leaves what stands behind its mark. -/
theorem readMarked_eq_message_iff {bytes m : Bytes} {last input : Incoming}
    (hlast : last = .silent ∨ last = .closed) :
    readMarked limit 0 [] (.ofBytes bytes last) = (.message m, input) ↔
      ∃ rest, Opens limit bytes m rest ∧ input = .ofBytes rest last := by
  constructor
  · intro h
    exact opens_of_readMarked hlast [] bytes .nil h
  · rintro ⟨rest, h, rfl⟩
    exact readMarked_of_opens h last

/-- A string of bytes begins with one message at most. -/
theorem Opens.unique {bytes m m' rest rest' : Bytes} (h : Opens limit bytes m rest)
    (h' : Opens limit bytes m' rest') : m = m' ∧ rest = rest' := by
  have hread := readMarked_of_opens h .silent
  rw [readMarked_of_opens h' .silent] at hread
  obtain rfl : m = m' := by simpa using (congrArg Prod.fst hread).symm
  exact ⟨rfl, List.append_cancel_left (h.split.symm.trans h'.split)⟩

end Netconf.Framing
