import Mathlib.Data.List.Basic
import Netconf.Proofs.Framing.Whole

/-! The limit on the size of a message. A chunk that is too large is refused when its size has been
read. The size of a marked message is looked at at its greater-than signs only. So the first half of
the mark counts towards the limit, and where no such sign follows beyond the limit the reader takes
everything that comes. -/
namespace Netconf.Framing

/-- The messages that a framing can represent, whatever the limit. -/
def Represents (p : Bytes) : Framing → Prop
  | endOfMessage => ∀ i < p.length, ¬ marker <+: (p ++ marker).drop i
  | chunked => 1 ≤ p.length ∧ p.length ≤ 4294967295

instance (p : Bytes) (framing : Framing) : Decidable (Represents p framing) :=
  match framing with
  | endOfMessage => inferInstanceAs (Decidable (∀ _, _))
  | chunked => inferInstanceAs (Decidable (_ ∧ _))

/-- How many bytes of a frame count towards the limit besides those of the message. -/
def surcharge : Framing → Nat
  | endOfMessage => 3
  | chunked => 0

variable {limit : Nat} {a x p bytes : Bytes}

/-! Where the reader of marked messages gives up. -/

/-- Beyond the limit, the first greater-than sign. -/
theorem exists_sign (h : 0x3E ∈ bytes.drop limit) :
    ∃ a x y, bytes = a ++ x ++ 0x3E :: y ∧ a.length = limit ∧ 0x3E ∉ x := by
  obtain ⟨x, y, hdrop, hx⟩ := List.eq_append_cons_of_mem h
  refine ⟨bytes.take limit, x, y, ?_, ?_, hx⟩
  · rw [List.append_assoc, ← hdrop, List.take_append_drop]
  · have hlength := congrArg List.length hdrop
    simp only [List.length_drop, List.length_append, List.length_cons] at hlength
    rw [List.length_take]
    omega

/-- A sign in front of bytes among which there is none. -/
theorem lt_length_of_sign (hx : 0x3E ∉ x) {i : Nat} (h : (a ++ x)[i]? = some 0x3E) :
    i < a.length := by
  by_contra hi
  rw [List.getElem?_append_right (Nat.le_of_not_lt hi)] at h
  exact hx (List.mem_of_getElem? h)

/-- The first sign among bytes is near their beginning just if any is. -/
theorem mem_take_iff {y : Bytes} {b : UInt8} {n : Nat} (hx : b ∉ x) :
    b ∈ (x ++ b :: y).take n ↔ x.length < n := by
  constructor
  · intro h
    by_contra hfar
    rw [List.take_append_of_le_length (Nat.le_of_not_lt hfar)] at h
    exact hx (List.mem_of_mem_take h)
  · intro h
    obtain ⟨k, hk⟩ := Nat.exists_eq_add_of_lt h
    rw [List.take_append, hk]
    exact List.mem_append_right _ (by simp [Nat.add_assoc])

theorem GoneThrough.of_no_sign (ha : a.length ≤ limit) (hx : 0x3E ∉ x)
    (hm : ¬ marker <:+: a ++ x) : GoneThrough limit (a ++ x) where
  unmarked := hm
  within := by
    intro u v huv
    have hlt := lt_length_of_sign (i := u.length) hx (by rw [huv]; simp)
    omega

/-- The reader gives up at a sign beyond the limit at which no mark ends. -/
theorem readMarked_gives_up (ha : a.length = limit) (hx : 0x3E ∉ x)
    (hm : ¬ marker <:+: a ++ x ++ [0x3E]) (rest : Incoming) :
    endOfMessage.read limit (.ofBytes (a ++ x) (.byte 0x3E rest)) =
      (.failure (.tooLarge limit), rest) := by
  have hunmarked : ¬ marker <:+: a ++ x := fun h => hm (h.trans (List.prefix_append _ _).isInfix)
  have hgone : GoneThrough limit (a ++ x) := .of_no_sign (Nat.le_of_eq ha) hx hunmarked
  have hthrough := readMarked_through [] (a ++ x) (.byte 0x3E rest) hgone
  have hend : ¬ reversedMarker.isPrefixOf (0x3E :: (a ++ x).reverse) = true :=
    fun h => hm (reversedMarker_isPrefixOf_concat.mp h).isInfix
  refine hthrough.trans ?_
  rw [List.nil_append, readMarked, if_pos rfl, if_neg hend, if_pos]
  rw [List.length_append]
  omega

/-! Frames of all sizes. -/

theorem read_marked_tooLarge (h : Represents p endOfMessage) (hlarge : limit < p.length + 3)
    (rest : Incoming) : ∃ left, endOfMessage.read limit (.ofBytes (p ++ marker) rest) =
      (.failure (.tooLarge limit), left) := by
  have hmiddle : ∀ k < 3, 0x3E ∈ marker.dropLast.drop k := by decide
  have hsign : 0x3E ∈ (p ++ marker.dropLast).drop limit := by
    rw [List.drop_append]
    exact List.mem_append_right _ (hmiddle _ (by omega))
  obtain ⟨a, x, y, hsplit, ha, hx⟩ := exists_sign hsign
  have hframe : p ++ marker = (a ++ x) ++ 0x3E :: (y ++ [0x3E]) := by
    have hlast : marker = marker.dropLast ++ [0x3E] := rfl
    rw [hlast, ← List.append_assoc, hsplit]
    simp
  have hm : ¬ marker <:+: a ++ x ++ [0x3E] := by
    have hfirst := not_marker_infix h
    rw [List.dropLast_append_of_ne_nil (by decide), hsplit] at hfirst
    refine fun hm => hfirst (hm.trans (List.IsPrefix.isInfix ⟨y, by simp⟩))
  refine ⟨.ofBytes (y ++ [0x3E]) rest, ?_⟩
  rw [hframe, Incoming.ofBytes_append, Incoming.ofBytes_cons]
  exact readMarked_gives_up ha hx hm _

theorem read_marked_message (h : Represents p endOfMessage) (hfits : p.length + 3 ≤ limit)
    (rest : Incoming) :
    endOfMessage.read limit (.ofBytes (p ++ marker) rest) = (.message p, rest) :=
  readMarked_of_opens ⟨(List.append_nil _).symm, not_marker_infix h, hfits⟩ rest

/-- What reading a frame comes to under any limit. Chunked messages are read just up to the limit,
but to a marked one the limit is three bytes shorter, those up to the first sign of the mark. -/
theorem read_frame_within_limit (framing : Framing) (limit : Nat) (p : Bytes) (rest : Incoming)
    (h : framing.Represents p) :
    (p.length + framing.surcharge ≤ limit →
      framing.read limit (.ofBytes (framing.encode p) rest) = (.message p, rest)) ∧
    (limit < p.length + framing.surcharge → ∃ left,
      framing.read limit (.ofBytes (framing.encode p) rest) =
        (.failure (.tooLarge limit), left)) := by
  cases framing with
  | endOfMessage =>
    exact ⟨fun hfits => read_marked_message h hfits rest,
      fun hlarge => read_marked_tooLarge h hlarge rest⟩
  | chunked =>
    obtain ⟨hpos, hmax⟩ := h
    refine ⟨fun hfits => ?_, fun hlarge => ?_⟩
    · have hcarries : Carries limit p chunked := ⟨hpos, Nat.le_min.mpr ⟨hfits, hmax⟩⟩
      exact read_encode hcarries rest
    · have hempty : p.isEmpty = false := by simp [List.length_pos_iff.mp hpos]
      simp only [encode, hempty, Bool.false_eq_true, if_false, Incoming.ofBytes_append]
      exact ⟨_, readChunks_head_tooLarge true [] _ hpos hmax (by simpa [surcharge] using hlarge)⟩

/-- A payload with a greater-than sign in it, read under the least limit and refused under the one
below. -/
theorem read_sign_within_limit :
    Represents [0x61, 0x3E, 0x5D] endOfMessage ∧
    endOfMessage.read 6 (.ofBytes (encode endOfMessage [0x61, 0x3E, 0x5D]) .closed) =
      (.message [0x61, 0x3E, 0x5D], .closed) ∧
    ∃ left, endOfMessage.read 5 (.ofBytes (encode endOfMessage [0x61, 0x3E, 0x5D]) .closed) =
      (.failure (.tooLarge 5), left) :=
  have hrepresents : Represents [0x61, 0x3E, 0x5D] endOfMessage := by decide
  ⟨hrepresents, (read_frame_within_limit endOfMessage 6 _ _ hrepresents).1 (by decide),
    (read_frame_within_limit endOfMessage 5 _ _ hrepresents).2 (by decide)⟩

/-- A marked message as long as the limit is refused as too large; a chunked one is not. -/
theorem full_message_refused :
    Represents [0x3C, 0x61, 0x2F, 0x3E] endOfMessage ∧ [0x3C, 0x61, 0x2F, 0x3E].length ≤ 4 ∧
    endOfMessage.read 4 (.ofBytes (encode endOfMessage [0x3C, 0x61, 0x2F, 0x3E]) .closed) =
      (.failure (.tooLarge 4), .ofBytes [0x5D, 0x5D, 0x3E] .closed) ∧
    chunked.read 4 (.ofBytes (encode chunked [0x3C, 0x61, 0x2F, 0x3E]) .closed) =
      (.message [0x3C, 0x61, 0x2F, 0x3E], .closed) := by
  have hcarries : Carries 4 [0x3C, 0x61, 0x2F, 0x3E] chunked := by decide
  exact ⟨by decide, by decide, by decide, read_encode hcarries .closed⟩

/-! Bytes without a mark. -/

/-- Where there are no signs beyond the limit but a last one, a mark would be near the limit. -/
theorem not_marker_of_take {t : Bytes} (hm : ¬ marker <:+: bytes.take (limit + 6))
    (hbytes : a ++ x ++ t <+: bytes) (ha : a.length = limit) (hx : 0x3E ∉ x) (ht : t.length ≤ 1) :
    ¬ marker <:+: a ++ x ++ t := by
  rintro ⟨u, v, huv⟩
  have hlength := congrArg List.length huv
  simp only [List.length_append, marker, List.length_cons, List.length_nil] at hlength
  -- The first sign of a mark is not the last byte.
  have hsign : (a ++ x)[u.length + 2]? = some 0x3E := by
    have hat : (a ++ x ++ t)[u.length + 2]? = some 0x3E := by rw [← huv]; simp [marker]
    rwa [List.getElem?_append_left (by rw [List.length_append]; omega)] at hat
  have hlt := lt_length_of_sign hx hsign
  have hmark : u ++ marker <+: bytes := (List.prefix_append _ v).trans (huv ▸ hbytes)
  have htake : u ++ marker <+: bytes.take (limit + 6) := by
    refine List.prefix_take_iff.mpr ⟨hmark, ?_⟩
    simp only [List.length_append, marker, List.length_cons, List.length_nil]
    omega
  exact hm ((List.suffix_append u marker).isInfix.trans htake.isInfix)

variable {last : Incoming}

/-- The first sign beyond the limit is where the reader gives up. -/
theorem read_unmarked_sign (hm : ¬ marker <:+: bytes.take (limit + 6)) (last : Incoming)
    (hsign : 0x3E ∈ bytes.drop limit) :
    ∃ a x y, bytes = a ++ x ++ 0x3E :: y ∧ a.length = limit ∧ 0x3E ∉ x ∧
      endOfMessage.read limit (.ofBytes bytes last) =
        (.failure (.tooLarge limit), .ofBytes y last) := by
  obtain ⟨a, x, y, rfl, ha, hx⟩ := exists_sign hsign
  have hprefix : a ++ x ++ [0x3E] <+: a ++ x ++ 0x3E :: y := ⟨y, by simp⟩
  refine ⟨a, x, y, rfl, ha, hx, ?_⟩
  rw [Incoming.ofBytes_append, Incoming.ofBytes_cons]
  exact readMarked_gives_up ha hx (not_marker_of_take hm hprefix ha hx (by simp)) _

/-- Without a sign beyond the limit the reader takes all that comes. -/
theorem read_unmarked_no_sign (hm : ¬ marker <:+: bytes.take (limit + 6)) (last : Incoming)
    (hlong : limit ≤ bytes.length) (hsign : 0x3E ∉ bytes.drop limit) :
    endOfMessage.read limit (.ofBytes bytes last) =
      readMarked limit bytes.length bytes.reverse last := by
  have hsplit : bytes.take limit ++ bytes.drop limit = bytes := List.take_append_drop limit bytes
  have ha : (bytes.take limit).length = limit := by
    rw [List.length_take]
    omega
  have hprefix : bytes.take limit ++ bytes.drop limit ++ [] <+: bytes := by simp [hsplit]
  have hunmarked := not_marker_of_take hm hprefix ha hsign (by simp)
  have hgone : GoneThrough limit (bytes.take limit ++ bytes.drop limit) :=
    .of_no_sign (Nat.le_of_eq ha) hsign (by simpa using hunmarked)
  rw [hsplit] at hgone
  exact readMarked_through [] bytes last hgone

/-- What the reader of marked messages makes of more bytes than the limit allows with its mark. It
gives up at the first greater-than sign beyond the limit, and without one takes all the bytes, to
fail at their end if the stream is closed there and to go on otherwise. So it fails with the limit
and a mark's length taken at most just if there is a sign among the six bytes beyond the limit. -/
theorem read_unmarked (hlong : limit + 6 < bytes.length)
    (hm : ¬ marker <:+: bytes.take (limit + 6)) (hlast : last = .silent ∨ last = .closed) :
    (0x3E ∈ bytes.drop limit → ∃ a x y, bytes = a ++ x ++ 0x3E :: y ∧ a.length = limit ∧
      0x3E ∉ x ∧ endOfMessage.read limit (.ofBytes bytes last) =
        (.failure (.tooLarge limit), .ofBytes y last)) ∧
    (0x3E ∉ bytes.drop limit → endOfMessage.read limit (.ofBytes bytes last) =
      (if last = .closed then .failure (.tooLarge limit) else .blocked, last)) ∧
    (0x3E ∈ (bytes.drop limit).take 6 ↔ ∃ y, bytes.length ≤ y.length + (limit + 6) ∧
      endOfMessage.read limit (.ofBytes bytes last) =
        (.failure (.tooLarge limit), .ofBytes y last)) := by
  have hwhole : 0x3E ∉ bytes.drop limit → endOfMessage.read limit (.ofBytes bytes last) =
      (if last = .closed then .failure (.tooLarge limit) else .blocked, last) := by
    intro hsign
    rw [read_unmarked_no_sign hm last (by omega) hsign]
    obtain rfl | rfl := hlast
    · rfl
    · rw [readMarked, atEnd, if_pos (by omega), if_pos rfl]
  refine ⟨read_unmarked_sign hm last, hwhole, ?_⟩
  by_cases hsign : 0x3E ∈ bytes.drop limit
  · obtain ⟨a, x, y, hsplit, ha, hx, hread⟩ := read_unmarked_sign hm last hsign
    have hdrop : bytes.drop limit = x ++ 0x3E :: y := by
      rw [hsplit, List.append_assoc, ← ha, List.drop_left]
    have hlength : bytes.length = limit + x.length + 1 + y.length := by
      simp only [hsplit, List.length_append, List.length_cons, ha]
      omega
    rw [hdrop, mem_take_iff hx, hread]
    constructor
    · intro hshort
      exact ⟨y, by omega, rfl⟩
    · rintro ⟨y', hfew, hleft⟩
      have hsize := congrArg (fun result => result.2.size) hleft
      simp only [Incoming.size_ofBytes] at hsize
      omega
  · refine ⟨fun hnear => absurd (List.mem_of_mem_take hnear) hsign, ?_⟩
    rintro ⟨y, hfew, hread⟩
    rw [hwhole hsign] at hread
    -- Nothing is left, but some of the bytes should be.
    have hsize := congrArg (fun result => result.2.size) hread
    simp only [Incoming.size_ofBytes] at hsize
    omega

/-- Bytes with a greater-than sign close behind a limit of four. -/
def signed : Bytes := [0x61, 0x3E, 0x62, 0x63, 0x64, 0x65, 0x3E, 0x66, 0x67, 0x68, 0x69]

theorem read_near_sign :
    (4 + 6 < signed.length ∧ ¬ marker <:+: signed.take (4 + 6)) ∧
    ∃ y, signed.length ≤ y.length + (4 + 6) ∧ endOfMessage.read 4 (.ofBytes signed .silent) =
      (.failure (.tooLarge 4), .ofBytes y .silent) :=
  have hlong : 4 + 6 < signed.length := by decide
  have hm : ¬ marker <:+: signed.take (4 + 6) := by decide
  ⟨⟨hlong, hm⟩, (read_unmarked hlong hm (.inl rfl)).2.2.mp (by decide)⟩

/-- Bytes without a sign are all read, however many there are. -/
theorem letters_all_read :
    ¬ marker <:+: (List.replicate 30 0x78).take (4 + 6) ∧
    4 + 6 < (List.replicate 30 (0x78 : UInt8)).length ∧
    endOfMessage.read 4 (.ofBytes (List.replicate 30 0x78) .closed) =
      (.failure (.tooLarge 4), .closed) ∧
    ∀ n, endOfMessage.read 4 (.ofBytes (List.replicate n 0x78) .silent) = (.blocked, .silent) := by
  refine ⟨by decide, by decide, by decide, fun n => ?_⟩
  have hsign : (0x3E : UInt8) ∉ List.replicate n 0x78 := by simp
  have hm : ¬ marker <:+: List.replicate n 0x78 := fun h => hsign (h.subset (by decide))
  have hgone : GoneThrough 4 ([] ++ List.replicate n 0x78) :=
    .of_no_sign (Nat.zero_le _) hsign hm
  exact readMarked_through [] _ .silent hgone

end Netconf.Framing
