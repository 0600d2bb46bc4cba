import Netconf.Proofs.Framing.First
import Netconf.Proofs.Text.Decimal

/-! Which messages a framing can carry, and that a frame is read back as the message that was put
into it, with everything behind it left on the stream. -/
namespace Netconf.Framing

/-- The messages that a framing carries to a reader with a limit. A marked message may hold the
marker nowhere but at the end of its frame; a chunked one must fit into one chunk and have a byte
at least. -/
def Carries (limit : Nat) (p : Bytes) : Framing → Prop
  | endOfMessage => p.length + 6 ≤ limit ∧ ∀ i < p.length, ¬ marker <+: (p ++ marker).drop i
  | chunked => 1 ≤ p.length ∧ p.length ≤ min limit maxChunkSize

instance (limit : Nat) (p : Bytes) (framing : Framing) : Decidable (Carries limit p framing) :=
  match framing with
  | endOfMessage => inferInstanceAs (Decidable (_ ∧ _))
  | chunked => inferInstanceAs (Decidable (_ ∧ _))

/-- The frame of such a message begins with it. -/
theorem Carries.opens {limit : Nat} {p : Bytes} (h : Carries limit p endOfMessage) :
    Opens limit (p ++ marker) p [] where
  split := (List.append_nil _).symm
  first := not_marker_infix h.2
  fits := by
    have := h.1
    omega

/-- No frame is empty. -/
theorem encode_ne_nil (framing : Framing) (p : Bytes) : framing.encode p ≠ [] := by
  cases framing <;> simp [encode, marker, chunkEnd]

/-- The digits of a size lead behind the last of them. -/
theorem readChunks_digits {limit sofar n : Nat} (read : Bytes) (rest : Incoming) (hpos : 1 ≤ n)
    (hmax : n < 10 ^ maxChunkDigits) :
    readChunks limit .sizeStart sofar read (.ofBytes (Text.decimalBytes n) rest) =
      readChunks limit (.size (Text.decimalBytes n).length n) sofar read rest := by
  induction n using Nat.strongRecOn generalizing rest with
  | ind n ih =>
    have hd := Text.digitByte_toNat n
    by_cases hn : n < 10
    · have hsign : Text.digitByte n ≠ 0x23 := by
        intro h
        rw [h] at hd
        simp at hd
        omega
      have hdigit : 0x31 ≤ Text.digitByte n ∧ Text.digitByte n ≤ 0x39 := by
        rw [UInt8.le_iff_toNat_le, UInt8.le_iff_toNat_le, hd]
        simp
        omega
      rw [Text.decimalBytes_of_lt hn, Incoming.ofBytes_cons, Incoming.ofBytes_nil, readChunks]
      simp only [Place.step, if_neg hsign, if_pos hdigit, Place.isData, Bool.false_eq_true,
        if_false, List.length_singleton]
      rw [hd, Nat.mod_eq_of_lt hn, Nat.add_sub_cancel_left]
    · have hq := ih (n / 10) (by omega) (.byte (Text.digitByte n) rest) (by omega) (by omega)
      have hdigits : (Text.decimalBytes (n / 10)).length < maxChunkDigits := by
        have h := Text.length_decimalBytes_le (n := n / 10) (k := 8) (by
          simp only [maxChunkDigits] at hmax
          omega)
        exact Nat.lt_succ_of_le h
      have hnewline : Text.digitByte n ≠ 0x0A := by
        intro h
        rw [h] at hd
        simp at hd
        omega
      have hdigit : 0x30 ≤ Text.digitByte n ∧ Text.digitByte n ≤ 0x39 := by
        rw [UInt8.le_iff_toNat_le, UInt8.le_iff_toNat_le, hd]
        simp
        omega
      rw [Text.decimalBytes_of_le (by omega), Incoming.ofBytes_append, Incoming.ofBytes_cons,
        Incoming.ofBytes_nil, hq, readChunks]
      simp only [Place.step, if_neg hnewline, if_pos hdigit, if_pos hdigits, Place.isData,
        Bool.false_eq_true, if_false, List.length_append, List.length_singleton]
      rw [hd, Nat.add_sub_cancel_left, Nat.mul_comm, Nat.div_add_mod]

/-- The head of a chunk leads to where its size is judged. -/
theorem readChunks_size {limit sofar n : Nat} (first : Bool) (read : Bytes) (rest : Incoming)
    (hpos : 1 ≤ n) (hmax : n ≤ maxChunkSize) :
    readChunks limit (.newline first) sofar read (.ofBytes (chunkHead n) rest) =
      readChunks limit (.size (Text.decimalBytes n).length n) sofar read (.byte 0x0A rest) := by
  have hhead : chunkHead n = 0x0A :: 0x23 :: (Text.decimalBytes n ++ [0x0A]) := rfl
  have hdigits : n < 10 ^ maxChunkDigits := by
    simp only [maxChunkSize, Text.maxWord32] at hmax
    simp only [maxChunkDigits]
    omega
  rw [hhead, Incoming.ofBytes_cons, Incoming.ofBytes_cons, Incoming.ofBytes_append, readChunks]
  simp only [Place.step, if_true, Place.isData, Bool.false_eq_true, if_false]
  rw [readChunks]
  simp only [Place.step, if_true, Place.isData, Bool.false_eq_true, if_false]
  rw [readChunks_digits read _ hpos hdigits, Incoming.ofBytes_cons, Incoming.ofBytes_nil]

/-- The head of a chunk that fits leads into the chunk. -/
theorem readChunks_head {limit sofar n : Nat} (first : Bool) (read : Bytes) (rest : Incoming)
    (hpos : 1 ≤ n) (hmax : n ≤ maxChunkSize) (hfit : sofar + n ≤ limit) :
    readChunks limit (.newline first) sofar read (.ofBytes (chunkHead n) rest) =
      readChunks limit (.data n) sofar read rest := by
  rw [readChunks_size first read rest hpos hmax, readChunks]
  simp only [Place.step, if_true, enterChunk, if_neg (Nat.not_lt.mpr hmax),
    if_neg (Nat.not_lt.mpr hfit), Place.isData, Bool.false_eq_true, if_false]

/-- A chunk with which a message gets too large is not entered. -/
theorem readChunks_head_tooLarge {limit sofar n : Nat} (first : Bool) (read : Bytes)
    (rest : Incoming) (hpos : 1 ≤ n) (hmax : n ≤ maxChunkSize) (hlarge : limit < sofar + n) :
    readChunks limit (.newline first) sofar read (.ofBytes (chunkHead n) rest) =
      (.failure (.tooLarge limit), rest) := by
  rw [readChunks_size first read rest hpos hmax, readChunks]
  simp only [Place.step, if_true, enterChunk, if_neg (Nat.not_lt.mpr hmax), if_pos hlarge]

/-- The data of a chunk is taken whole. -/
theorem readChunks_data {limit : Nat} (data : Bytes) (sofar : Nat) (read : Bytes) (rest : Incoming)
    (hne : data ≠ []) :
    readChunks limit (.data data.length) sofar read (.ofBytes data rest) =
      readChunks limit (.newline false) (sofar + data.length) (data.reverse ++ read) rest := by
  induction data generalizing sofar read with
  | nil => exact absurd rfl hne
  | cons b data ih =>
    rw [Incoming.ofBytes_cons, readChunks]
    by_cases hd : data = []
    · subst hd
      simp [Place.step, Place.isData]
    · have hpos := List.length_pos_iff.mpr hd
      have hleft : ¬ (b :: data).length ≤ 1 := by simp; omega
      have hnext := ih (sofar + 1) (b :: read) hd
      simp only [Place.step, if_neg hleft, Place.isData, if_true]
      have hsize : sofar + 1 + data.length = sofar + (b :: data).length := by simp; omega
      rw [List.length_cons, Nat.add_sub_cancel, hnext, hsize]
      simp

/-- What follows the last chunk ends a message that has a byte at least. -/
theorem readChunks_end {limit sofar : Nat} (read : Bytes) (rest : Incoming) (h : sofar ≠ 0) :
    readChunks limit (.newline false) sofar read (.ofBytes chunkEnd rest) =
      (.message read.reverse, rest) := by
  simp [chunkEnd, readChunks, Place.step, Place.isData, h]

/-- A frame is read back as the message in it, and nothing behind it is touched. -/
theorem read_encode {framing : Framing} {limit : Nat} {p : Bytes} (h : framing.Carries limit p)
    (rest : Incoming) :
    framing.read limit (.ofBytes (framing.encode p) rest) = (.message p, rest) := by
  cases framing with
  | endOfMessage => exact readMarked_of_opens h.opens rest
  | chunked =>
    obtain ⟨hpos, hmax⟩ := h
    have hne : p ≠ [] := List.length_pos_iff.mp hpos
    have hempty : p.isEmpty = false := by simp [hne]
    simp only [read, encode, hempty, Bool.false_eq_true, if_false, Incoming.ofBytes_append]
    rw [readChunks_head true [] _ hpos (by omega) (by omega), readChunks_data p 0 [] _ hne,
      readChunks_end _ rest (by omega)]
    simp

end Netconf.Framing
