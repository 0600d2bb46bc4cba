import Mathlib.Data.List.Basic
import Mathlib.Data.List.Induction
import Netconf.Proofs.Framing.Whole

/-! Chunked messages by their grammar. The reader takes just the frames that the grammar allows and
whose payload is within the limit, in whatever chunks it comes, and fails on all other bytes. -/
namespace Netconf.Framing

/-- The number that decimal digits spell. -/
def numeral (ds : Bytes) : Nat := ds.foldl (fun n b => n * 10 + (b.toNat - 0x30)) 0

/-- Decimal digits, one at least and the first of them not zero. -/
structure IsNumeral (ds : Bytes) : Prop where
  digits : ∀ b ∈ ds, 0x30 ≤ b ∧ b ≤ 0x39
  ne_nil : ds ≠ []
  leading : ds.head? ≠ some 0x30

/-- The digits of the size of a chunk: at most ten of them, and a number of at most 32 bits. -/
structure IsSize (ds : Bytes) (n : Nat) : Prop where
  isNumeral : IsNumeral ds
  length_le : ds.length ≤ 10
  spells : numeral ds = n
  le_max : n ≤ 4294967295

instance (ds : Bytes) : Decidable (IsNumeral ds) :=
  decidable_of_iff (ds.all (fun b => 0x30 ≤ b ∧ b ≤ 0x39) = true ∧ ds ≠ [] ∧
      ds.head? ≠ some 0x30)
    ⟨fun ⟨digits, hne, leading⟩ => ⟨by simpa using digits, hne, leading⟩,
      fun h => ⟨by simpa using h.digits, h.ne_nil, h.leading⟩⟩

instance (ds : Bytes) (n : Nat) : Decidable (IsSize ds n) :=
  decidable_of_iff (IsNumeral ds ∧ ds.length ≤ 10 ∧ numeral ds = n ∧ n ≤ 4294967295)
    ⟨fun ⟨hds, hlength, hn, hmax⟩ => ⟨hds, hlength, hn, hmax⟩, fun h => ⟨h.1, h.2, h.3, h.4⟩⟩

/-- A chunk: some bytes and the digits of their number. -/
structure Chunk where
  digits : Bytes
  data : Bytes
  isSize : IsSize digits data.length := by decide

/-- A chunk on the wire: a line feed, a number sign, its size, a line feed and the bytes. -/
def Chunk.bytes (c : Chunk) : Bytes := 0x0A :: 0x23 :: (c.digits ++ 0x0A :: c.data)

/-- Chunks one behind the other. -/
def chunkBytes (cs : List Chunk) : Bytes := cs.flatMap Chunk.bytes

/-- The payload that chunks carry. -/
def chunkData (cs : List Chunk) : Bytes := cs.flatMap Chunk.data

/-- The bytes begin with a frame in which there is a payload: one or more chunks, a line feed, two
number signs and a line feed. -/
def BeginsChunked (bytes p rest : Bytes) : Prop :=
  ∃ cs, cs ≠ [] ∧ bytes = chunkBytes cs ++ [0x0A, 0x23, 0x23, 0x0A] ++ rest ∧ p = chunkData cs

@[simp] theorem chunkBytes_nil : chunkBytes [] = [] := rfl

@[simp] theorem chunkBytes_cons (c : Chunk) (cs : List Chunk) :
    chunkBytes (c :: cs) = c.bytes ++ chunkBytes cs := rfl

@[simp] theorem chunkBytes_append (cs cs' : List Chunk) :
    chunkBytes (cs ++ cs') = chunkBytes cs ++ chunkBytes cs' := List.flatMap_append

@[simp] theorem chunkData_nil : chunkData [] = [] := rfl

@[simp] theorem chunkData_cons (c : Chunk) (cs : List Chunk) :
    chunkData (c :: cs) = c.data ++ chunkData cs := rfl

@[simp] theorem chunkData_append (cs cs' : List Chunk) :
    chunkData (cs ++ cs') = chunkData cs ++ chunkData cs' := List.flatMap_append

/-! Sizes in digits. -/

theorem numeral_concat (ds : Bytes) (b : UInt8) :
    numeral (ds ++ [b]) = numeral ds * 10 + (b.toNat - 0x30) := by
  simp [numeral]

theorem digit_toNat {b : UInt8} (h : 0x30 ≤ b ∧ b ≤ 0x39) : 0x30 ≤ b.toNat ∧ b.toNat ≤ 0x39 := by
  simpa [UInt8.le_iff_toNat_le] using h

namespace IsNumeral

variable {ds : Bytes} {b : UInt8}

theorem singleton (h : 0x31 ≤ b ∧ b ≤ 0x39) : IsNumeral [b] where
  digits := by
    intro c hc
    rw [List.mem_singleton.mp hc]
    exact ⟨UInt8.le_trans (by decide) h.1, h.2⟩
  ne_nil := by simp
  leading := by
    intro hzero
    obtain rfl : b = 0x30 := by simpa using hzero
    exact absurd h.1 (by decide)

theorem concat (h : IsNumeral ds) (hb : 0x30 ≤ b ∧ b ≤ 0x39) : IsNumeral (ds ++ [b]) where
  digits := by
    intro c hc
    obtain hc | hc := List.mem_append.mp hc
    · exact h.digits c hc
    · rwa [List.mem_singleton.mp hc]
  ne_nil := by simp
  leading := by
    rw [List.head?_append_of_ne_nil _ h.ne_nil]
    exact h.leading

theorem dropLast (h : IsNumeral (ds ++ [b])) (hne : ds ≠ []) : IsNumeral ds where
  digits := fun c hc => h.digits c (List.mem_append_left _ hc)
  ne_nil := hne
  leading := by
    have hleading := h.leading
    rwa [List.head?_append_of_ne_nil _ hne] at hleading

/-- Digits of which the first is not zero are the decimal form of a number other than zero. -/
theorem eq_decimalBytes (h : IsNumeral ds) :
    1 ≤ numeral ds ∧ ds = Text.decimalBytes (numeral ds) := by
  induction ds using List.reverseRecOn with
  | nil => exact absurd rfl h.ne_nil
  | append_singleton ds b ih =>
    have hb := digit_toNat (h.digits b (by simp))
    have hbyte : ∀ n, n % 10 = b.toNat - 0x30 → Text.digitByte n = b := by
      intro n hn
      apply UInt8.toNat_inj.mp
      rw [Text.digitByte_toNat]
      omega
    have hconcat := numeral_concat ds b
    by_cases hne : ds = []
    · subst hne
      have hzero : b.toNat ≠ 0x30 := fun hzero =>
        h.leading (congrArg some (UInt8.toNat_inj.mp hzero))
      have hnil : numeral [] = 0 := rfl
      refine ⟨by omega, ?_⟩
      rw [Text.decimalBytes_of_lt (by omega), hbyte _ (by omega), List.nil_append]
    · obtain ⟨hpos, hds⟩ := ih (h.dropLast hne)
      refine ⟨by omega, ?_⟩
      have hquotient : numeral (ds ++ [b]) / 10 = numeral ds := by omega
      rw [Text.decimalBytes_of_le (by omega), hquotient, ← hds, hbyte _ (by omega)]

end IsNumeral

/-! What the reader goes through. -/

theorem Place.step_eq_finish {limit sofar : Nat} {b : UInt8} {place : Place}
    (h : place.step limit sofar b = .finish) : place = lastNewline ∧ b = 0x0A ∧ sofar ≠ 0 := by
  cases place <;> simp only [Place.step, enterChunk] at h <;> grind

/-- No byte makes the reader take the stream for closed. -/
theorem Place.step_ne_closed (limit sofar : Nat) (b : UInt8) (place : Place) :
    place.step limit sofar b ≠ .fail .closed := by
  cases place <;> simp only [Place.step, enterChunk] <;> grind

/-- The part of a chunk, or of the end of a frame, that is behind a place, and the data in it. -/
inductive Place.Part : Place → Bytes → Bytes → Prop
  | newline (isFirst : Bool) : (newline isFirst).Part [] []
  | numberSign : numberSign.Part [0x0A] []
  | sizeStart : sizeStart.Part [0x0A, 0x23] []
  | size {ds : Bytes} (isNumeral : IsNumeral ds) (length_le : ds.length ≤ 10) :
      (size ds.length (numeral ds)).Part (0x0A :: 0x23 :: ds) []
  | data {ds d : Bytes} {left : Nat} (isSize : IsSize ds (d.length + left)) (left_pos : 1 ≤ left) :
      (data left).Part (0x0A :: 0x23 :: (ds ++ 0x0A :: d)) d
  | lastNewline : lastNewline.Part [0x0A, 0x23, 0x23] []

/-- The number of bytes that a chunk still has at a place. -/
def Place.left : Place → Nat
  | data left => left
  | _ => 0

/-- The reader has gone through the bytes `a` and stands at a place. Behind it are chunks and a part
of what follows them, and nothing has been too large. -/
structure ChunksRead (limit : Nat) (a read : Bytes) (place : Place) : Prop where
  split : ∃ cs part data, a = chunkBytes cs ++ part ∧ place.Part part data ∧
    read.reverse = chunkData cs ++ data
  fits : read.length + place.left ≤ limit
  first : place = .newline true → a = []

namespace ChunksRead

variable {limit : Nat} {a read : Bytes} {place next : Place} {b : UInt8}

theorem start (limit : Nat) : ChunksRead limit [] [] (.newline true) where
  split := ⟨[], [], [], rfl, .newline true, rfl⟩
  fits := Nat.zero_le _
  first := fun _ => rfl

/-- A byte that is no data makes a part longer. -/
theorem move {cs : List Chunk} {part part' data : Bytes}
    (hread : read.reverse = chunkData cs ++ data) (hpart : next.Part part' data)
    (hbytes : part' = part ++ [b])
    (hfits : read.length + next.left ≤ limit) (hnext : next ≠ .newline true) :
    ChunksRead limit (chunkBytes cs ++ part ++ [b]) read next where
  split := ⟨cs, part', data, by rw [hbytes, List.append_assoc], hpart, hread⟩
  fits := hfits
  first := fun h => absurd h hnext

/-- A byte of a chunk that is not its last. -/
theorem moreData {cs : List Chunk} {ds data : Bytes} {left : Nat}
    (hread : read.reverse = chunkData cs ++ data) (hsize : IsSize ds (data.length + left))
    (hleft : 2 ≤ left) (hfits : read.length + left ≤ limit) :
    ChunksRead limit (chunkBytes cs ++ 0x0A :: 0x23 :: (ds ++ 0x0A :: data) ++ [b]) (b :: read)
      (.data (left - 1)) where
  split := by
    have hsum : (data ++ [b]).length + (left - 1) = data.length + left := by
      rw [List.length_append, List.length_singleton]
      omega
    exact ⟨cs, _, data ++ [b], by simp, .data (hsum ▸ hsize) (by omega), by simp [hread]⟩
  fits := by
    rw [Place.left, List.length_cons]
    omega
  first := by simp

/-- The last byte of a chunk completes it. -/
theorem lastData {cs : List Chunk} {ds data : Bytes} (hread : read.reverse = chunkData cs ++ data)
    (hsize : IsSize ds (data.length + 1)) (hfits : read.length + 1 ≤ limit) :
    ChunksRead limit (chunkBytes cs ++ 0x0A :: 0x23 :: (ds ++ 0x0A :: data) ++ [b]) (b :: read)
      (.newline false) where
  split := by
    have hwhole : IsSize ds (data ++ [b]).length := by rwa [List.length_append]
    refine ⟨cs ++ [⟨ds, data ++ [b], hwhole⟩], [], [], ?_, .newline false, ?_⟩
    · simp [Chunk.bytes]
    · simp [hread]
  fits := hfits
  first := by simp

/-- A byte leads from one place to the next, and stands behind that. -/
theorem step (h : ChunksRead limit a read place)
    (hs : place.step limit read.length b = .to next) :
    ChunksRead limit (a ++ [b]) (if place.isData then b :: read else read) next := by
  obtain ⟨cs, part, data, rfl, hpart, hread⟩ := h.split
  have hfits := h.fits
  cases hpart with
  | newline isFirst =>
    simp only [Place.step] at hs
    split at hs <;> cases hs
    next hb => exact move hread .numberSign (by rw [hb]; rfl) hfits (by simp)
  | numberSign =>
    simp only [Place.step] at hs
    split at hs <;> cases hs
    next hb => exact move hread .sizeStart (by rw [hb]; rfl) hfits (by simp)
  | sizeStart =>
    simp only [Place.step] at hs
    split at hs
    · next hb =>
      cases hs
      exact move hread .lastNewline (by rw [hb]; rfl) hfits (by simp)
    · split at hs <;> cases hs
      next hb =>
      have hnumeral : numeral [b] = b.toNat - 0x30 := by simp [numeral]
      have hpart := Place.Part.size (IsNumeral.singleton hb) (by simp)
      rw [hnumeral] at hpart
      exact move hread hpart rfl hfits (by simp)
  | @size ds hds hlength =>
    simp only [Place.step] at hs
    split at hs
    · next hb =>
      rw [enterChunk] at hs
      split at hs
      · cases hs
      · split at hs <;> cases hs
        next hmax hlimit =>
        have hsize : IsSize ds (([] : Bytes).length + numeral ds) :=
          ⟨hds, hlength, (Nat.zero_add _).symm, by simpa [maxChunkSize, Text.maxWord32] using hmax⟩
        exact move hread (.data hsize hds.eq_decimalBytes.1) (by rw [hb]; rfl)
          (Nat.le_of_not_lt hlimit) (by simp)
    · split at hs
      · next hb =>
        split at hs <;> cases hs
        next hdigits =>
        have hlength : (ds ++ [b]).length = ds.length + 1 := List.length_append
        have hpart := Place.Part.size (hds.concat hb) (hlength ▸ hdigits)
        rw [hlength, numeral_concat] at hpart
        exact move hread hpart rfl hfits (by simp)
      · cases hs
  | @data ds _ left hsize hleft =>
    simp only [Place.step] at hs
    split at hs <;> cases hs
    · next hlast =>
      obtain rfl : left = 1 := by omega
      exact lastData hread hsize hfits
    · next hmore => exact moreData hread hsize (by omega) hfits
  | lastNewline =>
    simp only [Place.step] at hs
    split at hs
    · split at hs <;> cases hs
    · cases hs

/-- The line feed behind two number signs completes a frame. -/
theorem finish (h : ChunksRead limit a read place)
    (hs : place.step limit read.length b = .finish) (rest : Bytes) :
    BeginsChunked (a ++ b :: rest) read.reverse rest ∧ read.reverse.length ≤ limit := by
  obtain ⟨rfl, rfl, hne⟩ := Place.step_eq_finish hs
  obtain ⟨cs, part, data, rfl, hpart, hread⟩ := h.split
  cases hpart
  rw [List.append_nil] at hread
  refine ⟨⟨cs, ?_, by simp, hread⟩, by simpa [Place.left] using h.fits⟩
  rintro rfl
  have hlength := congrArg List.length hread
  simp at hlength
  exact hne (by simp [hlength])

end ChunksRead

/-- The reader stands at a place and finds a message in what it has gone through and what comes. -/
theorem beginsChunked_of_readChunks {limit : Nat} {place : Place} {m : Bytes}
    {last input : Incoming} (hlast : last = .silent ∨ last = .closed) {a read : Bytes} (b : Bytes)
    (h : ChunksRead limit a read place)
    (hread : readChunks limit place read.length read (.ofBytes b last) = (.message m, input)) :
    ∃ rest, BeginsChunked (a ++ b) m rest ∧ m.length ≤ limit ∧ input = .ofBytes rest last := by
  induction b generalizing a read place with
  | nil => obtain rfl | rfl := hlast <;> simp [readChunks] at hread
  | cons x b ih =>
    rw [Incoming.ofBytes_cons, readChunks] at hread
    rcases hs : place.step limit read.length x with next | _ | e
    · have hnext := ih (h.step hs)
      rw [hs] at hread
      cases hdata : place.isData <;> simp only [hdata] at hread hnext <;>
        simpa using hnext hread
    · rw [hs] at hread
      cases hread
      exact ⟨b, (h.finish hs b).1, (h.finish hs b).2, rfl⟩
    · rw [hs] at hread
      cases hread

/-- The reader takes a stream for closed between messages only if nothing has come in. -/
theorem eq_nil_of_readChunks {limit : Nat} {place : Place} {input : Incoming} {a read : Bytes}
    (b : Bytes) (h : ChunksRead limit a read place)
    (hread : readChunks limit place read.length read (.ofBytes b .closed) =
      (.failure .closed, input)) : a ++ b = [] := by
  induction b generalizing a read place with
  | nil =>
    have hend : place.atEnd = .closed := by simpa [readChunks] using congrArg Prod.fst hread
    have hfirst : place = .newline true := by
      unfold Place.atEnd at hend
      split at hend
      · rfl
      · cases hend
    rw [h.first hfirst, List.nil_append]
  | cons x b ih =>
    rw [Incoming.ofBytes_cons, readChunks] at hread
    rcases hs : place.step limit read.length x with next | _ | e
    · have hnext := ih (h.step hs)
      rw [hs] at hread
      cases hdata : place.isData <;> simp only [hdata] at hread hnext <;>
        simpa using hnext hread
    · rw [hs] at hread
      cases hread
    · rw [hs] at hread
      have he : e = .closed := by simpa using congrArg Prod.fst hread
      exact absurd (he ▸ hs) (Place.step_ne_closed limit _ x place)

/-! What the grammar allows is read. -/

theorem Chunk.bytes_eq (c : Chunk) : c.bytes = chunkHead c.data.length ++ c.data := by
  have hdigits := c.isSize.isNumeral.eq_decimalBytes.2
  rw [c.isSize.spells] at hdigits
  have hhead : chunkHead c.data.length =
      0x0A :: 0x23 :: (Text.decimalBytes c.data.length ++ [0x0A]) := rfl
  rw [hhead, ← hdigits, bytes]
  simp

theorem Chunk.data_ne_nil (c : Chunk) : c.data ≠ [] := by
  have hpos := c.isSize.isNumeral.eq_decimalBytes.1
  rw [c.isSize.spells] at hpos
  exact List.length_pos_iff.mp hpos

variable {limit sofar : Nat}

theorem readChunks_chunk {first : Bool} (c : Chunk) (read : Bytes) (rest : Incoming)
    (hfits : sofar + c.data.length ≤ limit) :
    readChunks limit (.newline first) sofar read (.ofBytes c.bytes rest) =
      readChunks limit (.newline false) (sofar + c.data.length) (c.data.reverse ++ read) rest := by
  rw [c.bytes_eq, Incoming.ofBytes_append,
    readChunks_head first read _ (List.length_pos_iff.mpr c.data_ne_nil) c.isSize.le_max hfits,
    readChunks_data c.data sofar read rest c.data_ne_nil]

theorem readChunks_chunks (cs : List Chunk) (read : Bytes) (rest : Incoming) (hne : sofar ≠ 0)
    (hfits : sofar + (chunkData cs).length ≤ limit) :
    readChunks limit (.newline false) sofar read (.ofBytes (chunkBytes cs ++ chunkEnd) rest) =
      (.message (read.reverse ++ chunkData cs), rest) := by
  induction cs generalizing sofar read with
  | nil => simpa using readChunks_end read rest hne
  | cons c cs ih =>
    rw [chunkData_cons, List.length_append] at hfits
    rw [chunkBytes_cons, List.append_assoc, Incoming.ofBytes_append,
      readChunks_chunk c read _ (by omega), ih _ (by omega) (by omega)]
    simp

theorem readChunks_of_beginsChunked {bytes p rest : Bytes} (last : Incoming)
    (h : BeginsChunked bytes p rest) (hfits : p.length ≤ limit) :
    chunked.read limit (.ofBytes bytes last) = (.message p, .ofBytes rest last) := by
  obtain ⟨cs, hne, rfl, rfl⟩ := h
  cases cs with
  | nil => exact absurd rfl hne
  | cons c cs =>
    rw [chunkData_cons, List.length_append] at hfits
    have hpos := List.length_pos_iff.mpr c.data_ne_nil
    rw [read, Incoming.ofBytes_append, chunkBytes_cons, List.append_assoc, Incoming.ofBytes_append,
      readChunks_chunk c [] _ (by omega)]
    exact (readChunks_chunks cs _ _ (by omega) (by omega)).trans (by simp)

/-- The reader of chunked messages gets the payload of the frame that the bytes begin with, if they
begin with one and it is within the limit, and leaves what stands behind the frame. -/
theorem readChunks_eq_message_iff {bytes p : Bytes} {last input : Incoming}
    (hlast : last = .silent ∨ last = .closed) :
    chunked.read limit (.ofBytes bytes last) = (.message p, input) ↔
      ∃ rest, BeginsChunked bytes p rest ∧ p.length ≤ limit ∧ input = .ofBytes rest last := by
  constructor
  · exact beginsChunked_of_readChunks hlast bytes (.start limit)
  · rintro ⟨rest, h, hfits, rfl⟩
    exact readChunks_of_beginsChunked last h hfits

/-- What the reader makes of any bytes on a stream that is closed then. It gets the payload of a
chunked frame that the bytes begin with and that is within the limit, with the bytes behind the
frame left. On all other bytes it fails, and takes the stream for closed between messages just if
there are none. -/
theorem read_chunked (limit : Nat) (bytes : Bytes) :
    (∀ p rest, chunked.read limit (.ofBytes bytes .closed) = (.message p, .ofBytes rest .closed) ↔
      BeginsChunked bytes p rest ∧ p.length ≤ limit) ∧
    ((∀ p rest, BeginsChunked bytes p rest → limit < p.length) → ∃ e input,
      chunked.read limit (.ofBytes bytes .closed) = (.failure e, input) ∧
        (e = .closed ↔ bytes = [])) := by
  refine ⟨fun p rest => ?_, fun hother => ?_⟩
  · rw [readChunks_eq_message_iff (.inr rfl)]
    constructor
    · rintro ⟨rest', h, hfits, hrest⟩
      have heq := congrArg Incoming.bytes hrest
      simp only [Incoming.bytes_ofBytes, Incoming.bytes, List.append_nil] at heq
      exact ⟨heq ▸ h, hfits⟩
    · rintro ⟨h, hfits⟩
      exact ⟨rest, h, hfits, rfl⟩
  · cases hread : chunked.read limit (.ofBytes bytes .closed) with
    | mk outcome input =>
      cases outcome with
      | message p =>
        obtain ⟨rest, h, hfits, -⟩ := (readChunks_eq_message_iff (.inr rfl)).mp hread
        exact absurd (hother p rest h) (Nat.not_lt.mpr hfits)
      | blocked =>
        exact absurd (congrArg Prod.fst hread) (read_closed_ne_blocked chunked limit bytes)
      | failure e =>
        refine ⟨e, input, rfl, fun he => ?_, fun hnil => ?_⟩
        · subst he
          simpa using eq_nil_of_readChunks bytes (.start limit) hread
        · subst hnil
          cases hread
          rfl

/-- Two chunks whose bytes look like the beginning of a frame, and such a beginning behind them. -/
def lookalike : Bytes :=
  [0x0A, 0x23, 0x33, 0x0A, 0x0A, 0x23, 0x31, 0x0A, 0x23, 0x31, 0x0A, 0x0A, 0x0A, 0x23, 0x23, 0x0A,
    0x0A, 0x23]

theorem read_lookalike_chunks :
    BeginsChunked lookalike [0x0A, 0x23, 0x31, 0x0A] [0x0A, 0x23] ∧
    chunked.read 4 (.ofBytes lookalike .closed) =
      (.message [0x0A, 0x23, 0x31, 0x0A], .ofBytes [0x0A, 0x23] .closed) := by
  have hbegins : BeginsChunked lookalike [0x0A, 0x23, 0x31, 0x0A] [0x0A, 0x23] :=
    ⟨[{ digits := [0x33], data := [0x0A, 0x23, 0x31] }, { digits := [0x31], data := [0x0A] }],
      by simp, rfl, rfl⟩
  exact ⟨hbegins, ((read_chunked 4 lookalike).1 _ _).mpr ⟨hbegins, by decide⟩⟩

end Netconf.Framing
