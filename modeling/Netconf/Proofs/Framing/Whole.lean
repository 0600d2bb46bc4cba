import Netconf.Proofs.Framing.Stream

/-! What a reader makes of a whole stream. Whatever is read leaves the rest of the stream as it was,
and where something has come in some of it is used up. So a stream that is closed at its end yields
some messages and then a failure, and whoever reads it gets these and no others. -/
namespace Netconf

namespace Incoming

/-- What is left of a stream when some of it has been read. -/
inductive Leaves : Incoming → Incoming → Prop
  | refl (input : Incoming) : Leaves input input
  | byte {b : UInt8} {input rest : Incoming} (h : Leaves input rest) : Leaves (.byte b input) rest
  | fault {f : Fault} {input rest : Incoming} (h : Leaves input rest) : Leaves (.fault f input) rest

@[simp] theorem append_ofBytes (bytes : Bytes) (last more : Incoming) :
    (ofBytes bytes last).append more = ofBytes bytes (last.append more) := by
  induction bytes with
  | nil => rfl
  | cons b bytes ih => exact congrArg (byte b) ih

@[simp] theorem size_ofBytes (bytes : Bytes) (last : Incoming) :
    (ofBytes bytes last).size = bytes.length + last.size := by
  induction bytes with
  | nil => simp
  | cons b bytes ih =>
    rw [ofBytes_cons, size, ih, List.length_cons]
    omega

@[simp] theorem bytes_ofBytes (bytes : Bytes) (rest : Incoming) :
    (ofBytes bytes rest).bytes = bytes ++ rest.bytes := by
  induction bytes with
  | nil => rfl
  | cons b bytes ih => exact congrArg (b :: ·) ih

theorem Leaves.trans {input rest last : Incoming} (h : Leaves input rest) (h' : Leaves rest last) :
    Leaves input last := by
  induction h with
  | refl => exact h'
  | byte _ ih => exact .byte (ih h')
  | fault _ ih => exact .fault (ih h')

theorem Leaves.size_le {input rest : Incoming} (h : Leaves input rest) :
    rest.size ≤ input.size := by
  induction h with
  | refl => exact Nat.le_refl _
  | byte _ ih => exact Nat.le_succ_of_le ih
  | fault _ ih => exact Nat.le_succ_of_le ih

/-- Of bytes with nothing behind them bytes are left, with nothing behind them. -/
theorem Leaves.ofBytes {bytes : Bytes} {last rest : Incoming} (h : Leaves (ofBytes bytes last) rest)
    (hlast : last = .silent ∨ last = .closed) : ∃ left, rest = Incoming.ofBytes left last := by
  induction bytes with
  | nil =>
    refine ⟨[], ?_⟩
    obtain rfl | rfl := hlast <;> cases h <;> rfl
  | cons b bytes ih =>
    cases h with
    | refl => exact ⟨b :: bytes, rfl⟩
    | byte h => exact ih h

end Incoming

namespace Framing

variable {framing : Framing} {limit : Nat}

/-! What reading leaves. -/

theorem readMarked_leaves (limit size : Nat) (read : Bytes) (input : Incoming) :
    input.Leaves (readMarked limit size read input).2 := by
  induction input generalizing size read with
  | silent => exact .refl _
  | closed => exact .refl _
  | fault f input ih =>
    cases f with
    | interrupted => exact .fault (ih size read)
    | _ => exact .fault (.refl input)
  | byte b input ih =>
    rw [readMarked]
    split
    · split
      · exact .byte (.refl input)
      · split
        · exact .byte (.refl input)
        · exact .byte (ih _ _)
    · exact .byte (ih _ _)

theorem readChunks_leaves (limit : Nat) (place : Place) (sofar : Nat) (read : Bytes)
    (input : Incoming) : input.Leaves (readChunks limit place sofar read input).2 := by
  induction input generalizing place sofar read with
  | silent => exact .refl _
  | closed => exact .refl _
  | fault f input ih =>
    rw [readChunks]
    split
    · exact .fault (ih place sofar read)
    · exact .fault (.refl input)
  | byte b input ih =>
    rw [readChunks]
    split
    · exact .byte (.refl input)
    · exact .byte (.refl input)
    · split <;> exact .byte (ih _ _ _)

theorem read_leaves (framing : Framing) (limit : Nat) (input : Incoming) :
    input.Leaves (framing.read limit input).2 := by
  cases framing with
  | endOfMessage => exact readMarked_leaves limit 0 [] input
  | chunked => exact readChunks_leaves limit (.newline true) 0 [] input

/-- Where a byte has come in, reading takes it off the stream. -/
theorem read_byte_size_lt (framing : Framing) (limit : Nat) (b : UInt8) (input : Incoming) :
    (framing.read limit (.byte b input)).2.size < (Incoming.byte b input).size := by
  have hless : ∀ {rest : Incoming}, input.Leaves rest → rest.size < (Incoming.byte b input).size :=
    fun h => Nat.lt_succ_of_le h.size_le
  cases framing with
  | endOfMessage =>
    rw [read, readMarked]
    split
    · split
      · exact hless (.refl input)
      · split
        · exact hless (.refl input)
        · exact hless (readMarked_leaves _ _ _ _)
    · exact hless (readMarked_leaves _ _ _ _)
  | chunked =>
    rw [read, readChunks]
    split
    · exact hless (.refl input)
    · exact hless (.refl input)
    · split <;> exact hless (readChunks_leaves _ _ _ _ _)

theorem readMarked_closed_ne_blocked (limit size : Nat) (read bytes : Bytes) :
    (readMarked limit size read (.ofBytes bytes .closed)).1 ≠ .blocked := by
  induction bytes generalizing size read with
  | nil => simp [readMarked]
  | cons b bytes ih =>
    rw [Incoming.ofBytes_cons, readMarked]
    split
    · split
      · simp
      · split
        · simp
        · exact ih _ _
    · exact ih _ _

theorem readChunks_closed_ne_blocked (limit : Nat) (place : Place) (sofar : Nat)
    (read bytes : Bytes) :
    (readChunks limit place sofar read (.ofBytes bytes .closed)).1 ≠ .blocked := by
  induction bytes generalizing place sofar read with
  | nil => simp [readChunks]
  | cons b bytes ih =>
    rw [Incoming.ofBytes_cons, readChunks]
    split
    · simp
    · simp
    · split <;> exact ih _ _ _

/-- Only a peer that has not closed the stream leaves a reader waiting. -/
theorem read_closed_ne_blocked (framing : Framing) (limit : Nat) (bytes : Bytes) :
    (framing.read limit (.ofBytes bytes .closed)).1 ≠ .blocked := by
  cases framing with
  | endOfMessage => exact readMarked_closed_ne_blocked limit 0 [] bytes
  | chunked => exact readChunks_closed_ne_blocked limit (.newline true) 0 [] bytes

theorem read_silent (framing : Framing) (limit : Nat) :
    framing.read limit .silent = (.blocked, .silent) := by
  cases framing <;> rfl

/-! Whole streams. -/

namespace Reads

variable {input last last' : Incoming} {ms ms' : List Bytes}

/-- Nobody who reads a stream gets past the point at which there is no message, and whoever stops
before it can still read the messages up to it. -/
theorem rest_of_stuck (h : Reads framing limit input ms last)
    (stuck : ∀ m rest, framing.read limit last ≠ (.message m, rest))
    (h' : Reads framing limit input ms' last') :
    ∃ more, ms = ms' ++ more ∧ Reads framing limit last' more last := by
  induction h' generalizing ms with
  | nil input => exact ⟨ms, rfl, h⟩
  | cons read _ ih =>
    cases h with
    | nil => exact absurd read (stuck _ _)
    | cons read' more =>
      rw [read] at read'
      cases read'
      obtain ⟨after, hms, hreads⟩ := ih more
      exact ⟨after, by rw [hms, List.cons_append], hreads⟩

theorem leaves (h : Reads framing limit input ms last) : input.Leaves last := by
  induction h with
  | nil input => exact .refl input
  | @cons input rest last m ms read _ ih =>
    have hread := read_leaves framing limit input
    rw [read] at hread
    exact hread.trans ih

end Reads

/-- A stream that is closed at its end yields some messages, and then a failure. -/
theorem exists_reads_failure (framing : Framing) (limit : Nat) (bytes : Bytes) :
    ∃ ms last e rest, Reads framing limit (.ofBytes bytes .closed) ms last ∧
      framing.read limit last = (.failure e, rest) := by
  -- Each message takes a byte off the stream, and so there are as many at most as bytes.
  induction hn : bytes.length using Nat.strongRecOn generalizing bytes with
  | ind n ih =>
    cases hread : framing.read limit (.ofBytes bytes .closed) with
    | mk outcome rest =>
      cases outcome with
      | blocked =>
        exact absurd (congrArg Prod.fst hread) (read_closed_ne_blocked framing limit bytes)
      | failure e => exact ⟨[], _, e, rest, .nil _, hread⟩
      | message m =>
        have hleaves := read_leaves framing limit (.ofBytes bytes .closed)
        rw [hread] at hleaves
        obtain ⟨left, rfl⟩ := hleaves.ofBytes (.inr rfl)
        cases bytes with
        | nil =>
          rw [Incoming.ofBytes_nil, read_closed] at hread
          cases hread
        | cons b bytes =>
          have hless := read_byte_size_lt framing limit b (.ofBytes bytes .closed)
          rw [← Incoming.ofBytes_cons, hread, Incoming.size_ofBytes, Incoming.size_ofBytes] at hless
          obtain ⟨ms, last, e, rest, hreads, hfails⟩ := ih left.length (by omega) left rfl
          exact ⟨m :: ms, last, e, rest, .cons hread hreads, hfails⟩

/-- On bytes with nothing behind them no read fails, so nothing is passed over. -/
theorem Takes.reads {bytes : Bytes} {ms : List Bytes} {last left : Incoming}
    (h : Takes framing limit (.ofBytes bytes last) ms left)
    (hlast : last = .silent ∨ last = .closed) :
    Reads framing limit (.ofBytes bytes last) ms left := by
  generalize hinput : Incoming.ofBytes bytes last = input at h
  induction h generalizing bytes with
  | nil input => exact .nil input
  | @fault rest left ms f more ih =>
    cases bytes with
    | nil => obtain rfl | rfl := hlast <;> cases hinput
    | cons b bytes => cases hinput
  | @message input rest left m ms read more ih =>
    have hleaves := read_leaves framing limit input
    rw [read, ← hinput] at hleaves
    obtain ⟨left, rfl⟩ := hleaves.ofBytes hlast
    exact .cons read (ih rfl)

end Framing
end Netconf
