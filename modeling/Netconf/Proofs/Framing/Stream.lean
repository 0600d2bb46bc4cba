import Netconf.Proofs.Framing.Frame

/-! Reading one message after the other from a stream. What a reader has got from a stream does not
depend on what comes behind it, and frames one behind the other are read back one by one. -/
namespace Netconf.Framing

/-- Reading one message after the other from a stream yields some messages and leads to what is
left of it. -/
inductive Reads (framing : Framing) (limit : Nat) : Incoming → List Bytes → Incoming → Prop
  | nil (input : Incoming) : Reads framing limit input [] input
  | cons {input rest last : Incoming} {m : Bytes} {ms : List Bytes}
      (read : framing.read limit input = (.message m, rest))
      (more : Reads framing limit rest ms last) : Reads framing limit input (m :: ms) last

/-- Taking one message after the other from a stream, where failing reads between messages are
passed over. -/
inductive Takes (framing : Framing) (limit : Nat) : Incoming → List Bytes → Incoming → Prop
  | nil (input : Incoming) : Takes framing limit input [] input
  | fault {rest last : Incoming} {ms : List Bytes} (f : Fault)
      (more : Takes framing limit rest ms last) : Takes framing limit (.fault f rest) ms last
  | message {input rest last : Incoming} {m : Bytes} {ms : List Bytes}
      (read : framing.read limit input = (.message m, rest))
      (more : Takes framing limit rest ms last) : Takes framing limit input (m :: ms) last

variable {framing : Framing} {limit : Nat}

/-! What comes behind. -/

theorem readMarked_append (limit : Nat) (more : Incoming) {size : Nat} {read : Bytes}
    {input rest : Incoming} {o : Outcome} (h : readMarked limit size read input = (o, rest))
    (ho : o ≠ .blocked) :
    readMarked limit size read (input.append more) = (o, rest.append more) := by
  induction input generalizing size read with
  | silent =>
    cases h
    exact absurd rfl ho
  | closed =>
    cases h
    rfl
  | fault f input ih =>
    rw [Incoming.append]
    cases f with
    | interrupted =>
      rw [readMarked] at h ⊢
      exact ih h
    | _ =>
      cases h
      rfl
  | byte b input ih =>
    rw [readMarked] at h
    rw [Incoming.append, readMarked]
    split at h
    · next hb =>
      rw [if_pos hb]
      split at h
      · next hm =>
        rw [if_pos hm]
        cases h
        rfl
      · next hm =>
        rw [if_neg hm]
        split at h
        · next hl =>
          rw [if_pos hl]
          cases h
          rfl
        · next hl =>
          rw [if_neg hl]
          exact ih h
    · next hb =>
      rw [if_neg hb]
      exact ih h

theorem readChunks_append (limit : Nat) (more : Incoming) {place : Place} {sofar : Nat}
    {read : Bytes} {input rest : Incoming} {o : Outcome}
    (h : readChunks limit place sofar read input = (o, rest)) (ho : o ≠ .blocked) :
    readChunks limit place sofar read (input.append more) = (o, rest.append more) := by
  induction input generalizing place sofar read with
  | silent =>
    cases h
    exact absurd rfl ho
  | closed =>
    cases h
    rfl
  | fault f input ih =>
    rw [readChunks] at h
    rw [Incoming.append, readChunks]
    split at h
    · next hf =>
      rw [if_pos hf]
      exact ih h
    · next hf =>
      rw [if_neg hf]
      cases h
      rfl
  | byte b input ih =>
    rw [readChunks] at h
    rw [Incoming.append, readChunks]
    rcases hs : place.step limit sofar b with following | _ | e
    · rw [hs] at h
      dsimp only at h ⊢
      split at h
      · next hd =>
        rw [if_pos hd]
        exact ih h
      · next hd =>
        rw [if_neg hd]
        exact ih h
    · rw [hs] at h
      cases h
      rfl
    · rw [hs] at h
      cases h
      rfl

/-- What a reader has got does not change when more comes in. -/
theorem read_append (more : Incoming) {input rest : Incoming} {o : Outcome}
    (h : framing.read limit input = (o, rest)) (ho : o ≠ .blocked) :
    framing.read limit (input.append more) = (o, rest.append more) := by
  cases framing with
  | endOfMessage => exact readMarked_append limit more h ho
  | chunked => exact readChunks_append limit more h ho

namespace Takes

variable {input last rest : Incoming} {ms : List Bytes}

theorem append (h : Takes framing limit input ms last) (more : Incoming) :
    Takes framing limit (input.append more) ms (last.append more) := by
  induction h with
  | nil input => exact .nil _
  | fault f _ ih => exact .fault f ih
  | message read _ ih => exact .message (read_append more read (by simp)) ih

theorem take (h : Takes framing limit input ms last) {m : Bytes}
    (read : framing.read limit last = (.message m, rest)) :
    Takes framing limit input (ms ++ [m]) rest := by
  induction h with
  | nil input => exact .message read (.nil rest)
  | fault f _ ih => exact .fault f (ih read)
  | message head _ ih => exact .message head (ih read)

theorem pass {f : Fault} (h : Takes framing limit input ms last) (hlast : last = .fault f rest) :
    Takes framing limit input ms rest := by
  induction h with
  | nil input =>
    rw [hlast]
    exact .fault f (.nil rest)
  | fault f _ ih => exact .fault f (ih hlast)
  | message head _ ih => exact .message head (ih hlast)

end Takes

/-! Frames one behind the other. -/

/-- Frames one behind the other are read back as the messages in them. -/
theorem reads_frames {ps : List Bytes} (h : ∀ p ∈ ps, framing.Carries limit p) (rest : Incoming) :
    Reads framing limit (.ofBytes (ps.flatMap framing.encode) rest) ps rest := by
  induction ps with
  | nil => exact .nil rest
  | cons p ps ih =>
    rw [List.flatMap_cons, Incoming.ofBytes_append]
    have hhead := read_encode (h p (by simp)) (.ofBytes (ps.flatMap framing.encode) rest)
    exact .cons hhead (ih fun q hq => h q (by simp [hq]))

/-- A stream that is closed between messages is known to be closed. -/
theorem read_closed : framing.read limit .closed = (.failure .closed, .closed) := by
  cases framing <;> rfl

/-- Whatever messages a framing carries, frames one behind the other on a stream that is closed
then are read back one by one and in order; the next attempt finds the stream closed. -/
theorem reads_encoded_then_closed (framing : Framing) (limit : Nat) (ps : List Bytes)
    (h : ∀ p ∈ ps, framing.Carries limit p) :
    Reads framing limit (.ofBytes (ps.flatMap framing.encode) .closed) ps .closed ∧
      framing.read limit .closed = (.failure .closed, .closed) :=
  ⟨reads_frames h .closed, read_closed⟩

/-- Payloads that look like parts of frames: brackets before the marker, and the end of a chunked
message. -/
theorem reads_brackets_then_closed :
    Reads endOfMessage 16
        (.ofBytes ([[0x5D], [0x5D, 0x5D, 0x3E, 0x20]].flatMap (encode endOfMessage)) .closed)
        [[0x5D], [0x5D, 0x5D, 0x3E, 0x20]] .closed ∧
      read endOfMessage 16 .closed = (.failure .closed, .closed) :=
  reads_encoded_then_closed endOfMessage 16 [[0x5D], [0x5D, 0x5D, 0x3E, 0x20]] (by decide)

end Netconf.Framing
