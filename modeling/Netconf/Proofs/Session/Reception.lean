import Mathlib.Data.List.Induction
import Netconf.Proofs.Agent.Progress
import Netconf.Proofs.Framing.Whole

/-! Receiving one message after the other. What is in a message has no bearing on the messages
behind it: each is taken for what it would be taken for alone, and answered in the same way, and
only a message in no proper frame ends the session. -/
namespace Netconf

/-- Some bytes are a message in a frame: from them a reader gets the message, and needs no more. -/
def Framing.Wraps (framing : Framing) (limit : Nat) (m frame : Bytes) : Prop :=
  framing.read limit (.ofBytes frame .silent) = (.message m, .silent)

theorem Framing.Wraps.read {framing : Framing} {limit : Nat} {m frame : Bytes}
    (h : framing.Wraps limit m frame) (rest : Incoming) :
    framing.read limit (.ofBytes frame rest) = (.message m, rest) := by
  have hread := read_append rest h (by simp)
  rw [Incoming.append_ofBytes] at hread
  exact hread

theorem Framing.wraps_encode {framing : Framing} {limit : Nat} {m : Bytes}
    (h : framing.Carries limit m) : framing.Wraps limit m (framing.encode m) :=
  read_encode h .silent

namespace FramedSession

/-- What is written when a message is received: the answer, where there is one and it gets out. -/
def answer (s : FramedSession) (m : Bytes) : Bytes :=
  match (judge m).2, s.output.writeFault with
  | some (attributes, e), none =>
    s.framing.encode (Bytes.ofString ((Rpc.Reply.error e).render attributes))
  | _, _ => []

/-- The session with something else to read, and with more written. -/
def onwards (s : FramedSession) (input : Incoming) (more : Bytes) : FramedSession :=
  { s with input, output.written := s.output.written ++ more }

/-- A working session on the same terms that has written nothing yet. -/
def afresh (s : FramedSession) (input : Incoming) : FramedSession :=
  { s with input, status := .working, output.written := [] }

/-- The session after it has received so many messages. -/
def receiveTimes (s : FramedSession) : Nat → Option FramedSession
  | 0 => some s
  | n + 1 => (s.receiveTimes n).bind fun u => u.receive.map Prod.snd

theorem classify_eq (s : FramedSession) (m : Bytes) :
    s.classify m = ((judge m).1, s.onwards s.input (s.answer m)) := by
  have hnone : s.onwards s.input [] = s := by simp [onwards]
  unfold classify answer
  split
  · next r hjudge =>
    rw [hjudge]
    exact congrArg (Prod.mk r) hnone.symm
  · next r attributes e hjudge =>
    rw [hjudge]
    unfold write Outgoing.send
    cases hfault : s.output.writeFault with
    | some f => exact congrArg (Prod.mk r) hnone.symm
    | none => cases hflush : s.output.flushFault <;> simp [onwards, hfault, hflush]

theorem receive_of_read {s : FramedSession} {m : Bytes} {rest : Incoming}
    (h : s.framing.read s.limit s.input = (.message m, rest)) :
    s.receive = some ((judge m).1, s.onwards rest (s.answer m)) := by
  unfold receive
  rw [h]
  exact congrArg some (classify_eq _ m)

/-- Messages one behind the other are received one by one. -/
theorem receiveTimes_frames {s : FramedSession} {rest : Incoming}
    (done left : List (Bytes × Bytes))
    (whole : ∀ f ∈ done ++ left, s.framing.Wraps s.limit f.1 f.2)
    (input : s.input = .ofBytes ((done ++ left).flatMap Prod.snd) rest) :
    s.receiveTimes done.length = some (s.onwards (.ofBytes (left.flatMap Prod.snd) rest)
      (done.flatMap fun f => s.answer f.1)) := by
  induction done using List.reverseRecOn generalizing left with
  | nil =>
    rw [← show s.input = .ofBytes (left.flatMap Prod.snd) rest from input]
    simp [receiveTimes, onwards]
  | append_singleton done f ih =>
    have hbefore := ih (f :: left) (by simpa using whole) (by simpa using input)
    rw [List.length_append, List.length_singleton, receiveTimes, hbefore]
    have hread := (whole f (by simp)).read (.ofBytes (left.flatMap Prod.snd) rest)
    rw [List.flatMap_cons, Incoming.ofBytes_append]
    have hreceive := receive_of_read (s := s.onwards (.ofBytes f.2
      (.ofBytes (left.flatMap Prod.snd) rest)) (done.flatMap fun f => s.answer f.1)) hread
    simp only [Option.bind_some, hreceive, Option.map_some]
    simp [onwards, answer]

/-- What receiving does to the status: it ends the session just where what comes is in no proper
frame. -/
theorem receive_status {s t : FramedSession} {r : Received} (h : s.receive = some (r, t)) :
    (t.status = s.status ∧ ∀ e rest, s.framing.read s.limit s.input = (.failure e, rest) →
      e = .closed) ∨
    (t.status = .terminated ∧ ∃ e rest, e ≠ .closed ∧
      s.framing.read s.limit s.input = (.failure e, rest)) := by
  unfold receive at h
  split at h
  · next m rest hread =>
    rw [classify_eq] at h
    cases h
    exact .inl ⟨rfl, by simp [hread]⟩
  · next rest hread =>
    cases h
    exact .inl ⟨rfl, by simp [hread]⟩
  · next e rest hne hread =>
    cases h
    refine .inr ⟨rfl, e, rest, ?_, hread⟩
    rintro rfl
    exact hne rfl
  · cases h

/-- A client sends messages in their frames, whatever is in them, and then whatever it sends. A
session that works receives each message as a working session on the same terms that is given
nothing else: the message is taken for the same, the same is written, and the session works on. What
comes behind the messages is left. And no session is ended by receiving something, but for what is
in no proper frame. -/
theorem received_as_alone {s : FramedSession} (works : s.status = .working)
    {frames : List (Bytes × Bytes)} {rest : Incoming}
    (whole : ∀ f ∈ frames, s.framing.Wraps s.limit f.1 f.2)
    (input : s.input = .ofBytes (frames.flatMap Prod.snd) rest) :
    (∀ i (hi : i < frames.length), ∃ u r t alone,
      s.receiveTimes i = some u ∧ u.receive = some (r, t) ∧
      (s.afresh (.ofBytes frames[i].2 .silent)).receive = some (r, alone) ∧
      t.output.written = u.output.written ++ alone.output.written ∧
      u.status = .working ∧ t.status = .working ∧ alone.status = .working) ∧
    (∃ t, s.receiveTimes frames.length = some t ∧ t.input = rest) ∧
    ∀ (v t : FramedSession) (r : Received), v.receive = some (r, t) →
      (t.status = v.status ∧ ∀ e left, v.framing.read v.limit v.input = (.failure e, left) →
        e = .closed) ∨
      (t.status = .terminated ∧ ∃ e left, e ≠ .closed ∧
        v.framing.read v.limit v.input = (.failure e, left)) := by
  refine ⟨?_, ?_, fun v t r => receive_status⟩
  · intro i hi
    have hsplit : frames.take i ++ frames[i] :: frames.drop (i + 1) = frames := by simp
    have hbefore := receiveTimes_frames (frames.take i) (frames[i] :: frames.drop (i + 1))
      (by rw [hsplit]; exact whole) (by rw [hsplit]; exact input)
    rw [List.length_take_of_le (Nat.le_of_lt hi), List.flatMap_cons,
      Incoming.ofBytes_append] at hbefore
    have hwhole := whole frames[i] (List.getElem_mem hi)
    have hreceive := receive_of_read (s := s.onwards (.ofBytes frames[i].2
      (.ofBytes ((frames.drop (i + 1)).flatMap Prod.snd) rest))
      ((frames.take i).flatMap fun f => s.answer f.1)) (hwhole.read _)
    have halone := receive_of_read (s := s.afresh (.ofBytes frames[i].2 .silent)) hwhole
    refine ⟨_, _, _, _, hbefore, hreceive, halone, ?_, works, works, rfl⟩
    simp [onwards, afresh, answer]
  · have hall := receiveTimes_frames frames [] (by simpa using whole) (by simpa using input)
    exact ⟨_, hall, rfl⟩

open Running (asked getting judge_getting)

/-- What is no text, and a request behind it, each in its frame. -/
def garbled : List (Bytes × Bytes) :=
  [[0xFF, 0x3C], Bytes.ofString getting].map fun m => (m, Framing.encode .endOfMessage m)

/-- A session whose client sends these. -/
def hearing : FramedSession :=
  { (Running.rehearsal getting .silent).agent.session with
    input := .ofBytes (garbled.flatMap Prod.snd) .silent }

/-- The request is received as if there had been nothing before it. -/
theorem hearing_receives : ∃ u t, hearing.receiveTimes 1 = some u ∧
    u.receive = some (.request (asked "get"), t) ∧ t.status = .working := by
  have hwhole : ∀ f ∈ garbled, hearing.framing.Wraps hearing.limit f.1 f.2 := by
    have hcarries : ∀ m ∈ [[0xFF, 0x3C], Bytes.ofString getting],
        Framing.endOfMessage.Carries Framing.defaultLimit m := by decide +kernel
    intro f hf
    obtain ⟨m, hm, rfl⟩ := List.mem_map.mp hf
    exact Framing.wraps_encode (hcarries m hm)
  obtain ⟨halone, -, -⟩ := received_as_alone (s := hearing) rfl hwhole rfl
  obtain ⟨u, r, t, alone, hbefore, hreceive, hafresh, -, -, hworks, -⟩ := halone 1 (by decide)
  have hsecond := receive_of_read (s := hearing.afresh (.ofBytes garbled[1].2 .silent))
    (hwhole garbled[1] (by simp [garbled]))
  rw [hsecond] at hafresh
  have hr : r = .request (asked "get") := by
    have hjudged : (judge garbled[1].1).1 = .request (asked "get") :=
      congrArg Prod.fst judge_getting
    rw [← hjudged]
    exact (congrArg Prod.fst (Option.some.inj hafresh)).symm
  rw [hr] at hreceive
  exact ⟨u, t, hbefore, hreceive, hworks⟩

end FramedSession
end Netconf
