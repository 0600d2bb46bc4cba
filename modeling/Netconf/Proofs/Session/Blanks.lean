import Netconf.Proofs.Framing.Blank
import Netconf.Proofs.Session.Reception
import Netconf.Proofs.Xml.Prologue

/-! Blanks between marked messages. They come in as the head of the next message, and it is the
reading of documents that decides whether they say anything: white space before a document says
nothing unless the document begins with a declaration or a byte order mark. -/
namespace Netconf.FramedSession

open Xml.Document (MayFollow)

variable {w m bytes rest : Bytes}

/-- Behind blanks a message is taken for what it is taken for alone, or for nothing that can be
read. -/
theorem judge_behind (blank : w.IsBlank) (m : Bytes) :
    judge (w ++ m) = if MayFollow w m then judge m else (.unknown, none) := by
  by_cases h : MayFollow w m
  · rw [if_pos h, judge, judge, Xml.Document.parse_of_mayFollow blank h]
  · obtain ⟨e, he⟩ := Xml.Document.parse_of_not_mayFollow blank h
    rw [if_neg h, judge, he]

theorem answer_of_judge {s : FramedSession} {m' : Bytes} (h : judge m' = judge m) :
    s.answer m' = s.answer m := by
  unfold answer
  rw [h]

theorem answer_of_unknown {s : FramedSession} (h : judge m = (.unknown, none)) :
    s.answer m = [] := by
  unfold answer
  rw [h]

/-- A client of a session with marked messages sends a message, or some blanks and then the message,
where there is room for both. Behind white space a message that begins with neither a declaration
nor a byte order mark is received just as it is alone: it is taken for the same, the same is
written, the session has the same status, and the same is left of the stream. In all other cases it
is received as a message that cannot be read: nothing is written, and the session goes on. -/
theorem receive_behind_blanks {s : FramedSession} (marked : s.framing = .endOfMessage)
    (blank : w.IsBlank) (opens : Framing.Opens s.limit bytes m rest)
    (fits : w.length + m.length + 3 ≤ s.limit) {last : Incoming}
    (input : s.input = .ofBytes bytes last) :
    ∃ r t, s.receive = some (r, t) ∧
      receive { s with input := .ofBytes (w ++ bytes) last } =
        some (if MayFollow w m then (r, t) else (.unknown, { s with input := .ofBytes rest last })) := by
  have hread : s.framing.read s.limit s.input = (.message m, .ofBytes rest last) := by
    rw [marked, input]
    exact Framing.readMarked_of_opens opens last
  have hbehind : s.framing.read s.limit (.ofBytes (w ++ bytes) last) =
      (.message (w ++ m), .ofBytes rest last) := by
    rw [marked]
    exact Framing.readMarked_of_opens (opens.behind_blank blank fits) last
  have hreceive := receive_of_read hread
  have hafter := receive_of_read (s := { s with input := .ofBytes (w ++ bytes) last }) hbehind
  refine ⟨_, _, hreceive, hafter.trans (congrArg some ?_)⟩
  have hjudge := judge_behind blank m
  by_cases h : MayFollow w m
  · rw [if_pos h] at hjudge ⊢
    have hanswer : answer { s with input := .ofBytes (w ++ bytes) last } (w ++ m) = s.answer m :=
      answer_of_judge hjudge
    rw [hjudge, hanswer]
    rfl
  · rw [if_neg h] at hjudge ⊢
    rw [hjudge, answer_of_unknown hjudge]
    simp [onwards]

open Running (asked asking getting judge_getting rehearsal)

/-- A session with marked messages whose client has sent something. -/
def told (bytes : Bytes) : FramedSession :=
  { (rehearsal getting .silent).agent.session with input := .ofBytes bytes .silent }

/-- A request behind a line break is received. -/
theorem told_behind_line_break : ∃ t,
    (told ([0x0D, 0x0A] ++ Framing.encode .endOfMessage (Bytes.ofString getting))).receive =
      some (.request (asked "get"), t) ∧ t.status = .working := by
  have hcarries : Framing.endOfMessage.Carries Framing.defaultLimit (Bytes.ofString getting) := by
    decide +kernel
  obtain ⟨r, t, hreceive, hbehind⟩ := receive_behind_blanks
    (s := told (Framing.encode .endOfMessage (Bytes.ofString getting))) (w := [0x0D, 0x0A]) rfl
    (by decide) hcarries.opens (by decide +kernel) rfl
  have halone := receive_of_read (s := told (Framing.encode .endOfMessage (Bytes.ofString getting)))
    (Framing.read_encode hcarries .silent)
  rw [judge_getting] at halone
  cases hreceive.symm.trans halone
  rw [if_pos (by decide +kernel)] at hbehind
  exact ⟨_, hbehind, rfl⟩

/-- The request of a message is received alone, but not behind some blanks. -/
def Drops (w m : Bytes) : Prop :=
  w.IsBlank ∧ Framing.endOfMessage.Carries Framing.defaultLimit m ∧
    (∃ t, (told (Framing.encode .endOfMessage m)).receive = some (.request (asked "get"), t)) ∧
    ∃ t, (told (w ++ Framing.encode .endOfMessage m)).receive = some (.unknown, t)

theorem drops_of_not_mayFollow (blank : w.IsBlank)
    (carries : Framing.endOfMessage.Carries Framing.defaultLimit m)
    (carries' : Framing.endOfMessage.Carries Framing.defaultLimit (w ++ m))
    (h : ¬ MayFollow w m) (hjudge : (judge m).1 = .request (asked "get")) : Drops w m := by
  have halone := receive_of_read (s := told (Framing.encode .endOfMessage m))
    (Framing.read_encode carries .silent)
  have hbehind := receive_of_read (s := told (Framing.encode .endOfMessage (w ++ m)))
    (Framing.read_encode carries' .silent)
  rw [hjudge] at halone
  rw [judge_behind blank, if_neg h] at hbehind
  have hsplit : Framing.encode .endOfMessage (w ++ m) = w ++ Framing.encode .endOfMessage m :=
    List.append_assoc _ _ _
  rw [hsplit] at hbehind
  exact ⟨blank, carries, ⟨_, halone⟩, _, hbehind⟩

theorem judge_of_parse_getting (h : Xml.Document.parse m = .ok
    { name := "rpc", attributes := [⟨"message-id", "1"⟩], children := [{ name := "get" }] }) :
    (judge m).1 = .request (asked "get") := by
  rw [judge, h]
  rfl

/-- Requests that may not follow their blanks: one with a declaration, one behind a form feed, and
one with a byte order mark. -/
theorem misplaced_dropped :
    Drops [0x0A] (Bytes.ofString ("<?xml version='1.0'?>" ++ getting)) ∧
      Drops [0x0C] (Bytes.ofString getting) ∧
      Drops [0x20] ([0xEF, 0xBB, 0xBF] ++ Bytes.ofString getting) := by
  have hmark : Xml.Encoding.ofMark? ([0xEF, 0xBB, 0xBF] ++ Bytes.ofString getting) =
      some (.utf8, Bytes.ofString getting) := rfl
  refine ⟨?declaration, ?formFeed, ?mark⟩
  case declaration =>
    refine drops_of_not_mayFollow (by decide) (by decide +kernel) (by decide +kernel)
      (by decide +kernel) (judge_of_parse_getting ?_)
    exact Xml.Document.parse_of_toOption 60 (by decide +kernel) (by decide +kernel)
  case formFeed =>
    exact drops_of_not_mayFollow (by decide) (by decide +kernel) (by decide +kernel)
      (by decide +kernel) (congrArg Prod.fst judge_getting)
  case mark =>
    refine drops_of_not_mayFollow (by decide) (by decide +kernel) (by decide +kernel)
      (by decide +kernel) (judge_of_parse_getting ?_)
    exact Xml.Document.parse_of_mark 60 getting.toList hmark (by decide +kernel)
      (by decide +kernel)

end Netconf.FramedSession
