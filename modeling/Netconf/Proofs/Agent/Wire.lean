import Netconf.Proofs.Agent.Wants

/-! What stands on the stream to the client. While nobody's message gets lost, the bytes there are
whole frames one behind the other, and behind them what is out of the frame of whoever holds the
writer. The messages of each party are in the order in which it has turned to them; only a task that
ends before it gets hold of the writer keeps its last message to itself. -/
namespace Netconf

namespace Happening

/-- The message that is out. -/
def sent? : Happening → Option Message
  | sent _ m => some m
  | _ => none

/-- The message of a party that is out. -/
def sentBy? (p : Party) : Happening → Option Message
  | sent q m => if q = p then some m else none
  | _ => none

/-- The message that a party turns to. -/
def turnedBy? (p : Party) : Happening → Option Message
  | turned q m => if q = p then some m else none
  | _ => none

/-- Whether a message gets lost. -/
def isLoss : Happening → Bool
  | broke _ => true
  | _ => false

end Happening

def sentMessages (hs : List Happening) : List Message := hs.filterMap Happening.sent?

def sentBy (p : Party) (hs : List Happening) : List Message := hs.filterMap (Happening.sentBy? p)

def turnedBy (p : Party) (hs : List Happening) : List Message :=
  hs.filterMap (Happening.turnedBy? p)

def NoLoss (hs : List Happening) : Prop := ∀ h ∈ hs, h.isLoss = false

theorem noLoss_append {hs l : List Happening} : NoLoss (hs ++ l) ↔ NoLoss hs ∧ NoLoss l := by
  simp only [NoLoss, List.mem_append, or_imp, forall_and]

@[simp] theorem sentMessages_append (hs l : List Happening) :
    sentMessages (hs ++ l) = sentMessages hs ++ sentMessages l := List.filterMap_append

@[simp] theorem sentBy_append (p : Party) (hs l : List Happening) :
    sentBy p (hs ++ l) = sentBy p hs ++ sentBy p l := List.filterMap_append

@[simp] theorem turnedBy_append (p : Party) (hs l : List Happening) :
    turnedBy p (hs ++ l) = turnedBy p hs ++ turnedBy p l := List.filterMap_append

/-- Something that happens by itself in a step has happened before the step or is all of it. -/
theorem append_eq_append_cons {hs l pre post : List Happening} {e : Happening}
    (h : hs ++ l = pre ++ e :: post) (hl : e ∈ l → l = [e]) :
    (∃ more, hs = pre ++ e :: more) ∨ hs = pre ∧ l = [e] := by
  obtain ⟨more, hpre, hmore⟩ | ⟨more, hhs, hmore⟩ := List.append_eq_append_iff.mp h
  · have heq := hl (by simp [hmore])
    have hnil : more = [] := by
      have hlen := congrArg List.length hmore
      rw [heq] at hlen
      apply List.eq_nil_of_length_eq_zero
      simp at hlen
      omega
    exact .inr ⟨by rw [hpre, hnil, List.append_nil], heq⟩
  · cases more with
    | nil =>
      have hmem : l = e :: post := hmore.symm
      exact .inr ⟨by rw [hhs, List.append_nil], hl (by simp [hmem])⟩
    | cons e' more =>
      obtain ⟨rfl, -⟩ := List.cons.inj hmore
      exact .inl ⟨more, hhs⟩

/-- Where nothing has to do with writing nothing is said. -/
theorem silent_of_not_writing {l : List Happening} (h : ∀ e ∈ l, e.isWriting = false) :
    sentMessages l = [] ∧ ∀ p, sentBy p l = [] ∧ turnedBy p l = [] := by
  simp only [sentMessages, sentBy, turnedBy, List.filterMap_eq_nil_iff]
  refine ⟨fun e he => ?_, fun p => ⟨fun e he => ?_, fun e he => ?_⟩⟩ <;>
  · have hw := h e he
    cases e <;> first | rfl | cases hw

namespace Running

variable {β ρ : Type} {start s t : Running β ρ} {hs l : List Happening}

/-- The frame of a message is out in part, and whoever holds the writer has to write the rest. -/
def HasWritten (s : Running β ρ) (part : Bytes) : Prop :=
  match s.writer with
  | none => part = []
  | some (p, left) => ∃ m, s.wants p = some m ∧ s.frame m = part ++ left

/-- What a party has turned to is out in this order, but for what it still has to write, or for
what a task has not got out at its end. -/
def InOrder (hs : List Happening) (s : Running β ρ) (p : Party) : Prop :=
  ∃ kept, turnedBy p hs = sentBy p hs ++ kept ∧
    (kept = (s.wants p).toList ∨ ∃ i, p = .task i ∧ s.DeadAt i)

/-- What stands on the stream after some happenings. -/
structure Wire (start : Running β ρ) (hs : List Happening) (s : Running β ρ) : Prop where
  framing : s.agent.session.framing = start.agent.session.framing
  limit : s.agent.session.limit = start.agent.session.limit
  written : ∃ part, s.written = start.written ++ (sentMessages hs).flatMap start.frame ++ part ∧
    s.HasWritten part

theorem frame_of_framing (h : t.agent.session.framing = s.agent.session.framing) (m : Message) :
    t.frame m = s.frame m := by
  rw [frame, frame, h]

theorem written_of_alike (h : s.agent.session.Alike t.agent.session) : t.written = s.written :=
  h.written

/-- A part of a frame is still out when the writer, the wishes and the framing are as before. -/
theorem HasWritten.of_same {part : Bytes} (h : s.HasWritten part) (hwriter : t.writer = s.writer)
    (hwants : ∀ p left, s.writer = some (p, left) → t.wants p = s.wants p)
    (hframing : t.agent.session.framing = s.agent.session.framing) : t.HasWritten part := by
  unfold HasWritten at h ⊢
  rw [hwriter]
  cases hw : s.writer with
  | none =>
    rw [hw] at h
    exact h
  | some w =>
    rw [hw] at h
    obtain ⟨m, hm, hpart⟩ := h
    exact ⟨m, by rw [hwants _ _ hw, hm], by rw [frame_of_framing hframing, hpart]⟩

/-- The party that holds the writer has a message to write. -/
theorem HasWritten.wants_of_writer {part left : Bytes} {p : Party} (h : s.HasWritten part)
    (hw : s.writer = some (p, left)) : ∃ m, s.wants p = some m ∧ s.frame m = part ++ left := by
  unfold HasWritten at h
  rw [hw] at h
  exact h

/-- A party that does not hold the writer lets nothing go. -/
theorem HasWritten.quit {part : Bytes} {p : Party} (h : s.HasWritten part)
    (hfree : s.holds p = false) : (s.quit p).HasWritten part := by
  have hne : ∀ q left, s.writer = some (q, left) → q ≠ p := by
    intro q left hw
    simpa [holds, hw] using hfree
  have hwriter : (s.quit p).writer = s.writer := by
    cases hw : s.writer with
    | none => simp [Running.quit, hw]
    | some w => simp [Running.quit, hw, hne w.1 w.2 hw]
  exact h.of_same hwriter (fun q left hw => quit_wants_of_ne (hne q left hw) s) rfl

namespace Wire

/-- A step without a word, which writes nothing. -/
theorem of_silent (hw : Wire start hs s) (hl : ∀ e ∈ l, e.isWriting = false)
    (halike : s.agent.session.Alike t.agent.session) (hwants : t.wants = s.wants)
    (hwriter : t.writer = s.writer) : Wire start (hs ++ l) t := by
  obtain ⟨part, hpart, hleft⟩ := hw.written
  have hsilent := silent_of_not_writing hl
  refine ⟨halike.framing.trans hw.framing, halike.limit.trans hw.limit, part, ?_, ?_⟩
  · rw [written_of_alike halike, hpart, sentMessages_append, hsilent.1, List.append_nil]
  · exact hleft.of_same hwriter (fun p left _ => by rw [hwants]) halike.framing

/-- A party without anything to write turns to a message. -/
theorem want {p : Party} {m : Message} (hw : Wire start hs s) (free : s.wants p = none) :
    Wire start (hs ++ (s.want p m).1) (s.want p m).2 := by
  obtain ⟨part, hpart, hleft⟩ := hw.written
  refine ⟨hw.framing, hw.limit, part, ?_, ?_⟩
  · rw [sentMessages_append]
    exact hpart.trans (by simp [sentMessages, Running.want, Happening.sent?])
  · refine hleft.of_same (t := (s.want p m).2) rfl ?_ rfl
    intro q left hq
    -- Whoever holds the writer has something to write, so it is somebody else.
    obtain ⟨m', hm', -⟩ := hleft.wants_of_writer hq
    have hne : q ≠ p := by
      intro heq
      rw [heq, free] at hm'
      cases hm'
    exact Function.update_of_ne hne _ _

theorem finish {p : Party} {m : Message} (hw : Wire start hs s) (wanted : s.wants p = some m)
    (held : s.writer = some (p, [])) (halike : s.agent.session.Alike t.agent.session)
    (hwriter : t.writer = none) : Wire start (hs ++ [.sent p m]) t := by
  obtain ⟨part, hpart, hleft⟩ := hw.written
  -- Nothing is left of the frame, so the part that is out is all of it.
  obtain ⟨m', hm', hframe⟩ := hleft.wants_of_writer held
  have hm : m' = m := Option.some.inj (hm'.symm.trans wanted)
  subst hm
  have hstart : start.frame m' = part := by
    rw [← frame_of_framing hw.framing, hframe, List.append_nil]
  refine ⟨halike.framing.trans hw.framing, halike.limit.trans hw.limit, [], ?_, ?_⟩
  · rw [written_of_alike halike, hpart, sentMessages_append]
    simp [sentMessages, Happening.sent?, hstart]
  · rw [HasWritten, hwriter]

end Wire

variable [Backend.Server β] [Registry ρ]

/-- A step in which nothing gets lost. -/
theorem Step.wire (h : Step s l t) (hl : NoLoss l) (hw : Wire start hs s) :
    Wire start (hs ++ l) t := by
  cases h with
  | loop free =>
    obtain ⟨m, hm⟩ | ⟨hsilent, hwants, hwriter⟩ := loopStep_writing s
    · rw [hm]
      exact hw.want free
    · exact hw.of_silent hsilent (loopStep_alike s) hwants hwriter
  | task i free =>
    obtain ⟨m, hm⟩ | ⟨hsilent, hwants, hwriter⟩ := taskStep_writing s i
    · rw [hm]
      exact hw.want free
    · exact hw.of_silent (by simp [hsilent]) (taskStep_alike s i) hwants hwriter
  | @acquire p m wanted free =>
    obtain ⟨part, hpart, hleft⟩ := hw.written
    have hnil : part = [] := by
      unfold HasWritten at hleft
      rw [free] at hleft
      exact hleft
    refine ⟨hw.framing, hw.limit, [], ?_, m, wanted, rfl⟩
    rw [List.append_nil hs, ← hnil]
    exact hpart
  | @write p out left held =>
    obtain ⟨part, hpart, hleft⟩ := hw.written
    obtain ⟨m, hm, hframe⟩ := hleft.wants_of_writer held
    refine ⟨hw.framing, hw.limit, part ++ out, ?_, m, hm, ?_⟩
    · rw [List.append_nil, ← List.append_assoc, ← hpart]
      rfl
    · rw [List.append_assoc]
      exact hframe
  | @finish p m wanted held =>
    have hwriter : (s.quit p).writer = none := by simp [quit, held]
    exact hw.finish wanted held (.of_eq (goOn_session p m s))
      ((goOn_wants p m (s.quit p)).2.trans hwriter)
  | fail wanted => exact absurd (hl _ (List.mem_singleton_self _)) (by simp [Happening.isLoss])
  | @perish i before last stage alive dead =>
    -- Without a loss the task has not held the writer, so what is out is as before.
    have hfree : s.holds (.task i) = false := by
      apply eq_false_of_ne_true
      intro hholds
      rw [if_pos hholds] at hl
      exact absurd (hl _ (List.mem_singleton_self _)) (by simp [Happening.isLoss])
    obtain ⟨part, hpart, hleft⟩ := hw.written
    have hquit := hleft.quit hfree
    rw [hfree]
    refine ⟨hw.framing, hw.limit, part, ?_, ?_⟩
    · rw [if_neg Bool.false_ne_true, List.append_nil]
      exact hpart
    · exact hquit.of_same rfl (fun _ _ _ => rfl) rfl
  | arrive more => exact hw.of_silent (by simp [Happening.isWriting]) ⟨rfl, rfl, rfl, rfl⟩ rfl rfl
  | feed more stage => exact hw.of_silent (by simp) (.refl _) rfl rfl
  | tick now => exact hw.of_silent (by simp) (.refl _) rfl rfl
  | ask => exact hw.of_silent (by simp) (.refl _) rfl rfl
  | serve server => exact hw.of_silent (by simp) (.refl _) rfl rfl
  | enable canSpawn => exact hw.of_silent (by simp) (.refl _) rfl rfl

theorem Execution.wire (fresh : start.IsFresh) (run : Execution start hs s) (hl : NoLoss hs) :
    Wire start hs s := by
  induction run with
  | start =>
    refine ⟨rfl, rfl, [], by simp [sentMessages], ?_⟩
    rw [HasWritten, fresh.writer]
  | step before step ih =>
    obtain ⟨hbefore, hstep⟩ := noLoss_append.mp hl
    exact step.wire hstep (ih hbefore)

/-! The order of messages. -/

namespace InOrder

variable {p q : Party}

omit [Backend.Server β] [Registry ρ] in
theorem of_silent (h : InOrder hs s p) (hsent : sentBy p l = []) (hturned : turnedBy p l = [])
    (hwants : t.wants p = s.wants p) (hdead : ∀ i, s.DeadAt i → t.DeadAt i) :
    InOrder (hs ++ l) t p := by
  obtain ⟨kept, horder, hkept⟩ := h
  refine ⟨kept, ?_, ?_⟩
  · rw [turnedBy_append, sentBy_append, hsent, hturned, List.append_nil, List.append_nil, horder]
  · rw [hwants]
    exact hkept.imp_right fun ⟨i, hp, hi⟩ => ⟨i, hp, hdead i hi⟩

omit [Backend.Server β] [Registry ρ] in
theorem want {m : Message} (h : InOrder hs s q) (free : s.wants p = none) :
    InOrder (hs ++ (s.want p m).1) (s.want p m).2 q := by
  by_cases hq : q = p
  · subst hq
    obtain ⟨kept, horder, hkept⟩ := h
    refine ⟨kept ++ [m], ?_, ?_⟩
    · rw [turnedBy_append, sentBy_append, horder]
      simp [turnedBy, sentBy, Running.want, Happening.turnedBy?, Happening.sentBy?]
    · obtain rfl | hdead := hkept
      · left
        simp [free]
      · exact .inr hdead
  · have hne : p ≠ q := fun h => hq h.symm
    exact h.of_silent (by simp [sentBy, Running.want, Happening.sentBy?])
      (by simp [turnedBy, Running.want, Happening.turnedBy?, hne]) (want_wants_of_ne hq m s)
      fun _ hi => hi

omit [Backend.Server β] [Registry ρ] in
theorem finish {m : Message} (h : InOrder hs s q) (wanted : s.wants p = some m)
    (halive : ∀ i, p = .task i → ¬ s.DeadAt i) (hwants : t.wants = Function.update s.wants p none)
    (hdead : ∀ i, s.DeadAt i → t.DeadAt i) : InOrder (hs ++ [.sent p m]) t q := by
  by_cases hq : q = p
  · subst hq
    obtain ⟨kept, horder, hkept⟩ := h
    obtain rfl | ⟨i, hp, hi⟩ := hkept
    · refine ⟨[], ?_, .inl ?_⟩
      · rw [turnedBy_append, sentBy_append, horder]
        simp [turnedBy, sentBy, Happening.turnedBy?, Happening.sentBy?, wanted]
      · simp [hwants]
    · exact absurd hi (halive i hp)
  · have hne : p ≠ q := fun h => hq h.symm
    refine h.of_silent (by simp [sentBy, Happening.sentBy?, hne])
      (by simp [turnedBy, Happening.turnedBy?]) ?_ hdead
    rw [hwants, Function.update_of_ne hq]

end InOrder

theorem Step.inOrder {p : Party} (h : Step s l t) (hl : NoLoss l) (hd : Delivers s)
    (ho : InOrder hs s p) : InOrder (hs ++ l) t p := by
  have hdead : ∀ i, s.DeadAt i → t.DeadAt i := by
    obtain ⟨_, hshift⟩ := h.shift
    exact fun i => hshift.deadAt
  have hplain : l = [] → t.wants = s.wants → InOrder (hs ++ l) t p := by
    rintro rfl hwants
    exact ho.of_silent rfl rfl (by rw [hwants]) hdead
  cases h with
  | loop free =>
    obtain ⟨m, hm⟩ | ⟨hsilent, hwants, -⟩ := loopStep_writing s
    · rw [hm]
      exact ho.want free
    · obtain ⟨hsent, hturned⟩ := (silent_of_not_writing hsilent).2 p
      exact ho.of_silent hsent hturned (by rw [hwants]) hdead
  | task i free =>
    obtain ⟨m, hm⟩ | ⟨hsilent, hwants, -⟩ := taskStep_writing s i
    · rw [hm]
      exact ho.want free
    · exact hplain hsilent hwants
  | @finish q m wanted held =>
    refine ho.finish wanted ?_ (goOn_wants q m (s.quit q)).1 hdead
    rintro i rfl
    exact hd.not_deadAt wanted
  | fail wanted => exact absurd (hl _ (List.mem_singleton_self _)) (by simp [Happening.isLoss])
  | @perish i before last stage alive dead =>
    by_cases hp : p = .task i
    · -- What the task has not got out it will never get out.
      obtain ⟨kept, horder, -⟩ := ho
      refine ⟨kept, ?_, .inr ⟨i, hp, last, ?_, dead⟩⟩
      · rw [turnedBy_append, sentBy_append, horder]
        split <;> simp [turnedBy, sentBy, List.filterMap_cons, Happening.turnedBy?,
          Happening.sentBy?]
      · have htasks : (s.agent.endTask i last).tasks = (s.agent.setStage i last).tasks := rfl
        rw [Agent.stage?_of_tasks htasks]
        simp [stage]
    · refine ho.of_silent ?_ ?_ (quit_wants_of_ne hp s) hdead
      · split <;> simp [sentBy, Happening.sentBy?]
      · split <;> simp [turnedBy, Happening.turnedBy?]
  | arrive more =>
    exact ho.of_silent (by simp [sentBy, Happening.sentBy?])
      (by simp [turnedBy, Happening.turnedBy?])
      rfl hdead
  | _ => exact hplain rfl rfl

theorem Execution.inOrder (fresh : start.IsFresh) (run : Execution start hs s) (hl : NoLoss hs)
    (p : Party) : InOrder hs s p := by
  induction run with
  | start => exact ⟨[], rfl, .inl (by rw [fresh.wants]; rfl)⟩
  | step before step ih =>
    obtain ⟨hbefore, hstep⟩ := noLoss_append.mp hl
    exact step.inOrder hstep (before.delivers fresh) (ih hbefore)

end Running
end Netconf
