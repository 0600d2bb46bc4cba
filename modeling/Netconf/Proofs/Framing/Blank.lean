import Netconf.Proofs.Framing.Limit
import Netconf.Proofs.Text.Bytes

/-! Blanks beside messages. The reader of marked messages takes them for the beginning of the next
message, and passes over them where no message follows. The reader of chunks takes none: to it any
blank behind a message is a broken frame. -/
namespace Netconf.Framing

/-- Whether a reader takes a stream that ends with some blanks for one that ends between messages. -/
def PassesOver (framing : Framing) (w : Bytes) : Prop := framing = .endOfMessage ∨ w = []

instance (framing : Framing) (w : Bytes) : Decidable (framing.PassesOver w) :=
  inferInstanceAs (Decidable (_ ∨ _))

variable {limit : Nat} {w bytes m rest : Bytes}

/-- No byte of the mark is a blank. -/
theorem not_mem_of_isBlank (h : w.IsBlank) : 0x5D ∉ w ∧ 0x3E ∉ w :=
  ⟨fun hmem => absurd (h _ hmem) (by decide), fun hmem => absurd (h _ hmem) (by decide)⟩

/-- A mark that begins with none of the bytes before lies behind them. -/
theorem marker_infix_append (hw : 0x5D ∉ w) (h : marker <:+: w ++ bytes) : marker <:+: bytes := by
  induction w with
  | nil => exact h
  | cons b w ih =>
    rw [List.mem_cons, not_or] at hw
    obtain hprefix | hinfix := List.infix_cons_iff.mp h
    · obtain ⟨hb, -⟩ := List.cons_prefix_cons.mp hprefix
      exact absurd hb hw.1
    · exact ih hw.2 hinfix

/-- Blanks before a message are taken for its beginning. -/
theorem Opens.behind_blank (h : Opens limit bytes m rest) (blank : w.IsBlank)
    (fits : w.length + m.length + 3 ≤ limit) : Opens limit (w ++ bytes) (w ++ m) rest where
  split := by rw [h.split, List.append_assoc, List.append_assoc, List.append_assoc]
  first := by
    intro hm
    rw [List.append_assoc, List.dropLast_append_of_ne_nil (by simp [marker])] at hm
    exact h.first (marker_infix_append (not_mem_of_isBlank blank).1 hm)
  fits := by rwa [List.length_append]

/-- Where a client closes its stream behind some blanks, the reader of marked messages finds no
message begun, and the reader of chunks a broken frame. -/
theorem read_blank_closed (framing : Framing) (blank : w.IsBlank) (fits : w.length ≤ limit) :
    ∃ e left, framing.read limit (.ofBytes w .closed) = (.failure e, left) ∧
      (e = .closed ↔ framing.PassesOver w) := by
  cases framing with
  | endOfMessage =>
    have hunmarked : ¬ marker <:+: w := fun h =>
      absurd (h.subset (by simp [marker])) (not_mem_of_isBlank blank).1
    have hgone : GoneThrough limit (w ++ []) :=
      .of_no_sign fits (List.not_mem_nil) (by rwa [List.append_nil])
    rw [List.append_nil] at hgone
    have hthrough := readMarked_through [] w .closed hgone
    have hall : (List.reverse w).all Text.isBlankByte = true := by
      rw [List.all_reverse]
      exact List.all_eq_true.mpr blank
    refine ⟨.closed, .closed, hthrough.trans ?_, iff_of_true rfl (.inl rfl)⟩
    rw [List.nil_append, readMarked, atEnd, if_neg (Nat.not_lt.mpr fits), if_pos hall]
  | chunked =>
    cases w with
    | nil => exact ⟨.closed, .closed, rfl, iff_of_true rfl (.inr rfl)⟩
    | cons b w =>
      have hnot : ¬ PassesOver .chunked (b :: w) := by simp [PassesOver]
      by_cases hb : b = 0x0A
      · subst hb
        cases w with
        | nil => exact ⟨.truncated, .closed, rfl, iff_of_false (by simp) hnot⟩
        | cons c w =>
          have hc : c ≠ 0x23 := by
            rintro rfl
            exact absurd (blank 0x23 (by simp)) (by decide)
          refine ⟨.badChunk (.expected 0x23 c), .ofBytes w .closed, ?_,
            iff_of_false (by simp) hnot⟩
          simp [read, readChunks, Place.step, Place.isData, hc]
      · refine ⟨.badChunk (.expectedNewline b), .ofBytes w .closed, ?_,
          iff_of_false (by simp) hnot⟩
        simp [read, readChunks, Place.step, hb]

end Netconf.Framing
