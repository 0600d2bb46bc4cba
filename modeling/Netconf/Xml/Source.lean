/-! The characters still to be read. Replacement texts of entities are put before what follows
their reference and are read as markup again. How many of the characters come from such texts is
known, and so is the number of texts put there since a character of the document itself was read;
it has a bound, so that reading comes to an end. -/
namespace Netconf.Xml

/-- Characters to read, the first of which come from replacement texts. -/
structure Source where
  chars : List Char
  inserted : Nat := 0
  expansions : Nat := 0
deriving Repr, Inhabited

namespace Source

/-- So many replacement texts may follow each other without a character of the document. -/
def maxExpansions : Nat := 10

/-- So many inserted characters may be left when another replacement text comes before them. -/
def maxInserted : Nat := 1000000

/-- The source after reading some characters. -/
def advance (s : Source) (count : Nat) : Source :=
  if count ≤ s.inserted then
    { chars := s.chars.drop count, inserted := s.inserted - count, expansions := s.expansions }
  else { chars := s.chars.drop count }

/-- The source with a replacement text before it; an empty text counts for nothing. -/
def insert? (s : Source) (text : List Char) : Option Source :=
  if text.isEmpty then some s
  else if s.expansions < maxExpansions ∧ s.inserted ≤ maxInserted then
    some { chars := text ++ s.chars, inserted := s.inserted + text.length,
           expansions := s.expansions + 1 }
  else none

/-- Reading ends because this decreases: the characters of the document still to come, then the
replacement texts still allowed, then the characters at hand. -/
def measure (s : Source) : Nat × Nat × Nat :=
  (s.chars.length - s.inserted, maxExpansions - s.expansions, s.chars.length)

/-- One source comes before another in a reading. -/
def Before (s t : Source) : Prop :=
  Prod.Lex (· < ·) (Prod.Lex (· < ·) (· < ·)) s.measure t.measure

theorem before_wf : WellFounded Before :=
  InvImage.wf measure (Prod.lex Nat.lt_wfRel (Prod.lex Nat.lt_wfRel Nat.lt_wfRel)).wf

instance : WellFoundedRelation Source := ⟨Before, before_wf⟩

theorem before_iff {s t : Source} : Before s t ↔
    s.measure.1 < t.measure.1 ∨ s.measure.1 = t.measure.1 ∧
      (s.measure.2.1 < t.measure.2.1 ∨ s.measure.2.1 = t.measure.2.1 ∧
        s.measure.2.2 < t.measure.2.2) := by
  simp only [Before, Prod.lex_def]

theorem Before.trans {s t u : Source} (h : Before s t) (h' : Before t u) : Before s u := by
  rw [before_iff] at *
  omega

/-- Reading at least one character comes closer to the end. -/
theorem advance_before {s : Source} {count : Nat} (hc : 0 < count) (hs : count ≤ s.chars.length) :
    Before (s.advance count) s := by
  rw [before_iff]
  unfold advance
  split <;> simp only [measure, List.length_drop, true_and] <;> omega

/-- A replacement text that may be inserted leaves the end as near as it was. -/
theorem insert?_before {s t u : Source} {text : List Char} (h : s.insert? text = some t)
    (hs : Before s u) : Before t u := by
  unfold insert? at h
  split at h
  · simp only [Option.some.injEq] at h
    subst h
    exact hs
  · split at h
    · simp only [Option.some.injEq] at h
      subst h
      refine Before.trans ?_ hs
      rw [before_iff]
      simp only [measure, List.length_append]
      simp only [maxExpansions] at *
      omega
    · cases h

/-- Without inserted characters, reading on leaves a source without them. -/
@[simp] theorem advance_plain (cs : List Char) (count : Nat) :
    advance { chars := cs } count = { chars := cs.drop count } := by
  unfold advance
  split <;> simp_all

end Source
end Netconf.Xml
