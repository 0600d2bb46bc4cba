import Netconf.Proofs.Text.Numeral
import Netconf.Proofs.Time.Calendar
import Netconf.Time.Timestamp

/-! Timestamps are read back. The shortest exact form of an instant, whatever its year and however
many digits its fraction of a second has, gives that instant. -/
namespace Netconf.Time

/-- An instant of the calendar. Its nanoseconds make up less than a second, or less than two in the
last second of a minute, which a leap second is a part of. -/
def Instant.IsValid (t : Instant) : Prop :=
  Date.hasDay (t.seconds / 86400) = true ∧
    (t.nanos < leapNanos ∨ t.nanos < 2 * leapNanos ∧ t.seconds % 60 = 59)

namespace Timestamp

theorem trimStart_of_not_isBlank {c : Char} (h : Text.isBlank c = false) (cs : List Char) :
    Text.trimStart (c :: cs) = c :: cs := by
  rw [Text.trimStart, List.dropWhile_cons_of_neg (by simp [h])]

theorem isBlank_of_isDigit {c : Char} (h : c.isDigit = true) : Text.isBlank c = false := by
  simp only [Char.isDigit, Bool.and_eq_true, decide_eq_true_eq] at h
  have hlow : 0x30 ≤ c.toNat := h.1
  have hhigh : c.toNat ≤ 0x39 := h.2
  simp [Text.isBlank]
  omega

/-- Digits are not passed over as blanks. -/
theorem trimStart_digits {ds : List Char} (hdigits : ∀ c ∈ ds, c.isDigit = true) (hne : ds ≠ [])
    (rest : List Char) : Text.trimStart (ds ++ rest) = ds ++ rest := by
  cases ds with
  | nil => exact absurd rfl hne
  | cons c ds => exact trimStart_of_not_isBlank (isBlank_of_isDigit (hdigits c (by simp))) _

/-- Digits are read as a number, if there are no more of them than may be. -/
theorem number?_digits {most : Nat} {ds rest : List Char} (hdigits : ∀ c ∈ ds, c.isDigit = true)
    (hne : ds ≠ []) (hmost : ds.length ≤ most)
    (hrest : ds.length = most ∨ ∀ c ∈ rest.head?, c.isDigit = false) :
    number? most (ds ++ rest) = some (Text.spelled 0 ds, rest) := by
  have hstop : ∀ c ∈ (rest.take (most - ds.length)).head?, c.isDigit = false := by
    intro c hc
    obtain hfull | hend := hrest
    · simp [hfull] at hc
    · rw [List.head?_take] at hc
      split at hc
      · cases hc
      · exact hend c hc
  have htake : ((ds ++ rest).take most).takeWhile (·.isDigit) = ds := by
    rw [List.take_append, List.take_of_length_le hmost]
    exact Text.takeWhile_append_of_stops hdigits hstop
  have hnonempty : ds.isEmpty = false := by simp [hne]
  unfold number?
  dsimp only
  rw [trimStart_digits hdigits hne, htake, hnonempty, List.drop_left]
  rfl

theorem isDigit_paddedChars (width n : Nat) : ∀ c ∈ Text.paddedChars width n, c.isDigit = true :=
  fun _ => Text.isDigit_of_mem_paddedChars

theorem number?_paddedChars {n k : Nat} (h : n < 10 ^ (k + 1)) (rest : List Char) :
    number? (k + 1) (Text.paddedChars (k + 1) n ++ rest) = some (n, rest) := by
  have hlength := Text.length_paddedChars h
  rw [number?_digits (isDigit_paddedChars _ _) (Text.paddedChars_ne_nil _ _)
    (Nat.le_of_eq hlength) (.inl hlength), Text.spelled_paddedChars]

theorem mark?_self {c : Char} (h : Text.isBlank c = false) (rest : List Char) :
    mark? c (c :: rest) = some rest := by
  rw [mark?, trimStart_of_not_isBlank h]
  simp

/-- A year behind its sign. -/
theorem signed_paddedChars (n : Nat) (sign : Int) (rest : List Char) :
    year?.signed (Text.paddedChars 4 n ++ '-' :: rest) sign = some (sign * n, '-' :: rest) := by
  have hdash : ∀ c ∈ ('-' :: rest).head?, c.isDigit = false := by
    intro c hc
    cases hc
    rfl
  have hlength : (Text.paddedChars 4 n).length ≤ (Text.paddedChars 4 n ++ '-' :: rest).length := by
    rw [List.length_append]
    omega
  have hread := number?_digits (isDigit_paddedChars 4 n) (Text.paddedChars_ne_nil _ _) hlength
    (.inr hdash)
  have hdigit : (((Text.paddedChars 4 n ++ '-' :: rest).head?).map (·.isDigit)).getD false =
      true := by
    cases hds : Text.paddedChars 4 n with
    | nil => exact absurd hds (Text.paddedChars_ne_nil _ _)
    | cons c ds => exact isDigit_paddedChars _ _ c (by rw [hds]; simp)
  rw [year?.signed, if_pos hdigit, hread, Text.spelled_paddedChars]
  rfl

/-- A year of four digits needs no sign. -/
theorem year?_paddedChars {n : Nat} (h : n < 10 ^ 4) (rest : List Char) :
    year? (Text.paddedChars 4 n ++ rest) = some ((n : Int), rest) := by
  have hread := number?_paddedChars (k := 3) h rest
  unfold year?
  rw [trimStart_digits (isDigit_paddedChars _ _) (Text.paddedChars_ne_nil _ _)]
  cases hds : Text.paddedChars 4 n with
  | nil => exact absurd hds (Text.paddedChars_ne_nil _ _)
  | cons c ds =>
    have hdigit : c.isDigit = true := isDigit_paddedChars _ _ c (by rw [hds]; simp)
    rw [hds] at hread
    split
    · next heq =>
      obtain rfl := (List.cons.inj heq).1
      cases hdigit
    · next heq =>
      obtain rfl := (List.cons.inj heq).1
      cases hdigit
    · rw [hread]
      rfl

theorem year?_yearChars (year : Int) (rest : List Char) :
    year? (Instant.yearChars year ++ '-' :: rest) = some (year, '-' :: rest) := by
  have hsigned : ∀ sign, year?.signed (Text.paddedChars 4 year.natAbs ++ '-' :: rest) sign =
      some (sign * year.natAbs, '-' :: rest) := fun sign => signed_paddedChars _ sign rest
  unfold Instant.yearChars
  split
  · have hyear : (-1 : Int) * year.natAbs = year := by omega
    have hread := hsigned (-1)
    rw [hyear] at hread
    rw [List.cons_append, year?, trimStart_of_not_isBlank (by decide)]
    exact hread
  split
  · have hyear : (year.natAbs : Int) = year := by omega
    rw [year?_paddedChars (by omega), hyear]
  · have hyear : (1 : Int) * year.natAbs = year := by omega
    have hread := hsigned 1
    rw [hyear] at hread
    rw [List.cons_append, year?, trimStart_of_not_isBlank (by decide)]
    exact hread

/-- A fraction of a second is read back from behind its point. -/
theorem fraction_paddedChars {n k : Nat} (h : n < 10 ^ (k + 1)) (hk : k + 1 ≤ 9) (rest : List Char)
    (hrest : ∀ c ∈ rest.head?, c.isDigit = false) :
    fraction (Text.paddedChars (k + 1) n ++ rest) = .ok (n * 10 ^ (9 - (k + 1)), rest) := by
  have htake := Text.takeWhile_append_of_stops (isDigit_paddedChars (k + 1) n) hrest
  have hdrop := Text.dropWhile_append_of_stops (isDigit_paddedChars (k + 1) n) hrest
  have hlength := Text.length_paddedChars h
  have hkept : (Text.paddedChars (k + 1) n).take 9 = Text.paddedChars (k + 1) n :=
    List.take_of_length_le (by omega)
  have hspelled := Text.spelled_paddedChars (k + 1) n
  have hne := Text.paddedChars_ne_nil (k + 1) n
  unfold fraction
  dsimp only
  rw [htake, hdrop, hkept, hlength, if_neg (by simp [hne]), if_neg (by simp [hne])]
  exact congrArg (fun m => Except.ok (m * 10 ^ (9 - (k + 1)), rest)) hspelled

/-- The shortest fraction of a second loses nothing. -/
theorem fractionChars_cases {nanos : Nat} (h : nanos < Instant.leapNanos) {rest : List Char}
    (hrest : ∀ c ∈ rest.head?, c.isDigit = false) :
    (Instant.fractionChars .shortest nanos = [] ∧ nanos = 0) ∨
      ∃ ds, Instant.fractionChars .shortest nanos = '.' :: ds ∧
        fraction (ds ++ rest) = .ok (nanos, rest) := by
  have hlimit : Instant.leapNanos = 1000000000 := rfl
  unfold Instant.fractionChars
  dsimp only
  split
  · next hzero => exact .inl ⟨rfl, hzero⟩
  split
  · next hmillis =>
    have hread := fraction_paddedChars (n := nanos / 1000000) (k := 2) (by omega) (by omega) rest
      hrest
    refine .inr ⟨_, rfl, hread.trans ?_⟩
    have hnanos : nanos / 1000000 * 10 ^ (9 - (2 + 1)) = nanos := by omega
    rw [hnanos]
  split
  · next hmicros =>
    have hread := fraction_paddedChars (n := nanos / 1000) (k := 5) (by omega) (by omega) rest
      hrest
    refine .inr ⟨_, rfl, hread.trans ?_⟩
    have hnanos : nanos / 1000 * 10 ^ (9 - (5 + 1)) = nanos := by omega
    rw [hnanos]
  · have hread := fraction_paddedChars (n := nanos) (k := 8) (by omega) (by omega) rest hrest
    refine .inr ⟨_, rfl, hread.trans ?_⟩
    have hnanos : nanos * 10 ^ (9 - (8 + 1)) = nanos := by omega
    rw [hnanos]

/-- What has been read is handed on to what reads the rest. -/
theorem bind_of_some {α β : Type} {x : Option α} {a : α} (h : x = some a) (f : α → Option β) :
    (x >>= f) = f a := by
  rw [h]
  rfl

/-- The fields of a timestamp are read one after the other. -/
theorem lenient?_fields (year : Int) {month day hour minute second nanos : Nat}
    (hmonth : month < 100) (hday : day < 100) (hhour : hour < 100) (hminute : minute < 100)
    (hsecond : second < 100) (hnanos : nanos < Instant.leapNanos) :
    lenient? (Instant.yearChars year ++ '-' :: Text.paddedChars 2 month ++ '-' ::
      Text.paddedChars 2 day ++ 'T' :: Text.paddedChars 2 hour ++ ':' ::
      Text.paddedChars 2 minute ++ ':' :: Text.paddedChars 2 second ++
      Instant.fractionChars .shortest nanos ++ ['Z']) =
      Instant.ofCivil? { year, month, day } hour minute second nanos 0 := by
  have hnumber : ∀ {n : Nat} (rest : List Char), n < 100 →
      number? 2 (Text.paddedChars 2 n ++ rest) = some (n, rest) :=
    fun rest hn => number?_paddedChars (k := 1) hn rest
  have hdash : ∀ rest, mark? '-' ('-' :: rest) = some rest := mark?_self (by decide)
  have hcolon : ∀ rest, mark? ':' (':' :: rest) = some rest := mark?_self (by decide)
  have hzone : zone? ['Z'] = some (0, []) := by decide
  have hend : Text.trimStart [] = [] := rfl
  have hoffset : isOffset 0 = true := rfl
  have hletter : ∀ c ∈ ['Z'].head?, c.isDigit = false := by
    intro c hc
    cases hc
    rfl
  have hbetween : ∀ rest, (oneOf ['T', 't', ' '] ('T' :: rest)).toOption = some ((), rest) :=
    fun rest => rfl
  simp only [List.append_assoc, List.cons_append]
  unfold lenient?
  refine (bind_of_some (year?_yearChars _ _) _).trans ?_
  refine (bind_of_some (hdash _) _).trans ?_
  refine (bind_of_some (hnumber _ hmonth) _).trans ?_
  refine (bind_of_some (hdash _) _).trans ?_
  refine (bind_of_some (hnumber _ hday) _).trans ?_
  refine (bind_of_some (hbetween _) _).trans ?_
  refine (bind_of_some (hnumber _ hhour) _).trans ?_
  refine (bind_of_some (hcolon _) _).trans ?_
  refine (bind_of_some (hnumber _ hminute) _).trans ?_
  refine (bind_of_some (hcolon _) _).trans ?_
  refine (bind_of_some (hnumber _ hsecond) _).trans ?_
  obtain ⟨hnone, rfl⟩ | ⟨ds, hds, hread⟩ := fractionChars_cases hnanos hletter
  · rw [hnone]
    simp [hzone, hend, hoffset]
  · have hfraction : (fraction (ds ++ ['Z'])).toOption = some (nanos, ['Z']) := by
      rw [hread]
      rfl
    rw [hds, List.cons_append]
    simp [hzone, hend, hoffset, hfraction]

end Timestamp

/-- The date and the time of day of an instant give that instant. The second before a leap second
and the leap second are told apart by the number of the second. -/
theorem Instant.ofCivil?_self {t : Instant} (h : t.IsValid) {inDay second nanos : Nat}
    (hinDay : inDay = (t.seconds % 86400).toNat)
    (hsecond : second = inDay % 60 + if leapNanos ≤ t.nanos then 1 else 0)
    (hnanos : nanos = if leapNanos ≤ t.nanos then t.nanos - leapNanos else t.nanos) :
    ofCivil? (Date.ofDays (t.seconds / 86400)) (inDay / 3600) (inDay / 60 % 60) second nanos 0 =
      some t := by
  obtain ⟨hday, hlast⟩ := h
  have hvalid := Date.isValid_ofDays (t.seconds / 86400)
  have hlimit : leapNanos = 1000000000 := rfl
  have hfields : ((Date.ofDays (t.seconds / 86400)).isValid && inDay / 3600 < 24 &&
      inDay / 60 % 60 < 60 && second ≤ 60) = true := by
    have hsecond' : second ≤ 60 := by
      rw [hsecond]
      split <;> omega
    simp [hvalid, hsecond']
    omega
  -- A leap second is a part of the last second of its minute.
  have hclock : (if (second == 60) = true then 59 else second) = inDay % 60 ∧
      (if (second == 60) = true then leapNanos + nanos else nanos) = t.nanos := by
    by_cases hleap : leapNanos ≤ t.nanos
    · rw [if_pos hleap] at hsecond hnanos
      have hsixty : second = 60 := by omega
      rw [if_pos (by simp [hsixty]), if_pos (by simp [hsixty])]
      omega
    · rw [if_neg hleap] at hsecond hnanos
      have hsixty : second ≠ 60 := by omega
      rw [if_neg (by simp [hsixty]), if_neg (by simp [hsixty])]
      exact ⟨hsecond, hnanos⟩
  have hseconds : t.seconds / 86400 * 86400 + (((inDay / 3600 : Nat) : Int) * 3600 +
      ((inDay / 60 % 60 : Nat) : Int) * 60 + ((inDay % 60 : Nat) : Int)) - 0 = t.seconds := by
    omega
  unfold ofCivil?
  rw [if_pos hfields]
  dsimp only
  rw [Date.toDays_ofDays, hclock.1, hclock.2, hseconds, if_pos (by simp [hday])]

/-- The shortest form of an instant is read back. -/
theorem Instant.ofLenientText?_toText {t : Instant} (h : t.IsValid) :
    Instant.ofLenientText? t.toText = some t := by
  obtain ⟨hmonth, hday⟩ := Date.month_day_lt (Date.isValid_ofDays (t.seconds / 86400))
  have hcivil := ofCivil?_self h rfl rfl rfl
  have hlimit : leapNanos = 1000000000 := rfl
  have hleap := h.2
  have hhour : (t.seconds % 86400).toNat / 3600 < 100 := by omega
  have hminute : (t.seconds % 86400).toNat / 60 % 60 < 100 := by omega
  have hsecond : (t.seconds % 86400).toNat % 60 + (if leapNanos ≤ t.nanos then 1 else 0) < 100 := by
    split <;> omega
  have hnanos : (if leapNanos ≤ t.nanos then t.nanos - leapNanos else t.nanos) < leapNanos := by
    split <;> omega
  have hfields := Timestamp.lenient?_fields (Date.ofDays (t.seconds / 86400)).year hmonth hday hhour
    hminute hsecond hnanos
  rw [ofLenientText?, toText, format, String.toList_ofList]
  exact hfields.trans hcivil

end Netconf.Time
