import Mathlib.Data.List.TakeWhile
import Netconf.Proofs.Except
import Netconf.Proofs.Text.Numeral
import Netconf.Proofs.Time.Calendar
import Netconf.Time.Timestamp

/-! The grammar of strict timestamps. The texts that are read as an instant are those of RFC 3339,
with a blank for the `T` and a sixtieth second in any minute, and with a second character for the
minus sign of an offset, which RFC 3339 does not know. -/
namespace Netconf.Time

/-- The instant of a day and a time of day, read with an offset from universal time. A sixtieth
second is a part of the one before it. -/
def Instant.ofClock (date : Date) (clock : Timestamp.Clock) (offset : Int) : Instant where
  seconds := date.toDays * 86400 +
    (clock.hour * 3600 + clock.minute * 60 + (if clock.second = 60 then 59 else clock.second)) -
    offset
  nanos := if clock.second = 60 then leapNanos + clock.nanos else clock.nanos

namespace Timestamp

/-- The characters that are read as a minus sign: the hyphen, and the sign of its own. -/
def minusSigns : List Char := ['-', '−']

theorem mem_minusSigns {c : Char} : c ∈ minusSigns ↔ c = '-' ∨ c = '−' := by simp [minusSigns]

/-- So many decimal digits. -/
structure AreDigits (count : Nat) (ds : List Char) : Prop where
  length_eq : ds.length = count
  isDigit : ∀ c ∈ ds, c.isDigit = true

/-- The zone of a timestamp: a letter for universal time, or an offset from it. -/
inductive Zone where
  | universal (letter : Char)
  | offset (sign : Char) (hours minutes : List Char)

namespace Zone

def chars : Zone → List Char
  | universal letter => [letter]
  | offset sign hours minutes => sign :: (hours ++ ':' :: minutes)

/-- The zone in seconds. -/
def seconds : Zone → Int
  | universal _ => 0
  | offset sign hours minutes =>
    let seconds : Int := Text.spelled 0 hours * 3600 + Text.spelled 0 minutes * 60
    if sign = '+' then seconds else -seconds

/-- A zone in which one of some characters stands for the minus sign. -/
def IsWritten (minuses : List Char) : Zone → Prop
  | universal letter => letter = 'Z' ∨ letter = 'z'
  | offset sign hours minutes => (sign = '+' ∨ sign ∈ minuses) ∧ AreDigits 2 hours ∧
      AreDigits 2 minutes ∧ Text.spelled 0 minutes < 60

/-- An offset of less than a day. -/
def IsWithinDay : Zone → Prop
  | universal _ => True
  | offset _ hours _ => Text.spelled 0 hours < 24

end Zone

/-- The fields of a timestamp, as they are written. -/
structure Fields where
  year : List Char
  month : List Char
  day : List Char
  separator : Char
  hour : List Char
  minute : List Char
  second : List Char
  /-- The digits behind the point. Without any there is no point. -/
  fraction : List Char
  zone : Zone

/-- The digits of a fraction with the point before them. -/
def pointed (ds : List Char) : List Char := if ds = [] then [] else '.' :: ds

/-- The nanoseconds of a fraction of a second. Digits past the ninth mean nothing. -/
def nanosOf (ds : List Char) : Nat := Text.spelled 0 (ds.take 9) * 10 ^ (9 - (ds.take 9).length)

namespace Fields

def date (f : Fields) : Date where
  year := Text.spelled 0 f.year
  month := Text.spelled 0 f.month
  day := Text.spelled 0 f.day

def clock (f : Fields) : Clock where
  hour := Text.spelled 0 f.hour
  minute := Text.spelled 0 f.minute
  second := Text.spelled 0 f.second
  nanos := nanosOf f.fraction

def dateChars (f : Fields) : List Char := f.year ++ '-' :: (f.month ++ '-' :: f.day)

def clockChars (f : Fields) : List Char :=
  f.hour ++ ':' :: (f.minute ++ ':' :: (f.second ++ pointed f.fraction))

def chars (f : Fields) : List Char :=
  f.dateChars ++ f.separator :: (f.clockChars ++ f.zone.chars)

def instant (f : Fields) : Instant := .ofClock f.date f.clock f.zone.seconds

/-- The date and the time of day exist, and so does the offset; one of some characters stands for
its minus sign. -/
structure IsValid (minuses : List Char) (f : Fields) : Prop where
  year : AreDigits 4 f.year
  month : AreDigits 2 f.month
  day : AreDigits 2 f.day
  date : f.date.isValid = true
  separator : f.separator ∈ ['T', 't', ' ']
  hour : AreDigits 2 f.hour
  hour_lt : f.clock.hour < 24
  minute : AreDigits 2 f.minute
  minute_lt : f.clock.minute < 60
  second : AreDigits 2 f.second
  second_le : f.clock.second ≤ 60
  fraction : ∀ c ∈ f.fraction, c.isDigit = true
  zone : f.zone.IsWritten minuses
  offset : f.zone.IsWithinDay

end Fields

/-- A text spells an instant, with one of some characters for the minus sign of its offset. -/
def Spells (minuses : List Char) (s : String) (t : Instant) : Prop :=
  ∃ f : Fields, f.IsValid minuses ∧ f.chars = s.toList ∧ f.instant = t

/-! Digits. -/

variable {cs rest ds : List Char}

theorem AreDigits.nil : AreDigits 0 [] := ⟨rfl, by simp⟩

theorem areDigits_cons {count : Nat} {c : Char} :
    AreDigits (count + 1) (c :: ds) ↔ c.isDigit = true ∧ AreDigits count ds := by
  constructor
  · intro h
    exact ⟨h.isDigit c (by simp), Nat.succ.inj h.length_eq, fun d hd => h.isDigit d (by simp [hd])⟩
  · rintro ⟨hc, hds⟩
    exact ⟨congrArg Nat.succ hds.length_eq, List.forall_mem_cons.mpr ⟨hc, hds.isDigit⟩⟩

theorem toNat_of_isDigit {c : Char} (h : c.isDigit = true) :
    '0'.toNat ≤ c.toNat ∧ c.toNat ≤ '0'.toNat + 9 := by
  simp only [Char.isDigit, Bool.and_eq_true, decide_eq_true_eq] at h
  exact ⟨h.1, h.2⟩

theorem spelled_lt {start count : Nat} (h : AreDigits count ds) :
    Text.spelled start ds < (start + 1) * 10 ^ count := by
  induction count generalizing start ds with
  | zero =>
    rw [List.length_eq_zero_iff.mp h.length_eq, Text.spelled_nil]
    omega
  | succ count ih =>
    cases ds with
    | nil => cases h.length_eq
    | cons c ds =>
      obtain ⟨hc, hds⟩ := areDigits_cons.mp h
      have hvalue := toNat_of_isDigit hc
      rw [Text.spelled_cons, Nat.pow_succ]
      calc Text.spelled (start * 10 + (c.toNat - '0'.toNat)) ds
          < (start * 10 + (c.toNat - '0'.toNat) + 1) * 10 ^ count := ih hds
        _ ≤ ((start + 1) * 10) * 10 ^ count := Nat.mul_le_mul_right _ (by omega)
        _ = (start + 1) * (10 ^ count * 10) := by rw [Nat.mul_assoc, Nat.mul_comm 10]

theorem digit_eq_ok_iff {d : Nat} :
    digit cs = .ok (d, rest) ↔
      ∃ c, c.isDigit = true ∧ cs = c :: rest ∧ d = c.toNat - '0'.toNat := by
  cases cs with
  | nil => simp [digit]
  | cons c cs =>
    by_cases hc : c.isDigit = true
    · simp only [digit, if_pos hc, Except.ok.injEq, Prod.mk.injEq, List.cons.injEq]
      constructor
      · rintro ⟨rfl, rfl⟩
        exact ⟨c, hc, ⟨rfl, rfl⟩, rfl⟩
      · rintro ⟨c', -, ⟨rfl, rfl⟩, rfl⟩
        exact ⟨rfl, rfl⟩
    · simp only [digit, if_neg hc, reduceCtorEq, List.cons.injEq, false_iff]
      rintro ⟨c', hc', ⟨rfl, -⟩, -⟩
      exact hc hc'

theorem digits_eq_ok_iff {count start n : Nat} :
    digits count start cs = .ok (n, rest) ↔
      ∃ ds, AreDigits count ds ∧ cs = ds ++ rest ∧ n = Text.spelled start ds := by
  induction count generalizing start cs with
  | zero =>
    simp only [digits, Except.ok.injEq, Prod.mk.injEq]
    constructor
    · rintro ⟨rfl, rfl⟩
      exact ⟨[], .nil, rfl, rfl⟩
    · rintro ⟨ds, hds, rfl, rfl⟩
      rw [List.length_eq_zero_iff.mp hds.length_eq]
      exact ⟨rfl, rfl⟩
  | succ count ih =>
    constructor
    · intro h
      rw [digits] at h
      split at h
      · next d cs' hdigit =>
        obtain ⟨c, hc, rfl, rfl⟩ := digit_eq_ok_iff.mp hdigit
        obtain ⟨ds, hds, rfl, rfl⟩ := ih.mp h
        exact ⟨c :: ds, areDigits_cons.mpr ⟨hc, hds⟩, rfl, rfl⟩
      · cases h
    · rintro ⟨ds, hds, rfl, rfl⟩
      cases ds with
      | nil => cases hds.length_eq
      | cons c ds =>
        obtain ⟨hc, hds⟩ := areDigits_cons.mp hds
        rw [List.cons_append, digits, digit_eq_ok_iff.mpr ⟨c, hc, rfl, rfl⟩]
        exact ih.mpr ⟨ds, hds, rfl, rfl⟩

theorem oneOf_eq_ok_iff {allowed : List Char} {u : Unit} :
    oneOf allowed cs = .ok (u, rest) ↔ ∃ c ∈ allowed, cs = c :: rest := by
  cases cs with
  | nil => simp [oneOf]
  | cons c cs =>
    by_cases hc : c ∈ allowed
    · simp only [oneOf, if_pos hc, Except.ok.injEq, Prod.mk.injEq, true_and, List.cons.injEq]
      constructor
      · rintro rfl
        exact ⟨c, hc, rfl, rfl⟩
      · rintro ⟨c', -, -, rfl⟩
        rfl
    · simp only [oneOf, if_neg hc, reduceCtorEq, List.cons.injEq, false_iff]
      rintro ⟨c', hc', rfl, -⟩
      exact hc hc'

/-! Fields. -/

theorem fullDate_eq_ok_iff {date : Date} :
    fullDate cs = .ok (date, rest) ↔ ∃ year month day : List Char, AreDigits 4 year ∧
      AreDigits 2 month ∧ AreDigits 2 day ∧ cs = year ++ '-' :: (month ++ '-' :: (day ++ rest)) ∧
      date = ⟨Text.spelled 0 year, Text.spelled 0 month, Text.spelled 0 day⟩ ∧
      date.isValid = true := by
  simp only [fullDate, Except.bind_eq_ok_iff, Prod.exists, digits_eq_ok_iff, oneOf_eq_ok_iff,
    List.mem_singleton]
  constructor
  · rintro ⟨y, _, ⟨year, hyear, rfl, rfl⟩, _, _, ⟨_, rfl, rfl⟩, m, _, ⟨month, hmonth, rfl, rfl⟩,
      _, _, ⟨_, rfl, rfl⟩, d, _, ⟨day, hday, rfl, rfl⟩, h⟩
    split at h
    · next hvalid =>
      obtain ⟨rfl, rfl⟩ := Prod.mk.inj (Except.ok.inj h)
      exact ⟨year, month, day, hyear, hmonth, hday, rfl, rfl, hvalid⟩
    · cases h
  · rintro ⟨year, month, day, hyear, hmonth, hday, rfl, rfl, hvalid⟩
    refine ⟨_, _, ⟨year, hyear, rfl, rfl⟩, (), _, ⟨_, rfl, rfl⟩, _, _, ⟨month, hmonth, rfl, rfl⟩,
      (), _, ⟨_, rfl, rfl⟩, _, _, ⟨day, hday, rfl, rfl⟩, ?_⟩
    rw [if_pos hvalid]
    rfl

/-- What cannot go on with a fraction of a second, nor begin with one. -/
def Stops (rest : List Char) : Prop := ∀ c ∈ rest.head?, c.isDigit = false ∧ c ≠ '.'

theorem fraction_eq_ok_iff {nanos : Nat} (hrest : Stops rest) :
    fraction cs = .ok (nanos, rest) ↔
      ∃ ds, ds ≠ [] ∧ (∀ c ∈ ds, c.isDigit = true) ∧ cs = ds ++ rest ∧ nanos = nanosOf ds := by
  constructor
  · intro h
    rw [fraction] at h
    split at h
    · cases h
    · split at h
      · cases h
      · next hds =>
        obtain ⟨rfl, rfl⟩ := Prod.mk.inj (Except.ok.inj h)
        refine ⟨cs.takeWhile (·.isDigit), by simpa using hds, ?_, ?_, rfl⟩
        · exact fun c hc => List.mem_takeWhile_imp hc
        · exact (List.takeWhile_append_dropWhile (p := (·.isDigit)) (l := cs)).symm
  · rintro ⟨ds, hne, hds, rfl, rfl⟩
    have hdigits : ∀ c ∈ rest.head?, c.isDigit = false := fun c hc => (hrest c hc).1
    rw [fraction, Text.takeWhile_append_of_stops hds hdigits,
      Text.dropWhile_append_of_stops hds hdigits, if_neg (by simp [hne]), if_neg (by simp [hne])]
    rfl

theorem pointedFraction_eq_ok_iff {nanos : Nat} (hrest : Stops rest) :
    pointedFraction cs = .ok (nanos, rest) ↔
      ∃ ds, (∀ c ∈ ds, c.isDigit = true) ∧ cs = pointed ds ++ rest ∧ nanos = nanosOf ds := by
  constructor
  · intro h
    rw [pointedFraction.eq_def] at h
    split at h
    · obtain ⟨ds, hne, hds, rfl, rfl⟩ := (fraction_eq_ok_iff hrest).mp h
      exact ⟨ds, hds, by rw [pointed, if_neg hne, List.cons_append], rfl⟩
    · obtain ⟨rfl, rfl⟩ := Prod.mk.inj (Except.ok.inj h)
      exact ⟨[], by simp, rfl, rfl⟩
  · rintro ⟨ds, hds, rfl, rfl⟩
    by_cases hne : ds = []
    · -- Nothing is read, since what follows is no point.
      subst hne
      rw [pointedFraction.eq_def]
      split
      · next hpoint =>
        rw [pointed, if_pos rfl, List.nil_append] at hpoint
        exact absurd rfl (hrest '.' (by rw [hpoint]; rfl)).2
      · rfl
    · rw [pointed, if_neg hne, List.cons_append, pointedFraction]
      exact (fraction_eq_ok_iff hrest).mpr ⟨ds, hne, hds, rfl, rfl⟩

theorem timeOfDay_eq_ok_iff {clock : Clock} (hrest : Stops rest) :
    timeOfDay cs = .ok (clock, rest) ↔ ∃ hour minute second ds : List Char, AreDigits 2 hour ∧
      AreDigits 2 minute ∧ AreDigits 2 second ∧ (∀ c ∈ ds, c.isDigit = true) ∧
      cs = hour ++ ':' :: (minute ++ ':' :: (second ++ (pointed ds ++ rest))) ∧
      clock = ⟨Text.spelled 0 hour, Text.spelled 0 minute, Text.spelled 0 second, nanosOf ds⟩ ∧
      clock.hour < 24 ∧ clock.minute < 60 ∧ clock.second ≤ 60 := by
  simp only [timeOfDay, Except.bind_eq_ok_iff, Prod.exists, digits_eq_ok_iff, oneOf_eq_ok_iff,
    List.mem_singleton]
  constructor
  · rintro ⟨h, _, ⟨hour, hhour, rfl, rfl⟩, _, _, ⟨_, rfl, rfl⟩, m, _, ⟨minute, hminute, rfl, rfl⟩,
      _, _, ⟨_, rfl, rfl⟩, s, _, ⟨second, hsecond, rfl, rfl⟩, nanos, _, hfraction, hclock⟩
    split at hclock
    · next hvalid =>
      obtain ⟨rfl, rfl⟩ := Prod.mk.inj (Except.ok.inj hclock)
      obtain ⟨ds, hds, rfl, rfl⟩ := (pointedFraction_eq_ok_iff hrest).mp hfraction
      simp only [Bool.and_eq_true, decide_eq_true_eq] at hvalid
      exact ⟨hour, minute, second, ds, hhour, hminute, hsecond, hds, rfl, rfl,
        Nat.lt_succ_of_le hvalid.1.1, Nat.lt_succ_of_le hvalid.1.2, hvalid.2⟩
    · cases hclock
  · rintro ⟨hour, minute, second, ds, hhour, hminute, hsecond, hds, rfl, rfl, hlt, hlt', hle⟩
    refine ⟨_, _, ⟨hour, hhour, rfl, rfl⟩, (), _, ⟨_, rfl, rfl⟩, _, _, ⟨minute, hminute, rfl, rfl⟩,
      (), _, ⟨_, rfl, rfl⟩, _, _, ⟨second, hsecond, rfl, rfl⟩, _, rest,
      (pointedFraction_eq_ok_iff hrest).mpr ⟨ds, hds, rfl, rfl⟩, ?_⟩
    dsimp only at hlt hlt' hle
    rw [if_pos (by simp only [Bool.and_eq_true, decide_eq_true_eq]; omega)]
    rfl

/-! Zones. -/

theorem foldl_utf8Size (start : Nat) :
    start + cs.length ≤ cs.foldl (fun n c => n + c.utf8Size) start := by
  induction cs generalizing start with
  | nil => exact Nat.le_refl _
  | cons c cs ih =>
    have hsize := c.utf8Size_pos
    have := ih (start + c.utf8Size)
    rw [List.foldl_cons, List.length_cons]
    omega

theorem length_le_byteLength (cs : List Char) : cs.length ≤ byteLength cs := by
  have hle : 0 + cs.length ≤ byteLength cs := foldl_utf8Size 0
  rwa [Nat.zero_add] at hle

theorem areDigits_two : AreDigits 2 ds ↔
    ∃ c d, c.isDigit = true ∧ d.isDigit = true ∧ ds = [c, d] := by
  constructor
  · intro h
    obtain ⟨c, d, rfl⟩ := List.length_eq_two.mp h.length_eq
    exact ⟨c, d, h.isDigit c (by simp), h.isDigit d (by simp), rfl⟩
  · rintro ⟨c, d, hc, hd, rfl⟩
    exact ⟨rfl, by simp [hc, hd]⟩

theorem offsetDigits_eq_ok_iff {a b : Nat} :
    offsetDigits cs = .ok ((a, b), rest) ↔ ∃ c d, c.isDigit = true ∧ d.isDigit = true ∧
      cs = c :: d :: rest ∧ a = c.toNat - '0'.toNat ∧ b = d.toNat - '0'.toNat := by
  constructor
  · intro h
    rw [offsetDigits] at h
    split at h
    · cases h
    · split at h
      · cases h
      · next hfirst =>
        split at h
        · cases h
        · next hsecond =>
          obtain ⟨hvalue, rfl⟩ := Prod.mk.inj (Except.ok.inj h)
          obtain ⟨rfl, rfl⟩ := Prod.mk.inj hvalue
          obtain ⟨c, hc, rfl, rfl⟩ := digit_eq_ok_iff.mp hfirst
          obtain ⟨d, hd, rfl, rfl⟩ := digit_eq_ok_iff.mp hsecond
          exact ⟨c, d, hc, hd, rfl, rfl, rfl⟩
  · rintro ⟨c, d, hc, hd, rfl, rfl, rfl⟩
    have hlength : 2 ≤ byteLength (c :: d :: rest) :=
      Nat.le_trans (by simp) (length_le_byteLength _)
    rw [offsetDigits, if_neg (by omega), digit_eq_ok_iff.mpr ⟨c, hc, rfl, rfl⟩]
    dsimp only
    rw [digit_eq_ok_iff.mpr ⟨d, hd, rfl, rfl⟩]

theorem colon_eq_ok_iff {u : Unit} : colon cs = .ok (u, rest) ↔ cs = ':' :: rest := by
  cases cs with
  | nil => simp [colon]
  | cons c cs =>
    by_cases hc : c = ':'
    · simp [colon, hc]
    · simp [colon, hc]

theorem exists_zone_of_offset {seconds : Int} (h : offset colon cs = .ok (seconds, rest)) :
    ∃ zone : Zone, zone.IsWritten minusSigns ∧ cs = zone.chars ++ rest ∧
      seconds = zone.seconds := by
  cases cs with
  | nil => cases h
  | cons c cs =>
    rw [offset] at h
    split at h
    · next hletter =>
      obtain ⟨rfl, rfl⟩ := Prod.mk.inj (Except.ok.inj h)
      exact ⟨.universal c, hletter, rfl, rfl⟩
    · split at h
      · next hsign =>
        simp only [Except.bind_eq_ok_iff, Prod.exists, offsetDigits_eq_ok_iff,
          colon_eq_ok_iff] at h
        obtain ⟨_, _, _, ⟨h1, h2, hh1, hh2, rfl, rfl, rfl⟩, _, _, rfl, _, _, _,
          ⟨m1, m2, hm1, hm2, rfl, rfl, rfl⟩, h⟩ := h
        split at h
        · cases h
        · next hminutes =>
          obtain ⟨rfl, rfl⟩ := Prod.mk.inj (Except.ok.inj h)
          have hvalue := toNat_of_isDigit hm2
          refine ⟨.offset c [h1, h2] [m1, m2], ⟨by rwa [mem_minusSigns],
            areDigits_two.mpr ⟨h1, h2, hh1, hh2, rfl⟩, areDigits_two.mpr ⟨m1, m2, hm1, hm2, rfl⟩,
            ?_⟩, rfl, ?_⟩
          · simp only [Text.spelled_cons, Text.spelled_nil]
            omega
          · simp [Zone.seconds, Text.spelled_cons]
      · cases h

theorem Zone.IsWritten.offset_chars {zone : Zone} (h : zone.IsWritten minusSigns)
    (rest : List Char) :
    Timestamp.offset colon (zone.chars ++ rest) = .ok (zone.seconds, rest) := by
  cases zone with
  | universal letter =>
    have hletter : letter = 'Z' ∨ letter = 'z' := h
    exact if_pos hletter
  | offset sign hours minutes =>
    obtain ⟨hsign, hhours, hminutes, hlt⟩ := h
    obtain ⟨h1, h2, hh1, hh2, rfl⟩ := areDigits_two.mp hhours
    obtain ⟨m1, m2, hm1, hm2, rfl⟩ := areDigits_two.mp hminutes
    have hletter : ¬ (sign = 'Z' ∨ sign = 'z') := by
      rintro (rfl | rfl)
      · exact absurd hsign (by decide)
      · exact absurd hsign (by decide)
    have hsmall : ¬ 6 ≤ m1.toNat - '0'.toNat := by
      simp only [Text.spelled_cons, Text.spelled_nil] at hlt
      omega
    rw [Zone.chars, List.cons_append, Timestamp.offset, if_neg hletter,
      if_pos (by rwa [mem_minusSigns] at hsign)]
    simp only [Except.bind_eq_ok_iff, Prod.exists, offsetDigits_eq_ok_iff, colon_eq_ok_iff]
    refine ⟨_, _, _, ⟨h1, h2, hh1, hh2, rfl, rfl, rfl⟩, (), _, rfl, _, _, rest,
      ⟨m1, m2, hm1, hm2, rfl, rfl, rfl⟩, ?_⟩
    rw [if_neg hsmall]
    simp [Zone.seconds, Text.spelled_cons, pure, Except.pure]

theorem offset_eq_ok_iff {seconds : Int} :
    offset colon cs = .ok (seconds, rest) ↔
      ∃ zone : Zone, zone.IsWritten minusSigns ∧ cs = zone.chars ++ rest ∧
        seconds = zone.seconds := by
  constructor
  · exact exists_zone_of_offset
  · rintro ⟨zone, hzone, rfl, rfl⟩
    exact hzone.offset_chars rest

/-- A zone cannot be taken for a part of the fraction before it. -/
theorem Zone.IsWritten.stops {zone : Zone} (h : zone.IsWritten minusSigns) (rest : List Char) :
    Stops (zone.chars ++ rest) := by
  intro c hc
  cases zone with
  | universal letter =>
    obtain rfl := Option.some.inj hc
    obtain rfl | rfl := h
    · decide
    · decide
  | offset sign hours minutes =>
    obtain rfl := Option.some.inj hc
    obtain ⟨hsign, -⟩ := h
    obtain rfl | rfl | rfl : sign = '+' ∨ sign = '-' ∨ sign = '−' := by
      rwa [mem_minusSigns] at hsign
    · decide
    · decide
    · decide

theorem Zone.IsWritten.isOffset_iff {minuses : List Char} {zone : Zone}
    (h : zone.IsWritten minuses) : isOffset zone.seconds = true ↔ zone.IsWithinDay := by
  cases zone with
  | universal letter => exact iff_of_true rfl trivial
  | offset sign hours minutes =>
    obtain ⟨-, -, -, hlt⟩ := h
    rw [isOffset, decide_eq_true_eq]
    dsimp only [Zone.seconds, Zone.IsWithinDay]
    split
    · omega
    · omega

end Timestamp

/-! The instant. -/

/-- The calendar goes further than years of four digits. -/
theorem Date.toDays_bounds {d : Date} (h : d.isValid = true) (hyear : 0 ≤ d.year)
    (hyear' : d.year < 10000) : first.toDays + 2 ≤ d.toDays ∧ d.toDays + 2 ≤ last.toDays := by
  obtain ⟨hmonth, hday⟩ := month_day_lt h
  have hfirst : first.toDays = -96465292 := by decide
  have hlast : last.toDays = 95026236 := by decide
  rw [hfirst, hlast, toDays]
  split
  · split
    · omega
    · omega
  · split
    · omega
    · omega

theorem Date.hasDay_of_bounds {days : Int} (h : first.toDays ≤ days) (h' : days ≤ last.toDays) :
    hasDay days = true := by simp [hasDay, h, h']

theorem Instant.ofCivil?_of_isValid {date : Date} {clock : Timestamp.Clock} {offset : Int}
    (hdate : date.isValid = true) (hyear : 0 ≤ date.year) (hyear' : date.year < 10000)
    (hhour : clock.hour < 24) (hminute : clock.minute < 60) (hsecond : clock.second ≤ 60)
    (hoffset : Timestamp.isOffset offset = true) :
    ofCivil? date clock.hour clock.minute clock.second clock.nanos offset =
      some (.ofClock date clock offset) := by
  obtain ⟨hfirst, hlast⟩ := Date.toDays_bounds hdate hyear hyear'
  simp only [Timestamp.isOffset, decide_eq_true_eq] at hoffset
  have hday : Date.hasDay date.toDays = true := Date.hasDay_of_bounds (by omega) (by omega)
  have hday' : Date.hasDay ((ofClock date clock offset).seconds / 86400) = true := by
    unfold ofClock
    dsimp only
    refine Date.hasDay_of_bounds ?_ ?_
    · split <;> omega
    · split <;> omega
  have hcivil : (date.isValid && clock.hour < 24 && clock.minute < 60 &&
      clock.second ≤ 60) = true := by
    simp only [hdate, Bool.and_eq_true, decide_eq_true_eq, true_and]
    exact ⟨⟨hhour, hminute⟩, hsecond⟩
  have hleap : (clock.second == 60) = decide (clock.second = 60) := rfl
  rw [ofCivil?, if_pos hcivil]
  simp only [hleap, decide_eq_true_eq]
  exact if_pos (by rw [hday, Bool.true_and]; exact hday')

namespace Timestamp

variable {cs rest ds : List Char}

theorem Fields.IsValid.year_lt {minuses : List Char} {f : Fields} (h : f.IsValid minuses) :
    f.date.year < 10000 := by
  have hlt : Text.spelled 0 f.year < (0 + 1) * 10 ^ 4 := spelled_lt h.year
  change (Text.spelled 0 f.year : Int) < 10000
  omega

theorem concluded_of_isValid {minuses : List Char} {f : Fields} (h : f.IsValid minuses) :
    concluded f.date f.clock f.zone.seconds [] = .ok f.instant := by
  have hoffset : isOffset f.zone.seconds = true := h.zone.isOffset_iff.mpr h.offset
  rw [concluded, if_neg (by decide), hoffset, if_neg (by decide),
    Instant.ofCivil?_of_isValid h.date (Int.natCast_nonneg _) h.year_lt h.hour_lt h.minute_lt
      h.second_le hoffset]
  rfl

theorem of_concluded {date : Date} {clock : Clock} {offset : Int} {t : Instant}
    (h : concluded date clock offset rest = .ok t) : rest = [] ∧ isOffset offset = true := by
  rw [concluded] at h
  split at h
  · cases h
  · next hrest =>
    split at h
    · cases h
    · next hoffset => exact ⟨by simpa using hrest, by simpa using hoffset⟩

theorem Fields.IsValid.length_chars_ge {minuses : List Char} {f : Fields} (h : f.IsValid minuses) :
    19 ≤ f.chars.length := by
  have := h.year.length_eq
  have := h.month.length_eq
  have := h.day.length_eq
  have := h.hour.length_eq
  have := h.minute.length_eq
  have := h.second.length_eq
  simp only [chars, dateChars, clockChars, List.length_append, List.length_cons]
  omega

theorem strict_of_isValid {f : Fields} (h : f.IsValid minusSigns) :
    strict f.chars = .ok f.instant := by
  have hlength := Nat.le_trans h.length_chars_ge (length_le_byteLength _)
  have hdate : fullDate f.chars = .ok (f.date, f.separator :: (f.clockChars ++ f.zone.chars)) :=
    fullDate_eq_ok_iff.mpr ⟨f.year, f.month, f.day, h.year, h.month, h.day,
      by simp [Fields.chars, Fields.dateChars], rfl, h.date⟩
  have hclock : timeOfDay (f.clockChars ++ f.zone.chars) = .ok (f.clock, f.zone.chars) := by
    refine (timeOfDay_eq_ok_iff ?_).mpr ⟨f.hour, f.minute, f.second, f.fraction, h.hour, h.minute,
      h.second, h.fraction, by simp [Fields.clockChars], rfl, h.hour_lt, h.minute_lt, h.second_le⟩
    simpa using h.zone.stops []
  have hzone : offset colon f.zone.chars = .ok (f.zone.seconds, []) :=
    offset_eq_ok_iff.mpr ⟨f.zone, h.zone, (List.append_nil _).symm, rfl⟩
  rw [strict, if_neg (by omega)]
  simp only [Except.bind_eq_ok_iff, Prod.exists]
  exact ⟨_, _, hdate, (), _, oneOf_eq_ok_iff.mpr ⟨_, h.separator, rfl⟩, _, _, hclock, _, _, hzone,
    concluded_of_isValid h⟩

theorem exists_fields_of_strict {t : Instant} (h : strict cs = .ok t) :
    ∃ f : Fields, f.IsValid minusSigns ∧ f.chars = cs ∧ f.instant = t := by
  rw [strict] at h
  split at h
  · cases h
  · simp only [Except.bind_eq_ok_iff, Prod.exists, fullDate_eq_ok_iff, oneOf_eq_ok_iff,
      offset_eq_ok_iff] at h
    obtain ⟨_, _, ⟨year, month, day, hyear, hmonth, hday, rfl, rfl, hdate⟩, _, _,
      ⟨separator, hseparator, rfl⟩, _, _, hclock, _, rest, ⟨zone, hzone, rfl, rfl⟩, hlast⟩ := h
    obtain ⟨hour, minute, second, ds, hhour, hminute, hsecond, hds, rfl, rfl, hlt, hlt', hle⟩ :=
      (timeOfDay_eq_ok_iff (hzone.stops rest)).mp hclock
    obtain ⟨rfl, hoffset⟩ := of_concluded hlast
    have hvalid : Fields.IsValid minusSigns
        ⟨year, month, day, separator, hour, minute, second, ds, zone⟩ :=
      ⟨hyear, hmonth, hday, hdate, hseparator, hhour, hlt, hminute, hlt', hsecond, hle, hds, hzone,
        hzone.isOffset_iff.mp hoffset⟩
    refine ⟨_, hvalid, by simp [Fields.chars, Fields.dateChars, Fields.clockChars], ?_⟩
    exact Except.ok.inj ((concluded_of_isValid hvalid).symm.trans hlast)

/-- Nothing but digits and a few marks stands in a timestamp. -/
theorem Spells.mem_minuses {minuses : List Char} {s : String} {t : Instant} (h : Spells minuses s t)
    {c : Char} (hc : c ∈ s.toList) (hdigit : c.isDigit = false)
    (hmark : c ∉ ['-', ':', '.', '+', 'T', 't', ' ', 'Z', 'z']) : c ∈ minuses := by
  obtain ⟨f, hvalid, hchars, -⟩ := h
  have hdigits {count : Nat} {ds : List Char} (hds : AreDigits count ds) : c ∉ ds :=
    fun hmem => by simp [hds.isDigit c hmem] at hdigit
  have hfraction : c ∉ pointed f.fraction := by
    rw [pointed]
    split
    · exact List.not_mem_nil
    · intro hmem
      obtain rfl | hmem := List.mem_cons.mp hmem
      · exact hmark (by decide)
      · simp [hvalid.fraction c hmem] at hdigit
  have hseparator : c ≠ f.separator := by
    rintro rfl
    have hmarks : ['T', 't', ' '] ⊆ ['-', ':', '.', '+', 'T', 't', ' ', 'Z', 'z'] := by decide
    exact hmark (hmarks hvalid.separator)
  have hzone : c ∈ f.zone.chars := by
    rw [← hchars] at hc
    simp only [List.mem_cons, List.not_mem_nil, or_false, not_or] at hmark
    simpa [Fields.chars, Fields.dateChars, Fields.clockChars, hdigits hvalid.year,
      hdigits hvalid.month, hdigits hvalid.day, hdigits hvalid.hour, hdigits hvalid.minute,
      hdigits hvalid.second, hfraction, hseparator, hmark] using hc
  cases hz : f.zone with
  | universal letter =>
    have hletter := hvalid.zone
    rw [hz] at hletter hzone
    obtain rfl := List.mem_singleton.mp hzone
    obtain rfl | rfl := hletter
    · exact absurd (by decide) hmark
    · exact absurd (by decide) hmark
  | offset sign hours minutes =>
    have hwritten := hvalid.zone
    rw [hz] at hwritten hzone
    obtain ⟨hsign, hhours, hminutes, -⟩ := hwritten
    simp only [List.mem_cons, List.not_mem_nil, or_false, not_or] at hmark
    have hc' : c = sign := by
      simpa [Zone.chars, hdigits hhours, hdigits hminutes, hmark] using hzone
    rw [hc'] at hmark ⊢
    exact hsign.resolve_left hmark.2.2.2.1

end Timestamp

/-- The texts that are read, and as which instants. -/
theorem Instant.ofText_eq_ok_iff {s : String} {t : Instant} :
    ofText s = .ok t ↔ Timestamp.Spells Timestamp.minusSigns s t := by
  constructor
  · exact fun h => Timestamp.exists_fields_of_strict h
  · rintro ⟨f, hvalid, hchars, rfl⟩
    rw [ofText, ← hchars]
    exact Timestamp.strict_of_isValid hvalid

end Netconf.Time
