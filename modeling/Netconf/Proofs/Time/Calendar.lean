import Netconf.Time.Instant

/-! The calendar. The day that a number of days leads to is one of the calendar, and it is that many
days away. Years are counted from March, so that the leap day is the last of its year. -/
namespace Netconf.Time

/-- The days of a cycle of four hundred years that are over when so many years of it are. -/
def daysBefore (year : Int) : Int := 365 * year + year / 4 - year / 100

/-- The year of a cycle that a day of it belongs to. -/
def yearOfDay (day : Int) : Int := (day - day / 1460 + day / 36524 - day / 146096) / 365

section

variable {day : Int}

theorem yearOfDay_bounds (h : 0 ≤ day) (h' : day < 146097) :
    0 ≤ yearOfDay day ∧ yearOfDay day < 400 := by
  unfold yearOfDay
  omega

/-- The last day of a cycle is the only one that is put right. -/
theorem yearOfDay_of_lt (h : 0 ≤ day) (h' : day < 146096) :
    yearOfDay day = (day - day / 1460 + day / 36524) / 365 := by
  have hcycle : day / 146096 = 0 := by omega
  rw [yearOfDay, hcycle, Int.sub_zero]

/-- The last day of a cycle apart, a day is in the century of its year. -/
theorem century_yearOfDay (h : 0 ≤ day) (h' : day < 146096) :
    yearOfDay day / 100 = day / 36524 := by
  rw [yearOfDay_of_lt h h']
  generalize hfour : day / 1460 = e
  generalize hcentury : day / 36524 = q
  generalize hyear : (day - e + q) / 365 = y
  have hle : y / 100 ≤ q := by omega
  have hge : q ≤ y / 100 := by omega
  omega

/-- A day of a cycle lies in its year. -/
theorem daysBefore_yearOfDay (h : 0 ≤ day) (h' : day < 146097) :
    daysBefore (yearOfDay day) ≤ day ∧ day ≤ daysBefore (yearOfDay day) + 365 := by
  by_cases hlast : day = 146096
  · rw [hlast]
    decide
  · have hcentury := century_yearOfDay h (by omega)
    have hyear := yearOfDay_of_lt h (by omega)
    unfold daysBefore
    rw [hcentury]
    generalize yearOfDay day = y at *
    have hle : y / 4 ≤ day / 1460 := by omega
    have hge : day / 1460 ≤ y / 4 + 1 := by omega
    omega

/-- Only a leap year has a day more than others. -/
theorem leap_of_lastDay (h : 0 ≤ day) (h' : day < 146097)
    (hlast : day = daysBefore (yearOfDay day) + 365) : (yearOfDay day + 1) % 4 = 0 ∧
      ((yearOfDay day + 1) % 100 ≠ 0 ∨ (yearOfDay day + 1) % 400 = 0) := by
  by_cases hlast' : day = 146096
  · rw [hlast']
    decide
  · have hcentury := century_yearOfDay h (by omega)
    have hyear := yearOfDay_of_lt h (by omega)
    unfold daysBefore at hlast
    rw [hcentury] at hlast
    generalize yearOfDay day = y at *
    have hfour : day / 1460 = y / 4 + 1 := by omega
    have hthird : y % 4 = 3 := by omega
    refine ⟨by omega, .inl fun hround => ?_⟩
    omega

end

namespace Date

/-- The date of a day of a year, both counted from March. -/
def ofMarch (year dayOfYear : Int) : Date :=
  let month := (5 * dayOfYear + 2) / 153
  let calendarMonth := if month < 10 then month + 3 else month - 9
  { year := year + (if calendarMonth ≤ 2 then 1 else 0)
    month := calendarMonth.toNat
    day := (dayOfYear - (153 * month + 2) / 5 + 1).toNat }

theorem ofDays_eq_ofMarch (days : Int) :
    ofDays days = ofMarch (yearOfDay ((days + 719468) % 146097) + (days + 719468) / 146097 * 400)
      ((days + 719468) % 146097 - daysBefore (yearOfDay ((days + 719468) % 146097))) := rfl

theorem toDays_ofMarch (year : Int) {dayOfYear : Int} (h : 0 ≤ dayOfYear) (h' : dayOfYear ≤ 365) :
    (ofMarch year dayOfYear).toDays =
      year / 400 * 146097 + daysBefore (year % 400) + dayOfYear - 719468 := by
  unfold ofMarch toDays daysBefore
  generalize hmonth : (5 * dayOfYear + 2) / 153 = month
  dsimp only
  have hday : 1 ≤ dayOfYear - (153 * month + 2) / 5 + 1 := by omega
  by_cases hearly : month < 10
  · have hlate : ¬ month + 3 ≤ 2 := by omega
    have hlate' : ¬ (month + 3).toNat ≤ 2 := by omega
    have hlate'' : (month + 3).toNat > 2 := by omega
    simp only [if_pos hearly, if_neg hlate, if_neg hlate', if_pos hlate'']
    omega
  · have hwinter : month - 9 ≤ 2 := by omega
    have hwinter' : (month - 9).toNat ≤ 2 := by omega
    have hwinter'' : ¬ (month - 9).toNat > 2 := by omega
    simp only [if_neg hearly, if_pos hwinter, if_pos hwinter', if_neg hwinter'']
    omega

/-- Only a year in front of a leap day has a 366th day. -/
theorem isValid_ofMarch (year : Int) {dayOfYear : Int} (h : 0 ≤ dayOfYear) (h' : dayOfYear ≤ 365)
    (hleap : dayOfYear = 365 → isLeapYear (year + 1) = true) :
    (ofMarch year dayOfYear).isValid = true := by
  unfold ofMarch
  generalize hmonth : (5 * dayOfYear + 2) / 153 = month
  by_cases hlast : month = 11
  · -- The last of these months is February, the only one whose length is not always the same.
    subst hlast
    cases hyear : isLeapYear (year + 1) with
    | true =>
      simp [isValid, daysInMonth, hyear]
      omega
    | false =>
      have hshort : dayOfYear ≠ 365 := fun h365 => by simp [hleap h365] at hyear
      simp [isValid, daysInMonth, hyear]
      omega
  · have hmonths : month = 0 ∨ month = 1 ∨ month = 2 ∨ month = 3 ∨ month = 4 ∨ month = 5 ∨
        month = 6 ∨ month = 7 ∨ month = 8 ∨ month = 9 ∨ month = 10 := by omega
    obtain rfl | rfl | rfl | rfl | rfl | rfl | rfl | rfl | rfl | rfl | rfl := hmonths
    all_goals
      simp [isValid, daysInMonth]
      omega

@[simp] theorem toDays_ofDays (days : Int) : (ofDays days).toDays = days := by
  have hday : 0 ≤ (days + 719468) % 146097 ∧ (days + 719468) % 146097 < 146097 := by omega
  have hyear := yearOfDay_bounds hday.1 hday.2
  obtain ⟨hle, hge⟩ := daysBefore_yearOfDay hday.1 hday.2
  rw [ofDays_eq_ofMarch, toDays_ofMarch _ (by omega) (by omega)]
  have hcycle : (yearOfDay ((days + 719468) % 146097) + (days + 719468) / 146097 * 400) / 400 =
      (days + 719468) / 146097 := by omega
  have hrest : (yearOfDay ((days + 719468) % 146097) + (days + 719468) / 146097 * 400) % 400 =
      yearOfDay ((days + 719468) % 146097) := by omega
  rw [hcycle, hrest]
  omega

theorem isValid_ofDays (days : Int) : (ofDays days).isValid = true := by
  have hday : 0 ≤ (days + 719468) % 146097 ∧ (days + 719468) % 146097 < 146097 := by omega
  obtain ⟨hle, hge⟩ := daysBefore_yearOfDay hday.1 hday.2
  rw [ofDays_eq_ofMarch]
  refine isValid_ofMarch _ (by omega) (by omega) fun hlast => ?_
  obtain ⟨hfour, hcentury⟩ := leap_of_lastDay hday.1 hday.2 (by omega)
  simp only [isLeapYear, Bool.and_eq_true, Bool.or_eq_true, beq_iff_eq, bne_iff_ne]
  omega

/-- The month and the day of a date that exists have two digits at most. -/
theorem month_day_lt {d : Date} (h : d.isValid = true) : d.month < 100 ∧ d.day < 100 := by
  have hlength : daysInMonth d.year d.month ≤ 31 := by
    unfold daysInMonth
    split
    · split <;> omega
    · split <;> omega
  simp only [isValid, Bool.and_eq_true, decide_eq_true_eq] at h
  omega

end Date

end Netconf.Time
