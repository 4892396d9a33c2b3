import Mathlib.Tactic.IntervalCases
import Mathlib.Tactic.Lemma
import SaveSet.Time.Calendar

/-! The Gregorian calendar as it is counted: days by the lengths of months, months by the lengths of years. The
number of a day leads to the date that it is counted to. -/

namespace SaveSet.Date

def IsLeap (year : Int) : Prop := year % 4 = 0 ∧ (year % 100 ≠ 0 ∨ year % 400 = 0)

instance : DecidablePred IsLeap := fun _ => instDecidableAnd

def yearLength (year : Int) : Nat := if IsLeap year then 366 else 365

def monthLength (year : Int) (month : Nat) : Nat :=
  if month = 2 then if IsLeap year then 29 else 28
  else if month = 4 ∨ month = 6 ∨ month = 9 ∨ month = 11 then 30 else 31

structure InCalendar (d : Date) : Prop where
  month_pos : 1 ≤ d.month
  month_le : d.month ≤ 12
  day_pos : 1 ≤ d.day
  day_le : d.day ≤ monthLength d.year d.month

def daysOfYears (first : Int) : Nat → Nat
  | 0 => 0
  | n + 1 => daysOfYears first n + yearLength (first + n)

def daysOfMonths (year : Int) : Nat → Nat
  | 0 => 0
  | n + 1 => daysOfMonths year n + monthLength year (n + 1)

def daysBeforeYear (year : Int) : Int :=
  (daysOfYears 1970 (year - 1970).toNat : Int) - daysOfYears year (1970 - year).toNat

def dayNumber (d : Date) : Int := daysBeforeYear d.year + daysOfMonths d.year (d.month - 1) + (d.day - 1)

def marchStart (year : Int) : Int := 365 * year + year / 4 - year / 100 + year / 400 - marchOffset

def marchMonthStart (m : Nat) : Nat := (153 * m + 2) / 5

def inMarchYear (year : Int) (yearDay : Nat) : Date :=
  let monthDay := ofYearDay yearDay
  { year := if monthDay.1 ≤ 2 then year + 1 else year, month := monthDay.1, day := monthDay.2 }

variable {year cycle : Int} {yearDay m century olympiad single : Nat}

lemma yearLength_eq (year : Int) : (yearLength year : Int) =
    365 + (year / 4 - (year - 1) / 4) - (year / 100 - (year - 1) / 100) + (year / 400 - (year - 1) / 400) := by
  rw [yearLength]
  split
  · next hleap =>
    simp only [IsLeap] at hleap
    omega
  · next hcommon =>
    simp only [IsLeap] at hcommon
    omega

lemma daysOfYears_eq (first : Int) (n : Nat) : (daysOfYears first n : Int) =
    365 * n + ((first + n - 1) / 4 - (first - 1) / 4) - ((first + n - 1) / 100 - (first - 1) / 100) +
      ((first + n - 1) / 400 - (first - 1) / 400) := by
  induction n with
  | zero => simp [daysOfYears]
  | succ n ih =>
    rw [daysOfYears, Int.natCast_add, ih, yearLength_eq]
    omega

lemma daysBeforeYear_eq (year : Int) :
    daysBeforeYear year = 365 * (year - 1970) + (year - 1) / 4 - (year - 1) / 100 + (year - 1) / 400 - 477 := by
  rw [daysBeforeYear, daysOfYears_eq, daysOfYears_eq]
  omega

lemma daysOfMonths_two (year : Int) : daysOfMonths year 2 + 306 = yearLength year := by
  by_cases h : IsLeap year <;> simp [daysOfMonths, monthLength, yearLength, h]

lemma daysBefore_march (year : Int) : daysBeforeYear year + daysOfMonths year 2 = marchStart year := by
  have htwo := daysOfMonths_two year
  have hlength := yearLength_eq year
  rw [daysBeforeYear_eq, marchStart, marchOffset]
  omega

lemma daysBefore_january (year : Int) : daysBeforeYear (year + 1) = marchStart year + 306 := by
  rw [daysBeforeYear_eq, marchStart, marchOffset]
  omega

lemma daysOfMonths_march (year : Int) (hm : m < 10) :
    daysOfMonths year (m + 2) = daysOfMonths year 2 + marchMonthStart m := by
  interval_cases m <;> simp [daysOfMonths, monthLength, marchMonthStart]

lemma daysOfMonths_january (year : Int) (hm : m < 2) : daysOfMonths year m + 306 = marchMonthStart (m + 10) := by
  interval_cases m <;> rfl

lemma monthLength_march (year : Int) (hm : m < 10) :
    marchMonthStart m + monthLength year (m + 3) = marchMonthStart (m + 1) := by
  interval_cases m <;> rfl

lemma monthLength_january (year : Int) (hm : m < 2) :
    min (marchMonthStart (m + 11)) (yearLength year) = marchMonthStart (m + 10) + monthLength year (m + 1) := by
  interval_cases m <;> by_cases h : IsLeap year <;> simp [marchMonthStart, yearLength, monthLength, h]

lemma inMarchYear_eq (year : Int) (h : yearDay < 367) :
    (∃ m < 10, marchMonthStart m ≤ yearDay ∧ yearDay < marchMonthStart (m + 1) ∧
      inMarchYear year yearDay = ⟨year, m + 3, yearDay - marchMonthStart m + 1⟩) ∨
    ∃ m < 2, marchMonthStart (m + 10) ≤ yearDay ∧ yearDay < marchMonthStart (m + 11) ∧
      inMarchYear year yearDay = ⟨year + 1, m + 1, yearDay - marchMonthStart (m + 10) + 1⟩ := by
  simp only [marchMonthStart, inMarchYear, ofYearDay]
  rcases Nat.lt_or_ge ((5 * yearDay + 2) / 153) 10 with hm | hm
  · refine .inl ⟨_, hm, by omega, by omega, ?_⟩
    simp only [if_pos hm, if_neg (by omega : ¬ (5 * yearDay + 2) / 153 + 3 ≤ 2)]
  · obtain ⟨m, hm'⟩ := Nat.exists_eq_add_of_le' hm
    refine .inr ⟨m, by omega, by omega, by omega, ?_⟩
    simp only [hm', if_neg (by omega : ¬ m + 10 < 10), if_pos (by omega : m + 10 - 9 ≤ 2)]
    rfl

lemma inMarchYear_isDate (h : yearDay < yearLength (year + 1)) :
    (inMarchYear year yearDay).InCalendar ∧ (inMarchYear year yearDay).dayNumber = marchStart year + yearDay := by
  have hlength : yearLength (year + 1) ≤ 366 := by rw [yearLength]; split <;> decide
  obtain ⟨m, hm, hle, hlt, heq⟩ | ⟨m, hm, hle, hlt, heq⟩ := inMarchYear_eq year (by omega : yearDay < 367)
  · have hmonth := monthLength_march year hm
    have hbefore : daysOfMonths year (m + 3 - 1) = daysOfMonths year 2 + marchMonthStart m :=
      daysOfMonths_march year hm
    have hmarch := daysBefore_march year
    rw [heq]
    refine ⟨⟨?_, ?_, ?_, ?_⟩, ?_⟩ <;> simp only [dayNumber] <;> omega
  · have hmonth := monthLength_january (year + 1) hm
    have hbefore : daysOfMonths (year + 1) (m + 1 - 1) + 306 = marchMonthStart (m + 10) :=
      daysOfMonths_january (year + 1) hm
    have hjanuary := daysBefore_january year
    rw [heq]
    refine ⟨⟨?_, ?_, ?_, ?_⟩, ?_⟩ <;> simp only [dayNumber] <;> omega

lemma marchStart_of_cycle (ha : century < 4) (hb : olympiad < 25) (hs : single < 4) :
    marchStart (400 * cycle + (100 * century + 4 * olympiad + single : Nat)) =
      146097 * cycle + (36524 * century + 1461 * olympiad + 365 * single : Nat) - marchOffset := by
  have hyear : ((400 * cycle + (100 * century + 4 * olympiad + single : Nat)) / 4 : Int) =
      100 * cycle + 25 * century + olympiad := by omega
  have hcentury : ((400 * cycle + (100 * century + 4 * olympiad + single : Nat)) / 100 : Int) =
      4 * cycle + century := by omega
  have hcycle : ((400 * cycle + (100 * century + 4 * olympiad + single : Nat)) / 400 : Int) = cycle := by omega
  rw [marchStart, hyear, hcentury, hcycle]
  omega

lemma lt_yearLength (hb : olympiad < 25) (hs : single < 4)
    (h : yearDay < 365 ∨ yearDay = 365 ∧ single = 3 ∧ (olympiad = 24 → century = 3)) :
    yearDay < yearLength (400 * cycle + (100 * century + 4 * olympiad + single : Nat) + 1) := by
  rw [yearLength]
  split
  · omega
  · next hyear =>
    simp only [IsLeap] at hyear
    omega

lemma ofDayNumber_eq (n : Int) : ∃ year yearDay, yearDay < yearLength (year + 1) ∧
    marchStart year + (yearDay : Nat) = n ∧ ofDayNumber n = inMarchYear year yearDay := by
  obtain ⟨cycle, hcycle⟩ : ∃ cycle, cycle = (n + marchOffset) / 146097 := ⟨_, rfl⟩
  obtain ⟨inCycle, hin⟩ : ∃ inCycle, inCycle = ((n + marchOffset) % 146097).toNat := ⟨_, rfl⟩
  obtain ⟨century, hcentury⟩ : ∃ century, century = min (inCycle / 36524) 3 := ⟨_, rfl⟩
  obtain ⟨inCentury, hinCentury⟩ : ∃ inCentury, inCentury = inCycle - century * 36524 := ⟨_, rfl⟩
  obtain ⟨olympiad, holympiad⟩ : ∃ olympiad, olympiad = inCentury / 1461 := ⟨_, rfl⟩
  obtain ⟨inOlympiad, hinOlympiad⟩ : ∃ inOlympiad, inOlympiad = inCentury - olympiad * 1461 := ⟨_, rfl⟩
  obtain ⟨single, hsingle⟩ : ∃ single, single = min (inOlympiad / 365) 3 := ⟨_, rfl⟩
  -- The day behind three centuries of 36524 days, or three years of 365, can still be one of the fourth.
  have ha : century < 4 ∧ inCentury ≤ 36524 ∧ (inCentury = 36524 → century = 3) := by omega
  have hb : olympiad < 25 ∧ inOlympiad ≤ 1460 ∧ (inOlympiad = 1460 ∧ olympiad = 24 → inCentury = 36524) := by
    omega
  refine ⟨400 * cycle + (100 * century + 4 * olympiad + single : Nat), inOlympiad - single * 365,
    lt_yearLength hb.1 (by omega) (by omega), ?_, by subst_vars; rfl⟩
  rw [marchStart_of_cycle ha.1 hb.1 (by omega)]
  omega

theorem ofDayNumber_isDate (n : Int) : (ofDayNumber n).InCalendar ∧ (ofDayNumber n).dayNumber = n := by
  obtain ⟨year, yearDay, hday, hn, heq⟩ := ofDayNumber_eq n
  rw [heq, ← hn]
  exact inMarchYear_isDate hday

end SaveSet.Date
