namespace SaveSet

structure Date where
  year : Int
  month : Nat
  day : Nat
  deriving DecidableEq, Repr

namespace Date

/-- Days from 0000-03-01 to 1970-01-01. Years that start in March have their leap day last. -/
def marchOffset : Int := 719468

def ofYearDay (yearDay : Nat) : Nat × Nat :=
  let m := (5 * yearDay + 2) / 153
  (if m < 10 then m + 3 else m - 9, yearDay - (153 * m + 2) / 5 + 1)

def ofDayNumber (n : Int) : Date :=
  let days := n + marchOffset
  let cycle := days / 146097
  let inCycle := (days % 146097).toNat
  let century := min (inCycle / 36524) 3
  let inCentury := inCycle - century * 36524
  let olympiad := inCentury / 1461
  let inOlympiad := inCentury - olympiad * 1461
  let single := min (inOlympiad / 365) 3
  let monthDay := ofYearDay (inOlympiad - single * 365)
  let year := 400 * cycle + (100 * century + 4 * olympiad + single : Nat)
  { year := if monthDay.1 ≤ 2 then year + 1 else year, month := monthDay.1, day := monthDay.2 }

end Date

end SaveSet
