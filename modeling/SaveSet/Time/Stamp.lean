import SaveSet.Text.Numeral
import SaveSet.Time.Calendar

/-! Time stamps: signed counts of 100 ns ticks since 1858-11-17; a count of zero is no date at all. -/

namespace SaveSet

structure Stamp where
  ticks : Int
  deriving DecidableEq, Repr, Inhabited

namespace Stamp

def unixEpoch : Int := 0x7C95674BEB4000

def ticksPerSecond : Int := 10000000

def isSpecified (t : Stamp) : Bool := t.ticks != 0

def leastTicks : Int := -0x8000000000000000

def unixSeconds? (t : Stamp) : Option Int :=
  if t.ticks - unixEpoch < leastTicks then none else some ((t.ticks - unixEpoch) / ticksPerSecond)

def seconds? (t : Stamp) : Option Int := if t.isSpecified then t.unixSeconds? else none

def monthNames : List String :=
  ["JAN", "FEB", "MAR", "APR", "MAY", "JUN", "JUL", "AUG", "SEP", "OCT", "NOV", "DEC"]

def twoDigits (n : Nat) : String := Numeral.padLeft 2 '0' (Numeral.natural n)

def dateText (d : Date) : String :=
  Numeral.natural d.day ++ "-" ++ monthNames.getD (d.month - 1) "" ++ "-" ++ Numeral.integer d.year

def clockText (second : Nat) : String :=
  twoDigits (second / 3600) ++ ":" ++ twoDigits (second / 60 % 60) ++ ":" ++ twoDigits (second % 60)

def fractionText (t : Stamp) (digits : Nat) : String :=
  let shown := min digits 7
  let fraction := (t.ticks % ticksPerSecond).toNat / Nat.pow 10 (7 - shown)
  Numeral.padLeft shown '0' (Numeral.natural fraction)

def format (t : Stamp) (digits : Nat) : String :=
  if t.isSpecified then
    match t.unixSeconds? with
    | none => "<Invalid Date>"
    | some s =>
      let text := dateText (.ofDayNumber (s / 86400)) ++ " " ++ clockText (s % 86400).toNat
      if digits = 0 then text else text ++ "." ++ t.fractionText digits
  else "<None Specified>"

end Stamp

end SaveSet
