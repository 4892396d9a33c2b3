import Mathlib.Data.List.GetD
import Mathlib.Data.List.Nodup
import SaveSet.Proofs.Text.Numerals
import SaveSet.Proofs.Time.Calendar
import SaveSet.Time.Stamp

namespace SaveSet

open Numeral

@[ext]
structure Moment where
  date : Date
  hour : Nat
  minute : Nat
  second : Nat
  fraction : Nat
  inCalendar : date.InCalendar
  hour_lt : hour < 24
  minute_lt : minute < 60
  second_lt : second < 60
  fraction_lt : fraction < 10 ^ 7

namespace Moment

def unixSeconds (x : Moment) : Int :=
  86400 * x.date.dayNumber + (3600 * x.hour + 60 * x.minute + x.second : Nat)

def ticks (x : Moment) : Int := Stamp.unixEpoch + 10000000 * x.unixSeconds + x.fraction

def monthName (x : Moment) : String := Stamp.monthNames.getD (x.date.month - 1) ""

def toTheSecond (x : Moment) : String :=
  toString x.date.day ++ "-" ++ x.monthName ++ "-" ++ toString x.date.year ++ " " ++
    String.ofList (lastDigits 2 x.hour) ++ ":" ++ String.ofList (lastDigits 2 x.minute) ++ ":" ++
    String.ofList (lastDigits 2 x.second)

def text (x : Moment) : String := x.toTheSecond ++ "." ++ String.ofList (lastDigits 7 x.fraction)

variable {x y : Moment} {xs ys us vs : List Char} {c : Char} {n : Nat} {i : Int}

lemma eq_of_append_cons (hx : c ∉ xs) (hy : c ∉ ys) (h : xs ++ c :: us = ys ++ c :: vs) : xs = ys ∧ us = vs := by
  have htake {zs ws : List Char} (hz : c ∉ zs) : (zs ++ c :: ws).takeWhile (· ≠ c) = zs := by
    rw [List.takeWhile_append_of_pos (fun d hd => decide_eq_true (ne_of_mem_of_not_mem hd hz)),
      List.takeWhile_cons_of_neg (by simp), List.append_nil]
  have hxs : xs = ys := by rw [← htake hx, h, htake hy]
  exact ⟨hxs, (List.cons.inj (List.append_cancel_left (hxs ▸ h))).2⟩

lemma notMem_toString_nat (hc : c.isDigit = false) : c ∉ (toString n).toList := fun hmem => by
  rw [Nat.toString_eq_repr, Nat.toList_repr] at hmem
  rw [Nat.isDigit_of_mem_toDigits (by decide) (by decide) hmem] at hc
  cases hc

lemma notMem_toString_int (hc : c.isDigit = false) (hsign : c ≠ '-') : c ∉ (toString i).toList := by
  cases i with
  | ofNat n => exact notMem_toString_nat hc
  | negSucc n =>
    have htext : toString (Int.negSucc n) = "-" ++ toString (n + 1) := rfl
    rw [htext, String.toList_append]
    exact fun hmem => (List.mem_append.mp hmem).elim (fun h => hsign (by simpa using h)) (notMem_toString_nat hc)

lemma monthName_eq (x : Moment) :
    ∃ h : x.date.month - 1 < Stamp.monthNames.length, x.monthName = Stamp.monthNames[x.date.month - 1] := by
  have hmonth : x.date.month - 1 < 12 :=
    Nat.sub_one_lt_of_le x.inCalendar.month_pos x.inCalendar.month_le
  exact ⟨hmonth, List.getD_eq_getElem _ _ hmonth⟩

lemma month_eq (h : x.monthName = y.monthName) : x.date.month = y.date.month := by
  obtain ⟨hx, hxname⟩ := monthName_eq x
  obtain ⟨hy, hyname⟩ := monthName_eq y
  have hnodup : Stamp.monthNames.Nodup := by decide
  have hindex : x.date.month - 1 = y.date.month - 1 := hnodup.getElem_inj_iff.mp (hxname ▸ hyname ▸ h)
  exact Nat.sub_one_cancel x.inCalendar.month_pos y.inCalendar.month_pos hindex

lemma notMem_monthName (x : Moment) : '-' ∉ x.monthName.toList := by
  obtain ⟨hx, hname⟩ := monthName_eq x
  have hall : ∀ name ∈ Stamp.monthNames, '-' ∉ name.toList := by decide
  exact hname ▸ hall _ (List.getElem_mem hx)

lemma toList_text (x : Moment) : x.text.toList =
    (toString x.date.day).toList ++ '-' :: (x.monthName.toList ++ '-' :: ((toString x.date.year).toList ++ ' ' ::
      (lastDigits 2 x.hour ++ ':' :: (lastDigits 2 x.minute ++ ':' :: (lastDigits 2 x.second ++ '.' ::
        lastDigits 7 x.fraction))))) := by
  simp [text, toTheSecond]

lemma text_injective : Function.Injective text := by
  intro x y h
  have hlist := congrArg String.toList h
  rw [toList_text, toList_text] at hlist
  obtain ⟨hday, hlist⟩ := eq_of_append_cons (notMem_toString_nat rfl) (notMem_toString_nat rfl) hlist
  obtain ⟨hmonth, hlist⟩ := eq_of_append_cons (notMem_monthName x) (notMem_monthName y) hlist
  obtain ⟨hyear, hlist⟩ := eq_of_append_cons (notMem_toString_int rfl (by decide))
    (notMem_toString_int rfl (by decide)) hlist
  obtain ⟨hhour, hlist⟩ := lastDigits_append_inj (x.hour_lt.trans (by decide)) (y.hour_lt.trans (by decide)) hlist
  obtain ⟨hminute, hlist⟩ := lastDigits_append_inj (x.minute_lt.trans (by decide)) (y.minute_lt.trans (by decide))
    (List.cons.inj hlist).2
  obtain ⟨hsecond, hlist⟩ := lastDigits_append_inj (x.second_lt.trans (by decide)) (y.second_lt.trans (by decide))
    (List.cons.inj hlist).2
  have hfraction := congrArg value (List.cons.inj hlist).2
  rw [value_lastDigits x.fraction_lt, value_lastDigits y.fraction_lt] at hfraction
  have hdate : x.date = y.date := by
    have hday : (x.date.day : Int) = y.date.day := toString_injective (String.toList_inj.mp hday)
    have hyear := toString_injective (String.toList_inj.mp hyear)
    have hmonth := month_eq (String.toList_inj.mp hmonth)
    cases hx : x.date
    cases hy : y.date
    simp_all
  exact Moment.ext hdate hhour hminute hsecond hfraction

def ofSeconds (s : Int) (fraction : Nat) (h : fraction < 10 ^ 7) : Moment where
  date := .ofDayNumber (s / 86400)
  hour := (s % 86400).toNat / 3600
  minute := (s % 86400).toNat / 60 % 60
  second := (s % 86400).toNat % 60
  fraction := fraction
  inCalendar := (Date.ofDayNumber_isDate _).1
  hour_lt := by omega
  minute_lt := Nat.mod_lt _ (by decide)
  second_lt := Nat.mod_lt _ (by decide)
  fraction_lt := h

lemma unixSeconds_ofSeconds (s : Int) (fraction : Nat) (h : fraction < 10 ^ 7) :
    (ofSeconds s fraction h).unixSeconds = s := by
  simp only [unixSeconds, ofSeconds, (Date.ofDayNumber_isDate _).2]
  omega

end Moment

namespace Stamp

variable {t u : Stamp} {shown : Nat}

/-- Not the time for which nothing is known, and in the range where seconds since 1970 are counted. -/
structure IsDate (t : Stamp) : Prop where
  specified : t.ticks ≠ 0
  no_underflow : leastTicks ≤ t.ticks - unixEpoch

def moment (t : Stamp) : Moment :=
  .ofSeconds ((t.ticks - unixEpoch) / ticksPerSecond) (t.ticks % ticksPerSecond).toNat (by rw [ticksPerSecond]; omega)

lemma ticks_moment (t : Stamp) : t.moment.ticks = t.ticks := by
  rw [Moment.ticks, moment, Moment.unixSeconds_ofSeconds]
  simp only [Moment.ofSeconds, ticksPerSecond, unixEpoch]
  omega

lemma dateText_eq (x : Moment) :
    dateText x.date = toString x.date.day ++ "-" ++ x.monthName ++ "-" ++ toString x.date.year := by
  rw [dateText, natural_eq_toString, integer_eq_toString, Moment.monthName]

lemma clockText_eq {second : Nat} (h : second < 86400) : clockText second =
    String.ofList (lastDigits 2 (second / 3600)) ++ ":" ++ String.ofList (lastDigits 2 (second / 60 % 60)) ++ ":" ++
      String.ofList (lastDigits 2 (second % 60)) := by
  have hpad {n : Nat} (hn : n < 60) : twoDigits n = String.ofList (lastDigits 2 n) :=
    padLeft_natural (hn.trans (by decide))
  rw [clockText, hpad (by omega), hpad (Nat.mod_lt _ (by decide)), hpad (Nat.mod_lt _ (by decide))]

lemma toTheSecond_moment (t : Stamp) :
    dateText (.ofDayNumber ((t.ticks - unixEpoch) / ticksPerSecond / 86400)) ++ " " ++
      clockText ((t.ticks - unixEpoch) / ticksPerSecond % 86400).toNat = t.moment.toTheSecond := by
  have hdate := dateText_eq t.moment
  rw [clockText_eq (by omega)]
  rw [moment, Moment.ofSeconds] at hdate ⊢
  rw [hdate]
  simp only [Moment.toTheSecond, String.append_assoc]

lemma fractionText_eq (t : Stamp) (h : shown < 7) :
    t.fractionText (shown + 1) = String.ofList (lastDigits (shown + 1) (t.moment.fraction / 10 ^ (6 - shown))) := by
  have hfraction : t.moment.fraction / 10 ^ (6 - shown) < 10 ^ (shown + 1) := by
    rw [Nat.div_lt_iff_lt_mul (Nat.pow_pos (by decide)), ← Nat.pow_add, (by omega : shown + 1 + (6 - shown) = 7)]
    exact t.moment.fraction_lt
  rw [← padLeft_natural hfraction, fractionText, Nat.min_eq_left h, Nat.add_sub_add_right 6 1 shown]
  rfl

lemma format_eq (h : t.IsDate) (digits : Nat) : t.format digits =
    if digits = 0 then t.moment.toTheSecond else t.moment.toTheSecond ++ "." ++ t.fractionText digits := by
  have hspecified : t.isSpecified = true := bne_iff_ne.mpr h.specified
  have hseconds : t.unixSeconds? = some ((t.ticks - unixEpoch) / ticksPerSecond) :=
    if_neg (Int.not_lt.mpr h.no_underflow)
  rw [format, if_pos hspecified, hseconds, ← toTheSecond_moment]

lemma format_seven (h : t.IsDate) : t.format 7 = t.moment.text := by
  rw [format_eq h, if_neg (by decide), fractionText_eq t (by decide), Nat.pow_zero, Nat.div_one, Moment.text]

lemma format_cut (h : t.IsDate) (hshown : shown < 7) :
    t.format 7 = t.format (shown + 1) ++ String.ofList (lastDigits (6 - shown) t.moment.fraction) := by
  have hdigits := lastDigits_add (shown + 1) (6 - shown) t.moment.fraction
  rw [(by omega : shown + 1 + (6 - shown) = 7)] at hdigits
  rw [format_seven h, format_eq h, if_neg (Nat.succ_ne_zero _), fractionText_eq t hshown, Moment.text, hdigits,
    String.ofList_append]
  simp only [String.append_assoc]

lemma format_underflow (ht : t.ticks ≠ 0) (h : t.ticks - unixEpoch < leastTicks) (digits : Nat) :
    t.format digits = "<Invalid Date>" := by
  have hspecified : t.isSpecified = true := bne_iff_ne.mpr ht
  have hseconds : t.unixSeconds? = none := if_pos h
  rw [format, if_pos hspecified, hseconds]

lemma exists_format_eq (h : t.IsDate) (digits : Nat) :
    ∃ behind, t.format digits = toString t.moment.date.day ++ behind := by
  rw [format_eq h, Moment.toTheSecond]
  split <;> simp only [String.append_assoc] <;> exact ⟨_, rfl⟩

lemma format_ne (h : t.IsDate) (digits : Nat) (words : String) : t.format digits ≠ "<" ++ words := by
  intro heq
  obtain ⟨behind, hbehind⟩ := exists_format_eq h digits
  obtain ⟨c, cs, hday⟩ := List.exists_cons_of_ne_nil (isNumeral_digits t.moment.date.day).nonempty
  have hdigit := (isNumeral_digits t.moment.date.day).all_digits c (hday ▸ List.mem_cons_self)
  have hlist := congrArg String.toList (hbehind.symm.trans heq)
  rw [← natural_eq_toString, natural, String.toList_append, String.toList_ofList, hday, String.toList_append] at hlist
  rw [(List.cons.inj hlist).1] at hdigit
  cases hdigit

lemma isDate_of_format (h : t.IsDate) {digits : Nat} (hu : u.format digits = t.format digits) : u.IsDate := by
  have hspecified : u.ticks ≠ 0 := fun hzero => by
    have hnone : u.isSpecified = false := bne_eq_false_iff_eq.mpr hzero
    have htext : u.format digits = "<" ++ "None Specified>" := by
      rw [format, hnone]
      rfl
    exact format_ne h digits _ (hu.symm.trans htext)
  refine ⟨hspecified, Int.not_lt.mp fun hunderflow => ?_⟩
  exact format_ne h digits "Invalid Date>" (hu.symm.trans (format_underflow hspecified hunderflow digits))

/-- A written time says what its ticks are counted to, in full when all seven digits are shown. Only a stamp that is
too far back to be counted in seconds since 1970 is no valid date. -/
theorem format_is_exact (t : Stamp) (ht : t.ticks ≠ 0) :
    (∀ digits, t.format digits = "<Invalid Date>" ↔ t.ticks - unixEpoch < leastTicks) ∧
    (leastTicks ≤ t.ticks - unixEpoch →
      (∃ x : Moment, x.ticks = t.ticks ∧ t.format 7 = x.text) ∧
      (∀ digits, 1 ≤ digits → digits ≤ 6 → ∃ cut : String, cut.length = 7 - digits ∧
        t.format 7 = t.format digits ++ cut) ∧
      (∃ fraction : String, fraction.length = 7 ∧ t.format 7 = t.format 0 ++ "." ++ fraction) ∧
      ∀ u : Stamp, u.format 7 = t.format 7 → u = t) := by
  refine ⟨fun digits => ⟨fun htext => ?_, fun hunderflow => format_underflow ht hunderflow digits⟩,
    fun hrange => ?_⟩
  · by_contra hrange
    exact format_ne ⟨ht, Int.not_lt.mp hrange⟩ digits "Invalid Date>" htext
  have h : t.IsDate := ⟨ht, hrange⟩
  refine ⟨⟨t.moment, t.ticks_moment, format_seven h⟩, fun digits hpos hle => ?_,
    ⟨String.ofList (lastDigits 7 t.moment.fraction), ?_, ?_⟩, fun u hu => ?_⟩
  · obtain ⟨shown, rfl⟩ := Nat.exists_eq_add_of_le' hpos
    exact ⟨_, by rw [String.length_ofList, length_lastDigits]; omega, format_cut h (by omega)⟩
  · rw [String.length_ofList, length_lastDigits]
  · rw [format_seven h, format_eq h, if_pos rfl, Moment.text]
  · have hmoment : u.moment = t.moment := Moment.text_injective (by
      rw [← format_seven h, ← format_seven (isDate_of_format h hu), hu])
    have hticks : u.ticks = t.ticks := by rw [← u.ticks_moment, hmoment, t.ticks_moment]
    cases u
    exact congrArg Stamp.mk hticks

theorem ticks_before_the_epoch_are_exact : (-1 : Int) ≠ 0 ∧ leastTicks ≤ -1 - unixEpoch ∧
    (∃ x : Moment, x.ticks = -1 ∧ (⟨-1⟩ : Stamp).format 7 = x.text) ∧
    (⟨-1⟩ : Stamp).format 7 = "16-NOV-1858 23:59:59.9999999" ∧
    (∃ cut : String, cut.length = 5 ∧ (⟨-1⟩ : Stamp).format 7 = (⟨-1⟩ : Stamp).format 2 ++ cut) ∧
    (⟨leastTicks⟩ : Stamp).format 2 = "<Invalid Date>" := by
  have hrange : leastTicks ≤ -1 - unixEpoch := by decide
  obtain ⟨hexact, hcut, -, -⟩ := (format_is_exact ⟨-1⟩ (by decide)).2 hrange
  have htext : (⟨-1⟩ : Stamp).format 7 = "16-NOV-1858 23:59:59.9999999" :=
    (format_seven ⟨by decide, hrange⟩).trans (by decide)
  have hinvalid := ((format_is_exact ⟨leastTicks⟩ (by decide)).1 2).mpr (by decide)
  exact ⟨by decide, hrange, hexact, htext, hcut 2 (by decide) (by decide), hinvalid⟩

end Stamp

end SaveSet
