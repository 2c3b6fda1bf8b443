import K180.Libc.Stdio
import K180.Libc.Time

namespace libc

/-- The number of days before a year that starts in March. -/
def days_before (year : ℤ) : ℤ := 365 * year + year / 4 - year / 100 + year / 400

/-- The year that starts in March and the day in it, of a day counted from 1 March of the year 0. -/
def march_year (day : ℤ) : ℤ × ℤ :=
  let era := day / 146097
  let day_of_era := day % 146097
  let century := min (day_of_era / 36524) 3
  let day_of_century := day_of_era - 36524 * century
  let cycle := day_of_century / 1461
  let day_of_cycle := day_of_century - 1461 * cycle
  let year := min (day_of_cycle / 365) 3
  (400 * era + 100 * century + 4 * cycle + year, day_of_cycle - 365 * year)

theorem march_year_spec (day : ℤ) :
    days_before (march_year day).1 + (march_year day).2 = day ∧ 0 ≤ (march_year day).2 ∧ (march_year day).2 ≤ 365 := by
  simp only [days_before, march_year]
  generalize hera : day / 146097 = era
  generalize hday_of_era : day % 146097 = day_of_era
  generalize hcentury : min (day_of_era / 36524) 3 = century
  generalize hcycle : (day_of_era - 36524 * century) / 1461 = cycle
  generalize hyear : min ((day_of_era - 36524 * century - 1461 * cycle) / 365) 3 = year
  have hcentury_range : 0 ≤ century ∧ century ≤ 3 := by omega
  have hcycle_range : 0 ≤ cycle ∧ cycle ≤ 24 := by omega
  have hyear_range : 0 ≤ year ∧ year ≤ 3 := by omega
  have hfour : (400 * era + 100 * century + 4 * cycle + year) / 4 = 100 * era + 25 * century + cycle := by omega
  have hhundred : (400 * era + 100 * century + 4 * cycle + year) / 100 = 4 * era + century := by omega
  have hfour_hundred : (400 * era + 100 * century + 4 * cycle + year) / 400 = era := by omega
  rw [hfour, hhundred, hfour_hundred]
  omega

/-- The months from March on, by the day of the year that starts with them. -/
def march_month (day_of_year : ℤ) : ℤ := (5 * day_of_year + 2) / 153

theorem march_month_spec {day_of_year : ℤ} (hlo : 0 ≤ day_of_year) (hhi : day_of_year ≤ 365) :
    (0 ≤ march_month day_of_year ∧ march_month day_of_year ≤ 11) ∧
      1 ≤ day_of_year - (153 * march_month day_of_year + 2) / 5 + 1 ∧
      day_of_year - (153 * march_month day_of_year + 2) / 5 + 1 ≤ 31 := by
  rw [march_month]
  omega

/-- A rule for the local time: the seconds it is ahead of UTC, a 32-bit number, for each time. -/
structure ZoneRule where
  offset : ℤ → ℤ
  lo : ∀ t, -2147483648 < offset t
  hi : ∀ t, offset t < 2147483648

/-- The seconds since the epoch as the local clock counts them. -/
def ZoneRule.local_seconds (zone : ZoneRule) (t : ℤ) : ℤ := t + zone.offset t

/-- The fields for a day of a year that starts in March, and a second in that day. -/
def fields_of (year day_of_year seconds : ℤ) (hday : 0 ≤ day_of_year ∧ day_of_year ≤ 365) : tm where
  tm_year := (if march_month day_of_year < 10 then year else year + 1) - 1900
  tm_mon := if march_month day_of_year < 10 then march_month day_of_year + 2 else march_month day_of_year - 10
  tm_mday := day_of_year - (153 * march_month day_of_year + 2) / 5 + 1
  tm_hour := seconds % 86400 / 3600
  tm_min := seconds % 3600 / 60
  mon_range := by
    have hmonth := (march_month_spec hday.1 hday.2).1
    split <;> omega
  mday_range := (march_month_spec hday.1 hday.2).2
  hour_range := by omega
  min_range := by omega

/-- The fields of the local time with a number of seconds. -/
def broken_down (seconds : ℤ) : tm :=
  fields_of (march_year (seconds / 86400 + 719468)).1 (march_year (seconds / 86400 + 719468)).2 seconds
    (march_year_spec (seconds / 86400 + 719468)).2

/-- A minute before the year 2024, and the leap day in it. -/
example : (broken_down 1704067199).tm_year = 123 ∧ (broken_down 1704067199).tm_mon = 11 ∧
    (broken_down 1704067199).tm_mday = 31 ∧ (broken_down 1704067199).tm_min = 59 ∧
    (broken_down 1709164800).tm_mon = 1 ∧ (broken_down 1709164800).tm_mday = 29 := by decide

/-- `localtime_r`, of a time whose year fits its field. -/
def localtime_r (zone : ZoneRule) (t : ℤ) : tm := broken_down (zone.local_seconds t)

theorem tm.ext {a b : tm} (hyear : a.tm_year = b.tm_year) (hmon : a.tm_mon = b.tm_mon) (hmday : a.tm_mday = b.tm_mday)
    (hhour : a.tm_hour = b.tm_hour) (hmin : a.tm_min = b.tm_min) : a = b := by
  cases a
  cases b
  subst hyear hmon hmday hhour hmin
  rfl

/-- The minute that the fields stand for, counted from the epoch of the local clock. -/
def tm.minute (fields : tm) : ℤ :=
  let year := if fields.tm_mon < 2 then fields.tm_year + 1900 - 1 else fields.tm_year + 1900
  let month := if fields.tm_mon < 2 then fields.tm_mon + 10 else fields.tm_mon - 2
  (days_before year + (153 * month + 2) / 5 + fields.tm_mday - 1 - 719468) * 1440 + fields.tm_hour * 60 + fields.tm_min

theorem minute_fields_of (year day_of_year seconds : ℤ) (hday : 0 ≤ day_of_year ∧ day_of_year ≤ 365) :
    (fields_of year day_of_year seconds hday).minute =
      (days_before year + day_of_year - 719468) * 1440 + seconds % 86400 / 60 := by
  obtain ⟨⟨hmonth_lo, hmonth_hi⟩, -⟩ := march_month_spec hday.1 hday.2
  rw [tm.minute, fields_of]
  by_cases hmonth : march_month day_of_year < 10
  · simp only [if_pos hmonth]
    rw [if_neg (by omega), if_neg (by omega), sub_add_cancel, add_sub_cancel_right]
    omega
  · simp only [if_neg hmonth]
    rw [if_pos (by omega), if_pos (by omega), sub_add_cancel, add_sub_cancel_right, sub_add_cancel]
    omega

/-- The fields stand for the minute they are those of. -/
theorem minute_broken_down (seconds : ℤ) : (broken_down seconds).minute = seconds / 60 := by
  have hday := (march_year_spec (seconds / 86400 + 719468)).1
  rw [broken_down, minute_fields_of, hday]
  omega

/-- Two times have the same fields exactly when they are in the same minute. -/
theorem broken_down_eq_iff (seconds seconds' : ℤ) :
    broken_down seconds = broken_down seconds' ↔ seconds / 60 = seconds' / 60 := by
  constructor
  · intro hsame
    rw [← minute_broken_down, hsame, minute_broken_down]
  · intro hsame
    have hday : seconds / 86400 = seconds' / 86400 := by omega
    have hhour : seconds % 86400 / 3600 = seconds' % 86400 / 3600 := by omega
    have hmin : seconds % 3600 / 60 = seconds' % 3600 / 60 := by omega
    apply tm.ext <;> simp only [broken_down, fields_of, hday, hhour, hmin]

/-- Within some thousands of years around the epoch the year has four digits. -/
theorem broken_down_year {seconds : ℤ} (hlo : -62000000000 ≤ seconds) (hhi : seconds ≤ 250000000000) :
    0 ≤ (broken_down seconds).tm_year + 1900 ∧ (broken_down seconds).tm_year + 1900 ≤ 9999 := by
  obtain ⟨hday, hday_lo, hday_hi⟩ := march_year_spec (seconds / 86400 + 719468)
  simp only [broken_down, fields_of]
  rw [days_before] at hday
  generalize march_year (seconds / 86400 + 719468) = year at *
  split <;> omega

/-- Numbers that are written alike are the same. -/
theorem zero_padded_injective {width : ℕ} {m n : ℤ} (hm : 0 ≤ m) (hn : 0 ≤ n)
    (hsame : zero_padded width m = zero_padded width n) : m = n := by
  have hvalue : ∀ {k : ℤ}, 0 ≤ k → Nat.ofDigitChars 10 (zero_padded width k) 0 = k.natAbs := by
    intro k hk
    rw [zero_padded, if_neg (not_lt.mpr hk), Nat.ofDigitChars_append, Nat.ofDigitChars_replicate_zero, mul_zero,
      Nat.ofDigitChars_ten_toDigits]
  have habs : m.natAbs = n.natAbs := by rw [← hvalue hm, hsame, hvalue hn]
  omega

end libc
