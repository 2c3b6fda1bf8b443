import K180.BinaryFloat.Value

open binary_float

namespace libc

/-- Seconds since the epoch. -/
abbrev time_t := Int64

/-- What `localtime_r` makes of a time: the fields of a `struct tm` that a date and a minute need. -/
structure tm where
  tm_year : ℤ
  tm_mon : ℤ
  tm_mday : ℤ
  tm_hour : ℤ
  tm_min : ℤ
  mon_range : 0 ≤ tm_mon ∧ tm_mon ≤ 11
  mday_range : 1 ≤ tm_mday ∧ tm_mday ≤ 31
  hour_range : 0 ≤ tm_hour ∧ tm_hour ≤ 23
  min_range : 0 ≤ tm_min ∧ tm_min ≤ 59

/-- The seconds from `time0` to `time1`, as a double. -/
def difftime (time1 time0 : ℤ) : Value := binary64.ofInt (time1 - time0)

/-- Rounding to a double moves no difference across a bound that is a double. -/
theorem difftime_spec {time1 time0 : ℤ} (hlo : -2 ^ 64 ≤ time1 - time0) (hhi : time1 - time0 ≤ 2 ^ 64) :
    ∃ q, difftime time1 time0 = .fin q ∧ ∀ n : ℤ, |n| < 2 ^ 52 → (q ≤ n ↔ time1 - time0 ≤ n) := by
  have hexact : ∀ m : ℤ, |m| < 2 ^ 53 → binary64.quantize m = m := fun m hm =>
    binary64.quantize_intCast hm (by decide)
  have hfinite : |binary64.quantize ((time1 - time0 : ℤ) : ℚ)| < 2 ^ binary64.emax := by
    have hlow := binary64.quantize_mono (show ((-2 ^ 64 : ℤ) : ℚ) ≤ (time1 - time0 : ℤ) by
      exact_mod_cast hlo)
    have hhigh := binary64.quantize_mono (show ((time1 - time0 : ℤ) : ℚ) ≤ (2 ^ 64 : ℤ) by
      exact_mod_cast hhi)
    have hends : -2 ^ binary64.emax < binary64.quantize ((-2 ^ 64 : ℤ) : ℚ) ∧
        binary64.quantize ((2 ^ 64 : ℤ) : ℚ) < 2 ^ binary64.emax := by decide +kernel
    exact abs_lt.mpr ⟨hends.1.trans_le hlow, hhigh.trans_lt hends.2⟩
  refine ⟨_, binary64.round_eq_fin hfinite, fun n hn => ?_⟩
  obtain ⟨hmin, hmax⟩ := abs_lt.mp hn
  constructor
  · intro hle
    by_contra hgt
    have hnext := binary64.quantize_mono (show ((n + 1 : ℤ) : ℚ) ≤ (time1 - time0 : ℤ) by
      exact_mod_cast not_le.mp hgt)
    rw [hexact (n + 1) (abs_lt.mpr (by omega))] at hnext
    have hbad := hnext.trans hle
    push_cast at hbad
    linarith
  · intro hle
    have hmono := binary64.quantize_mono (show ((time1 - time0 : ℤ) : ℚ) ≤ (n : ℤ) by
      exact_mod_cast hle)
    rwa [hexact n (abs_lt.mpr (by omega))] at hmono

theorem difftime_le_iff {time1 time0 n : ℤ} (hlo : -2 ^ 64 ≤ time1 - time0)
    (hhi : time1 - time0 ≤ 2 ^ 64) (hn : |n| < 2 ^ 52) :
    (difftime time1 time0).le (.fin n) = true ↔ time1 - time0 ≤ n := by
  obtain ⟨q, hdiff, hbound⟩ := difftime_spec hlo hhi
  rw [hdiff, Value.le_fin, decide_eq_true_eq, hbound n hn]

theorem lt_difftime_iff {time1 time0 n : ℤ} (hlo : -2 ^ 64 ≤ time1 - time0)
    (hhi : time1 - time0 ≤ 2 ^ 64) (hn : |n| < 2 ^ 52) :
    Value.lt (.fin n) (difftime time1 time0) = true ↔ n < time1 - time0 := by
  obtain ⟨q, hdiff, hbound⟩ := difftime_spec hlo hhi
  rw [hdiff, Value.lt_fin, decide_eq_true_eq, ← not_le, hbound n hn, not_le]

end libc
