import Mathlib

namespace binary_float

/-- The integer nearest to `q`, with a tie going to the even neighbour. -/
def roundHalfEven (q : ℚ) : ℤ :=
  if q - ⌊q⌋ < 1 / 2 then ⌊q⌋
  else if 1 / 2 < q - ⌊q⌋ then ⌊q⌋ + 1
  else if Even ⌊q⌋ then ⌊q⌋ else ⌊q⌋ + 1

theorem roundHalfEven_intCast (n : ℤ) : roundHalfEven n = n := by
  simp [roundHalfEven]

theorem floor_le_roundHalfEven (q : ℚ) : ⌊q⌋ ≤ roundHalfEven q := by
  unfold roundHalfEven
  split_ifs <;> omega

theorem roundHalfEven_le_floor_succ (q : ℚ) : roundHalfEven q ≤ ⌊q⌋ + 1 := by
  unfold roundHalfEven
  split_ifs <;> omega

theorem roundHalfEven_mono {x y : ℚ} (hxy : x ≤ y) : roundHalfEven x ≤ roundHalfEven y := by
  rcases (Int.floor_mono hxy).lt_or_eq with hfloor | hfloor
  · have hx := roundHalfEven_le_floor_succ x
    have hy := floor_le_roundHalfEven y
    omega
  · unfold roundHalfEven
    rw [hfloor]
    split_ifs <;> first | omega | (exfalso; linarith)

theorem roundHalfEven_neg (q : ℚ) : roundHalfEven (-q) = -roundHalfEven q := by
  by_cases hint : (⌊q⌋ : ℚ) = q
  · rw [← hint, ← Int.cast_neg, roundHalfEven_intCast, roundHalfEven_intCast]
  · have hlo : (⌊q⌋ : ℚ) < q := lt_of_le_of_ne (Int.floor_le q) hint
    have hhi := Int.lt_floor_add_one q
    have hfloor : ⌊-q⌋ = -⌊q⌋ - 1 := by
      rw [Int.floor_eq_iff]
      push_cast
      constructor <;> linarith
    have heven : Even (-⌊q⌋ - 1) ↔ ¬ Even ⌊q⌋ := by
      rw [show -⌊q⌋ - 1 = -(⌊q⌋ + 1) by ring, even_neg, Int.even_add_one]
    unfold roundHalfEven
    rw [hfloor]
    push_cast
    simp only [heven]
    split_ifs <;> first | omega | (exfalso; linarith)

/-- A binary interchange format: `prec` bits of significand, no unit in the last place below
`2 ^ emin`, and magnitudes from `2 ^ emax` on overflowing to infinity. -/
structure Format where
  prec : ℕ
  emin : ℤ
  emax : ℤ
  prec_pos : 0 < prec

def binary32 : Format := ⟨24, -149, 128, by decide⟩

def binary64 : Format := ⟨53, -1074, 1024, by decide⟩

namespace Format

variable (f : Format)

/-- Exponent of the unit in the last place of the values around `q`. -/
def ulpExp (q : ℚ) : ℤ := max (Int.log 2 |q| - (f.prec - 1)) f.emin

/-- Round to nearest, ties to even, with an unbounded upper exponent. -/
def quantize (q : ℚ) : ℚ := roundHalfEven (q / 2 ^ f.ulpExp q) * 2 ^ f.ulpExp q

@[simp] theorem quantize_zero : f.quantize 0 = 0 := by
  simp [quantize, roundHalfEven]

@[simp] theorem ulpExp_neg (q : ℚ) : f.ulpExp (-q) = f.ulpExp q := by
  simp [ulpExp]

@[simp] theorem quantize_neg (q : ℚ) : f.quantize (-q) = -f.quantize q := by
  simp [quantize, neg_div, roundHalfEven_neg]

theorem quantize_nonneg {q : ℚ} (hq : 0 ≤ q) : 0 ≤ f.quantize q := by
  have hround := roundHalfEven_mono (show ((0 : ℤ) : ℚ) ≤ q / 2 ^ f.ulpExp q by simp; positivity)
  rw [roundHalfEven_intCast] at hround
  unfold quantize
  positivity

/-- Whole multiples of the unit in the last place bound what rounds to them from below. -/
theorem quantize_le_of_le_zpow {q : ℚ} {e : ℤ} (hle : q ≤ 2 ^ e) (hulp : f.ulpExp q ≤ e) :
    f.quantize q ≤ 2 ^ e := by
  obtain ⟨k, hk⟩ := Int.eq_ofNat_of_zero_le (sub_nonneg.mpr hulp)
  have hsplit : (2 : ℚ) ^ e = (2 ^ k : ℤ) * 2 ^ f.ulpExp q := by
    rw [show e = (k : ℤ) + f.ulpExp q by omega, zpow_add₀ (by norm_num)]
    simp
  have hpos : (0 : ℚ) < 2 ^ f.ulpExp q := by positivity
  have hround := roundHalfEven_mono (show q / 2 ^ f.ulpExp q ≤ ((2 ^ k : ℤ) : ℚ) by
    rw [div_le_iff₀ hpos, ← hsplit]; exact hle)
  rw [roundHalfEven_intCast] at hround
  rw [hsplit]
  exact mul_le_mul_of_nonneg_right (by exact_mod_cast hround) hpos.le

theorem le_quantize_of_zpow_le {q : ℚ} {e : ℤ} (hle : 2 ^ e ≤ q) (hulp : f.ulpExp q ≤ e) :
    2 ^ e ≤ f.quantize q := by
  obtain ⟨k, hk⟩ := Int.eq_ofNat_of_zero_le (sub_nonneg.mpr hulp)
  have hsplit : (2 : ℚ) ^ e = (2 ^ k : ℤ) * 2 ^ f.ulpExp q := by
    rw [show e = (k : ℤ) + f.ulpExp q by omega, zpow_add₀ (by norm_num)]
    simp
  have hpos : (0 : ℚ) < 2 ^ f.ulpExp q := by positivity
  have hround := roundHalfEven_mono (show ((2 ^ k : ℤ) : ℚ) ≤ q / 2 ^ f.ulpExp q by
    rw [le_div_iff₀ hpos, ← hsplit]; exact hle)
  rw [roundHalfEven_intCast] at hround
  rw [hsplit]
  exact mul_le_mul_of_nonneg_right (by exact_mod_cast hround) hpos.le

private theorem quantize_mono_pos {x y : ℚ} (hx : 0 < x) (hxy : x ≤ y) :
    f.quantize x ≤ f.quantize y := by
  have hy : 0 < y := hx.trans_le hxy
  have hlog : Int.log 2 |x| ≤ Int.log 2 |y| := by
    rw [abs_of_pos hx, abs_of_pos hy]
    exact Int.log_mono_right hx hxy
  have hulp : f.ulpExp x ≤ f.ulpExp y := max_le_max (by omega) le_rfl
  rcases hulp.eq_or_lt with heq | hlt
  · unfold quantize
    rw [heq]
    have hpos : (0 : ℚ) < 2 ^ f.ulpExp y := by positivity
    have hround := roundHalfEven_mono (div_le_div_of_nonneg_right hxy hpos.le)
    exact mul_le_mul_of_nonneg_right (by exact_mod_cast hround) hpos.le
  · -- the power of two that starts `y`'s binade separates the two results
    have hprec := f.prec_pos
    have hbinade : Int.log 2 |x| < Int.log 2 |y| ∧ f.ulpExp y = Int.log 2 |y| - (f.prec - 1) := by
      unfold ulpExp at hlt ⊢
      omega
    have hbelow : x ≤ 2 ^ Int.log 2 |y| := by
      have hsucc := Int.lt_zpow_succ_log_self (b := 2) (by norm_num) x
      rw [abs_of_pos hx] at hbinade
      exact hsucc.le.trans (zpow_le_zpow_right₀ (by norm_num) (by omega))
    have habove : 2 ^ Int.log 2 |y| ≤ y := by
      rw [abs_of_pos hy]
      exact_mod_cast Int.zpow_log_le_self (b := 2) (by norm_num) hy
    exact (f.quantize_le_of_le_zpow hbelow (by omega)).trans
      (f.le_quantize_of_zpow_le habove (by omega))

/-- Rounding preserves the order of the exact values. -/
theorem quantize_mono {x y : ℚ} (hxy : x ≤ y) : f.quantize x ≤ f.quantize y := by
  rcases lt_trichotomy x 0 with hx | rfl | hx
  · rcases le_or_gt 0 y with hy | hy
    · have hneg := f.quantize_nonneg (neg_pos.mpr hx).le
      rw [quantize_neg] at hneg
      exact (by linarith : f.quantize x ≤ 0).trans (f.quantize_nonneg hy)
    · have hflip := f.quantize_mono_pos (neg_pos.mpr hy) (neg_le_neg hxy)
      simpa using hflip
  · simpa using f.quantize_nonneg hxy
  · exact f.quantize_mono_pos hx hxy

/-- Integers that fit the significand are values of the format. -/
theorem quantize_intCast {n : ℤ} (hn : |n| < 2 ^ f.prec) (hemin : f.emin ≤ 0) : f.quantize n = n := by
  by_cases hzero : n = 0
  · simp [hzero]
  have hulp : f.ulpExp n ≤ 0 := by
    have hlog : Int.log 2 |(n : ℚ)| < f.prec := by
      rw [← Int.lt_zpow_iff_log_lt (by norm_num) (by positivity)]
      exact_mod_cast hn
    unfold ulpExp
    omega
  obtain ⟨k, hk⟩ := Int.eq_ofNat_of_zero_le (neg_nonneg.mpr hulp)
  have hscale : (2 : ℚ) ^ f.ulpExp n = ((2 : ℚ) ^ k)⁻¹ := by
    rw [show f.ulpExp n = -(k : ℤ) by omega, zpow_neg, zpow_natCast]
  have hwhole : (n : ℚ) / 2 ^ f.ulpExp n = ((n * 2 ^ k : ℤ) : ℚ) := by
    rw [hscale, div_inv_eq_mul]
    push_cast
    rfl
  rw [quantize, hwhole, roundHalfEven_intCast, hscale]
  push_cast
  rw [mul_assoc, mul_inv_cancel₀ (by positivity), mul_one]

/-- A whole multiple of a power of two that is no smaller than the unit in the last place is a value of
the format. -/
theorem quantize_of_multiple {m e : ℤ} (hulp : f.ulpExp (m * 2 ^ e) ≤ e) :
    f.quantize (m * 2 ^ e) = m * 2 ^ e := by
  obtain ⟨k, hk⟩ := Int.eq_ofNat_of_zero_le (sub_nonneg.mpr hulp)
  generalize hu : f.ulpExp (m * 2 ^ e) = u at hk
  have hsplit : (m : ℚ) * 2 ^ e = ((m * 2 ^ k : ℤ) : ℚ) * 2 ^ u := by
    rw [show e = (k : ℤ) + u by omega, zpow_add₀ (by norm_num)]
    push_cast
    rw [zpow_natCast, mul_assoc]
  have hpos : (2 : ℚ) ^ u ≠ 0 := by positivity
  rw [quantize, hu]
  nth_rewrite 1 [hsplit]
  rw [mul_div_assoc, div_self hpos, mul_one, roundHalfEven_intCast, hsplit]

theorem abs_lt_two_zpow_ulpExp (q : ℚ) : |q| < 2 ^ (f.ulpExp q + f.prec) := by
  have hlog := Int.lt_zpow_succ_log_self (b := 2) (by norm_num) |q|
  refine (by exact_mod_cast hlog : |q| < 2 ^ (Int.log 2 |q| + 1)).trans_le ?_
  apply zpow_le_zpow_right₀ (by norm_num)
  unfold ulpExp
  omega

/-- A magnitude up to a full binade above its unit in the last place keeps it. -/
theorem ulpExp_le_of_abs_lt {x : ℚ} {e : ℤ} (hx : x ≠ 0) (hlt : |x| < 2 ^ (e + f.prec)) (hemin : f.emin ≤ e) :
    f.ulpExp x ≤ e := by
  have hlog : Int.log 2 |x| < e + f.prec := by
    rw [← Int.lt_zpow_iff_log_lt (by norm_num) (abs_pos.mpr hx)]
    exact_mod_cast hlt
  unfold ulpExp
  omega

/-- What has been rounded is a value of the format. -/
theorem quantize_quantize (q : ℚ) : f.quantize (f.quantize q) = f.quantize q := by
  by_cases hzero : f.quantize q = 0
  · rw [hzero, quantize_zero]
  have hemin : f.emin ≤ f.ulpExp q := le_max_right _ _
  have hlt := f.abs_lt_two_zpow_ulpExp q
  generalize he : f.ulpExp q = e at hemin hlt
  generalize hm : roundHalfEven (q / 2 ^ e) = m
  have hvalue : f.quantize q = m * 2 ^ e := by rw [quantize, he, hm]
  have hpos : (0 : ℚ) < 2 ^ e := by positivity
  have hbound : |m| ≤ 2 ^ f.prec := by
    rw [zpow_add₀ (by norm_num), zpow_natCast, abs_lt] at hlt
    have hlo : ((-2 ^ f.prec : ℤ) : ℚ) ≤ q / 2 ^ e := by
      rw [le_div_iff₀ hpos]
      push_cast
      linarith
    have hhi : q / 2 ^ e ≤ ((2 ^ f.prec : ℤ) : ℚ) := by
      rw [div_le_iff₀ hpos]
      push_cast
      linarith
    have hmlo := roundHalfEven_mono hlo
    have hmhi := roundHalfEven_mono hhi
    rw [roundHalfEven_intCast, hm] at hmlo hmhi
    exact abs_le.mpr ⟨hmlo, hmhi⟩
  rw [hvalue] at hzero ⊢
  obtain htop | htop := hbound.lt_or_eq
  · apply f.quantize_of_multiple
    apply f.ulpExp_le_of_abs_lt hzero _ hemin
    rw [abs_mul, abs_of_pos hpos, zpow_add₀ (by norm_num), zpow_natCast, mul_comm]
    exact mul_lt_mul_of_pos_left (by exact_mod_cast htop) hpos
  · -- the significand has become a power of two, one binade higher
    have hprec := f.prec_pos
    obtain ⟨half, hhalf⟩ : ∃ half : ℤ, m = half * 2 := by
      obtain ⟨p, hp⟩ := Nat.exists_eq_add_of_lt hprec
      have heven : (2 : ℤ) ∣ |m| := by
        rw [htop, hp]
        exact Dvd.intro_left _ (by rw [pow_succ])
      obtain ⟨half, hhalf⟩ := (dvd_abs 2 m).mp heven
      exact ⟨half, by rw [hhalf, mul_comm]⟩
    have hshift : (m : ℚ) * 2 ^ e = half * 2 ^ (e + 1) := by
      rw [hhalf, zpow_add₀ (by norm_num), zpow_one]
      push_cast
      ring
    rw [hshift] at hzero ⊢
    apply f.quantize_of_multiple
    apply f.ulpExp_le_of_abs_lt hzero _ (by omega)
    rw [← hshift, abs_mul, abs_of_pos hpos]
    rw [show |(m : ℚ)| = 2 ^ f.prec by exact_mod_cast htop, show e + 1 + (f.prec : ℤ) = f.prec + e + 1 by omega,
      zpow_add₀ (by norm_num), zpow_add₀ (by norm_num), zpow_natCast, zpow_one]
    exact lt_mul_of_one_lt_right (by positivity) (by norm_num)

end Format

end binary_float
