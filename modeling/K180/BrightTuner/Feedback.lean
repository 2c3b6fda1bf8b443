import K180.BinaryFloat.Operations
import K180.BrightTuner.Hysteresis
import K180.Schedule.Run

open binary_float checked k180.user_cfg schedule

namespace k180.brighttuner

/-- The gray picture that `bright_adjust` makes of a frame. -/
structure Picture where
  pixels : List ℕ
  size : pixels.length = 320 * 180
  byte : ∀ p ∈ pixels, p ≤ 255

/-- `int MID_VAL = cfggg.bright_tuner.mid_val;` -/
def MID_VAL (cfg : BrightTunerCfg) : ℤ :=
  match cfg.mid_val with
  | .fin q => Value.truncate q
  | _ => 0

structure AdjustState where
  tuner : TunerState
  k_active : Bool

def adjust_start : AdjustState := ⟨tuner_start, false⟩

/-- An iteration of `bright_adjust`, with the requests it makes; `none` when `error_level` is not defined. -/
def bright_adjust (cfg : BrightTunerCfg) (s : AdjustState) (picture : Picture) : Option (AdjustState × List Request) :=
  let cd := s.tuner.adjust_cooldown_frames
  let m := measure (MID_VAL cfg) picture.pixels
  let (bs, k_active) := m.probe cfg s.k_active
  (error_level cfg m.da).map fun level =>
    let (tuner, made) := call_tuner cfg s.tuner ⟨bs, level, if 0 < cd then cd - 1 else cd⟩
    (⟨tuner, k_active⟩, made)

def adjust_step (cfg : BrightTunerCfg) (s : AdjustState) (picture : Picture) : Option AdjustState :=
  (bright_adjust cfg s picture).map Prod.fst

/-- The mean of the pixels is above `mid`, by their exact sum. -/
def Picture.Above (picture : Picture) (mid : ℤ) : Prop := mid * (320 * 180) < (picture.pixels.sum : ℤ)

def Picture.Below (picture : Picture) (mid : ℤ) : Prop := (picture.pixels.sum : ℤ) < mid * (320 * 180)

/-- More than a tenth of the pixels are in a range of the histogram. -/
def Picture.Saturated (picture : Picture) (bins : List ℕ) : Prop :=
  320 * 180 < 10 * (bins.map picture.pixels.count).sum

variable {cfg : BrightTunerCfg} {picture : Picture}

/-! ### What is measured -/

theorem sum_map_sub (mid : ℤ) (pixels : List ℕ) :
    (pixels.map fun p : ℕ => (p : ℤ) - mid).sum = (pixels.sum : ℤ) - mid * pixels.length := by
  induction pixels with
  | nil => simp
  | cons p rest ih =>
    rw [List.map_cons, List.sum_cons, ih, List.sum_cons, List.length_cons]
    push_cast
    ring

/-- The mean deviation is the exact one, rounded once. -/
theorem measure_da {mid : ℤ} (hmid : 0 ≤ mid ∧ mid ≤ 255) (picture : Picture) :
    (measure mid picture.pixels).da =
      binary32.round (((picture.pixels.sum : ℤ) - mid * (320 * 180) : ℤ) / (320 * 180 : ℕ)) := by
  have hsize := picture.size
  have hsum := sum_deviations hmid picture.byte (by rw [hsize]; norm_num)
  rw [sum_map_sub, hsize] at hsum
  simp only [measure, hsum, hsize]
  rw [Format.divFin]
  norm_num

/-- The mean deviation is a number whose sign is that of the exact one. -/
theorem measure_da_fin {mid : ℤ} (hmid : 0 ≤ mid ∧ mid ≤ 255) (picture : Picture) :
    ∃ q, (measure mid picture.pixels).da = .fin q ∧ |q| ≤ 255 ∧ (0 < q → picture.Above mid) ∧
      (q < 0 → picture.Below mid) := by
  have hle := List.sum_le_card_nsmul picture.pixels 255 picture.byte
  rw [picture.size, smul_eq_mul] at hle
  rw [measure_da hmid, Picture.Above, Picture.Below]
  generalize hdeviation : (picture.pixels.sum : ℤ) - mid * (320 * 180) = n
  have hn : |(n : ℚ) / (320 * 180 : ℕ)| ≤ (255 : ℤ) := by
    have habs : |n| ≤ 255 * (320 * 180) := by
      rw [abs_le]
      constructor <;> omega
    rw [abs_div, div_le_iff₀ (by norm_num)]
    exact_mod_cast habs
  have hexact : binary32.quantize (255 : ℤ) = (255 : ℤ) := binary32.quantize_intCast (by decide) (by decide)
  have hquantized : |binary32.quantize ((n : ℚ) / (320 * 180 : ℕ))| ≤ 255 := by
    rw [abs_le] at hn ⊢
    have hlow := binary32.quantize_mono hn.1
    have hhigh := binary32.quantize_mono hn.2
    rw [binary32.quantize_neg, hexact] at hlow
    rw [hexact] at hhigh
    exact ⟨hlow, hhigh⟩
  refine ⟨_, binary32.round_eq_fin (hquantized.trans_lt (by norm_num [binary32])), hquantized, fun hpos => ?_,
    fun hneg => ?_⟩
  · by_contra hnot
    have hn' : (n : ℚ) / (320 * 180 : ℕ) ≤ 0 :=
      div_nonpos_of_nonpos_of_nonneg (by exact_mod_cast (by omega : n ≤ 0)) (Nat.cast_nonneg _)
    have hmono := binary32.quantize_mono hn'
    rw [binary32.quantize_zero] at hmono
    exact absurd hpos (not_lt.mpr hmono)
  · by_contra hnot
    have hn' : 0 ≤ (n : ℚ) / (320 * 180 : ℕ) :=
      div_nonneg (by exact_mod_cast (by omega : 0 ≤ n)) (Nat.cast_nonneg _)
    exact absurd hneg (not_lt.mpr (binary32.quantize_nonneg hn'))

/-- A ratio of saturated pixels above a threshold that the validation accepts is above a tenth. -/
theorem saturated_of_lt {ratio : Value} (hratio : ratio.le (float_lit (1 / 10)) = false) {bins : List ℕ}
    (hlt : ratio.lt (sat_ratio picture.pixels bins) = true) : picture.Saturated bins := by
  by_contra hnot
  rw [Picture.Saturated] at hnot
  generalize hcount : (bins.map picture.pixels.count).sum = n at hnot
  have hone : binary32.quantize (1 / 10) ≤ (1 : ℤ) := by
    rw [← binary32.quantize_intCast (n := 1) (by decide) (by decide)]
    exact binary32.quantize_mono (by norm_num)
  have hfinite : binary32.quantize (1 / 10) < 2 ^ binary32.emax := hone.trans_lt (by norm_num [binary32])
  have hn : ((n : ℤ) : ℚ) / (320 * 180 : ℕ) ≤ 1 / 10 := by
    rw [div_le_div_iff₀ (by norm_num) (by norm_num)]
    exact_mod_cast (by omega : n * 10 ≤ 1 * (320 * 180))
  have hsmall : |(n : ℤ)| < 2 ^ binary32.prec := by
    rw [abs_lt]
    norm_num [binary32]
    omega
  obtain ⟨hround, -, hle⟩ := binary32.round_of_nonneg (by positivity) hn hfinite
  obtain ⟨htenth, -, -⟩ := binary32.round_of_nonneg (by norm_num) le_rfl hfinite
  have hsat : (sat_ratio picture.pixels bins).le (float_lit (1 / 10)) = true := by
    rw [sat_ratio, hcount, picture.size, binary32.ofInt_eq_fin hsmall (by decide) (by decide), Format.divFin, hround,
      float_lit, htenth, Value.le_fin, decide_eq_true_eq]
    exact hle
  rw [Value.le_of_lt (Value.lt_of_lt_of_le hlt hsat)] at hratio
  cases hratio

/-- The quotient of a mean deviation by a divisor that is not tiny converts to `int`. -/
theorem error_level_some {D div : ℚ} (hD : |D| ≤ 255) (hdiv : (2 : ℚ) ^ (-22 : ℤ) ≤ div)
    (herror : cfg.error_level_div = .fin div) :
    ∃ level, error_level cfg (.fin D) = some level ∧ 0 ≤ level ∧ level ≤ 9 := by
  have hpos : 0 < div := lt_of_lt_of_le (by norm_num) hdiv
  have hquotient : |D| / div ≤ 2 ^ 30 := by
    rw [div_le_iff₀ hpos]
    norm_num at hdiv
    linarith
  have hlimit : binary32.quantize (2 ^ 30) = 2 ^ 30 := by decide +kernel
  obtain ⟨hround, hnonneg, hle⟩ :=
    binary32.round_of_nonneg (by positivity) hquotient (by rw [hlimit]; norm_num [binary32])
  rw [hlimit] at hle
  simp only [error_level, Value.abs_fin, herror, hround]
  rw [if_pos (hle.trans_lt (by norm_num))]
  exact ⟨_, rfl, le_min (by norm_num) (Int.floor_nonneg.mpr hnonneg), min_le_left _ _⟩

/-! ### The verdict -/

/-- What the validation and the type of the thresholds come to. -/
structure ValidMeasures (cfg : BrightTunerCfg) : Prop where
  steps : ValidSteps cfg
  mid : 0 ≤ MID_VAL cfg ∧ MID_VAL cfg ≤ 255
  sat_hi : cfg.sat_ratio_hi.le (float_lit (1 / 10)) = false
  sat_lo : cfg.sat_ratio_lo.le (float_lit (1 / 10)) = false
  k_hi : cfg.k_hi.lt (.fin 0) = false
  k_lo : Value.lt (.fin 0) cfg.k_lo = true

theorem validMeasures_of_validate {max_stream_fps : ℤ} {cfg : UserConfig}
    (hvalid : user_cfg_validate max_stream_fps cfg = .ok ()) (hmid : cfg.bright_tuner.mid_val ≠ .nan)
    (hk_lo : cfg.bright_tuner.k_lo ≠ .nan) : ValidMeasures cfg.bright_tuner := by
  have hbright : validate_bright_tuner cfg.bright_tuner = .ok () :=
    ((user_cfg_validate_eq_ok_iff max_stream_fps cfg).mp hvalid).2.2.1.2.2.2
  simp only [validate_bright_tuner, check_bind_eq_ok_iff, reject_if_eq_ok_iff, outside, not_above,
    Bool.or_eq_false_iff] at hbright
  obtain ⟨-, -, -, -, -, -, ⟨hk_hi, -⟩, ⟨hk_lo', -⟩, ⟨hsat_hi, -⟩, ⟨hsat_lo, -⟩, hmid'⟩ := hbright
  have hzero : float_lit 0 = .fin 0 := by decide +kernel
  rw [hzero] at hk_hi hk_lo'
  refine ⟨valid_steps_of_validate hvalid, ?_, hsat_hi, hsat_lo, ?_, ?_⟩
  · obtain ⟨hlow, hhigh⟩ := hmid'
    have hone : float_lit 1 = .fin 1 := by decide +kernel
    have htop : float_lit 250 = .fin 250 := by decide +kernel
    rw [hone] at hlow
    rw [htop] at hhigh
    rw [MID_VAL]
    cases hval : cfg.bright_tuner.mid_val with
    | nan => exact absurd hval hmid
    | inf negative => norm_num
    | fin q =>
      rw [hval, Value.le_fin, decide_eq_false_iff_not, not_le] at hlow
      rw [hval, Value.lt_fin, decide_eq_false_iff_not, not_lt] at hhigh
      have hfloor : ⌊q⌋ ≤ 250 := Int.floor_le_iff.mpr (by push_cast; linarith)
      dsimp only
      rw [Value.truncate, if_pos (by linarith)]
      exact ⟨Int.floor_nonneg.mpr (by linarith), by omega⟩
  · rw [← Bool.not_eq_true]
    intro hlt
    rw [Value.le_of_lt hlt] at hk_hi
    cases hk_hi
  · cases hval : cfg.bright_tuner.k_lo with
    | nan => exact absurd hval hk_lo
    | inf negative =>
      rw [hval] at hk_lo'
      simpa [Value.le, Value.lt] using hk_lo'
    | fin q =>
      rw [hval] at hk_lo'
      simpa using hk_lo'

theorem lt_nan (x : Value) : x.lt .nan = false := by
  cases x <;> rfl

/-- A picture whose mean is in the middle has no spread to compare with. -/
theorem K_of_da_zero {mid : ℤ} {pixels : List ℕ} (hda : (measure mid pixels).da = .fin 0) :
    (measure mid pixels).K = .fin 0 := by
  have hzero : binary32.round 0 = .fin 0 := by decide +kernel
  revert hda
  simp only [measure]
  intro hda
  rw [hda]
  split
  · rename_i hspread
    revert hspread
    generalize (binary32.divFin _ _).abs = M
    intro hspread
    cases M with
    | nan =>
      rw [lt_nan] at hspread
      cases hspread
    | inf negative => rfl
    | fin y => simp [Format.div, Format.divFin, hzero]
  · exact hzero

/-- Why a picture can get a verdict. -/
def Reason (cfg : BrightTunerCfg) (picture : Picture) : BrightState → Prop
  | .BS_OK => True
  | .BS_TOO_B => picture.Above (MID_VAL cfg) ∨ picture.Saturated (List.range' 250 6)
  | .BS_TOO_D => picture.Below (MID_VAL cfg) ∨ picture.Saturated (List.range 6)

theorem reason_of_probe (hvalid : ValidMeasures cfg) (picture : Picture) (k_active : Bool) :
    Reason cfg picture ((measure (MID_VAL cfg) picture.pixels).probe cfg k_active).1 := by
  obtain ⟨q, hda, -, habove, hbelow⟩ := measure_da_fin hvalid.mid picture
  rw [Measures.probe, probe]
  split
  · rename_i hsat
    exact .inr (saturated_of_lt hvalid.sat_hi hsat)
  split
  · rename_i hsat
    exact .inr (saturated_of_lt hvalid.sat_lo hsat)
  split
  · trivial
  generalize hnext : (if !k_active then cfg.k_hi.lt (measure (MID_VAL cfg) picture.pixels).K
    else !(measure (MID_VAL cfg) picture.pixels).K.lt cfg.k_lo) = next
  dsimp only
  cases next with
  | false => trivial
  | true =>
    obtain hpos | rfl | hneg := lt_trichotomy 0 q
    · simp only [hda, Value.lt_fin, hpos, decide_true, Bool.not_true, Bool.false_eq_true, if_false, if_true]
      exact .inl (habove hpos)
    · -- `K` is zero with the mean, which leaves `k_active` false
      rw [K_of_da_zero hda, hvalid.k_hi, hvalid.k_lo] at hnext
      cases k_active <;> cases hnext
    · simp only [hda, Value.lt_fin, not_lt.mpr hneg.le, decide_false, Bool.not_true, Bool.false_eq_true, if_false]
      exact .inl (hbelow hneg)

/-! ### The tuner -/

theorem call_tuner_ok (cfg : BrightTunerCfg) (s : TunerState) {call : Call} (hbs : call.bs = .BS_OK) :
    (call_tuner cfg s call).1.exposure_tun_val = s.exposure_tun_val ∧
      (call_tuner cfg s call).1.gain_tun_val = s.gain_tun_val ∧ (call_tuner cfg s call).2 = [] := by
  have hguard (s : TunerState) : guard_limits s .BS_OK = .BS_OK := by simp [guard_limits]
  rw [call_tuner, hbs, bright_tunning, hguard, if_pos rfl]
  split <;> exact ⟨rfl, rfl, rfl⟩

/-- What an iteration does: every value and request is in range, the values fall when they move for a picture that is
too bright, and rise for one that is too dark. -/
structure Follows (mid : ℤ) (picture : Picture) (s s' : TunerState) (made : List Request) : Prop where
  in_range : InRange s'
  requests : ∀ request ∈ made, request.InRange ∧ request.IsCurrent s'
  falls : s'.exposure_tun_val < s.exposure_tun_val ∨ s'.gain_tun_val < s.gain_tun_val →
    s'.exposure_tun_val ≤ s.exposure_tun_val ∧ s'.gain_tun_val ≤ s.gain_tun_val ∧
      (picture.Above mid ∨ picture.Saturated (List.range' 250 6))
  rises : s.exposure_tun_val < s'.exposure_tun_val ∨ s.gain_tun_val < s'.gain_tun_val →
    s.exposure_tun_val ≤ s'.exposure_tun_val ∧ s.gain_tun_val ≤ s'.gain_tun_val ∧
      (picture.Below mid ∨ picture.Saturated (List.range 6))

theorem follows_call_tuner (hvalid : ValidMeasures cfg) {s : TunerState} (hrange : InRange s) {call : Call}
    (hreason : Reason cfg picture call.bs) :
    Follows (MID_VAL cfg) picture s (call_tuner cfg s call).1 (call_tuner cfg s call).2 := by
  have hmoves := Moves.call_tuner hvalid.steps hrange call
  refine ⟨hmoves.in_range, fun request hrequest => ?_, fun hfalls => ?_, fun hrises => ?_⟩
  · have hcurrent := hmoves.current request hrequest
    exact ⟨request.in_range_of_current hcurrent hmoves.in_range, hcurrent⟩
  · cases hbs : call.bs with
    | BS_OK =>
      obtain ⟨hexpo, hgain, -⟩ := call_tuner_ok cfg s hbs
      omega
    | BS_TOO_B =>
      obtain ⟨hexpo, hgain⟩ := hmoves.falls hbs
      rw [hbs] at hreason
      exact ⟨hexpo, hgain, hreason⟩
    | BS_TOO_D =>
      obtain ⟨hexpo, hgain⟩ := hmoves.rises hbs
      omega
  · cases hbs : call.bs with
    | BS_OK =>
      obtain ⟨hexpo, hgain, -⟩ := call_tuner_ok cfg s hbs
      omega
    | BS_TOO_B =>
      obtain ⟨hexpo, hgain⟩ := hmoves.falls hbs
      omega
    | BS_TOO_D =>
      obtain ⟨hexpo, hgain⟩ := hmoves.rises hbs
      rw [hbs] at hreason
      exact ⟨hexpo, hgain, hreason⟩

theorem follows_bright_adjust (hvalid : ValidMeasures cfg) {s s' : AdjustState} (hrange : InRange s.tuner)
    {made : List Request} (hadjust : bright_adjust cfg s picture = some (s', made)) :
    Follows (MID_VAL cfg) picture s.tuner s'.tuner made := by
  rw [bright_adjust, Option.map_eq_some_iff] at hadjust
  obtain ⟨level, -, hmade⟩ := hadjust
  cases hmade
  exact follows_call_tuner hvalid hrange (reason_of_probe hvalid picture s.k_active)

theorem in_range_of_adjust (hvalid : ValidMeasures cfg) {s : AdjustState} {pictures : List Picture}
    (hrun : run (adjust_step cfg) adjust_start pictures = some s) : InRange s.tuner := by
  have hkeep (s : AdjustState) (picture : Picture) (s' : AdjustState) (hrange : InRange s.tuner)
      (hstep : adjust_step cfg s picture = some s') : InRange s'.tuner := by
    obtain ⟨⟨s', made⟩, hadjust, rfl⟩ := Option.map_eq_some_iff.mp hstep
    exact (follows_bright_adjust hvalid hrange hadjust).in_range
  have hstart : InRange adjust_start.tuner := in_range_start
  exact invariant_of_run hkeep hstart hrun

/-- With a divisor that is not tiny every picture is processed. -/
theorem bright_adjust_some (hvalid : ValidMeasures cfg) {div : ℚ} (hdiv : (2 : ℚ) ^ (-22 : ℤ) ≤ div)
    (herror : cfg.error_level_div = .fin div) (s : AdjustState) (picture : Picture) :
    ∃ s', adjust_step cfg s picture = some s' := by
  obtain ⟨D, hda, hD, -⟩ := measure_da_fin hvalid.mid picture
  obtain ⟨level, hlevel, -⟩ := error_level_some hD hdiv herror
  rw [← hda] at hlevel
  simp [adjust_step, bright_adjust, hlevel]

/-- A camera's exposure follows its pictures: whatever it has seen, the exposure and the gain only fall for a picture
with a mean above the middle or too many bright pixels, and only rise for one with a mean below it or too many dark
ones; and where the divisor of the error level is not tiny there is no picture the loop stops at. -/
theorem exposure_follows_picture {max_stream_fps : ℤ} {cfg : UserConfig}
    (hvalid : user_cfg_validate max_stream_fps cfg = .ok ()) (hmid : cfg.bright_tuner.mid_val ≠ .nan)
    (hk_lo : cfg.bright_tuner.k_lo ≠ .nan) (pictures : List Picture) :
    (∀ s, run (adjust_step cfg.bright_tuner) adjust_start pictures = some s →
      ∀ picture s' made, bright_adjust cfg.bright_tuner s picture = some (s', made) →
        Follows (MID_VAL cfg.bright_tuner) picture s.tuner s'.tuner made) ∧
      (∀ div : ℚ, cfg.bright_tuner.error_level_div = .fin div → (2 : ℚ) ^ (-22 : ℤ) ≤ div →
        ∃ s, run (adjust_step cfg.bright_tuner) adjust_start pictures = some s) := by
  have hmeasures := validMeasures_of_validate hvalid hmid hk_lo
  refine ⟨fun s hrun picture s' made => follows_bright_adjust hmeasures (in_range_of_adjust hmeasures hrun),
    fun div herror hdiv => ?_⟩
  have hmeets : Meets (adjust_step cfg.bright_tuner) (fun _ _ => True) adjust_start pictures :=
    meets_of_forall (fun _ _ => trivial) adjust_start
  obtain ⟨s, hrun, -⟩ := exists_run_of_meets
    (fun s picture (_ : True) _ => bright_adjust_some hmeasures hdiv herror s picture) (fun _ _ _ _ _ _ => trivial)
    trivial hmeets
  exact ⟨s, hrun⟩

/-- A black picture. -/
def black : Picture where
  pixels := List.replicate (320 * 180) 0
  size := List.length_replicate
  byte := fun _ hp => (List.eq_of_mem_replicate hp).trans_le (Nat.zero_le _)

theorem count_replicate_zero (n i : ℕ) : (List.replicate n 0).count i = if i = 0 then n else 0 := by
  by_cases hi : i = 0
  · rw [hi, if_pos rfl, List.count_replicate_self]
  · rw [if_neg hi]
    exact List.count_eq_zero.mpr fun hmem => hi (List.eq_of_mem_replicate hmem)

theorem sat_ratio_black (bins : List ℕ) :
    sat_ratio black.pixels bins = binary32.divFin (binary32.ofInt (bins.map fun i => if i = 0 then 57600 else 0).sum)
      (57600 : ℕ) := by
  have hcount : black.pixels.count = fun i : ℕ => if i = 0 then 57600 else 0 :=
    funext fun i => count_replicate_zero (320 * 180) i
  rw [sat_ratio, hcount, black.size, Nat.cast_list_sum, List.map_map]
  simp [Function.comp_def]

/-- With the default settings it is too dark, by the highest level. -/
theorem bright_adjust_black (s : AdjustState) : bright_adjust sample_config.bright_tuner s black =
    let cd := s.tuner.adjust_cooldown_frames
    let (tuner, made) := call_tuner sample_config.bright_tuner s.tuner ⟨.BS_TOO_D, 9, if 0 < cd then cd - 1 else cd⟩
    some (⟨tuner, s.k_active⟩, made) := by
  have hmid : MID_VAL sample_config.bright_tuner = 128 := by decide +kernel
  have hda : (measure 128 black.pixels).da = .fin (-128) := by
    have hround : binary32.round (-128) = .fin (-128) := by decide +kernel
    have hsum : black.pixels.sum = 0 := List.sum_replicate_nat.trans (Nat.mul_zero _)
    rw [measure_da (by norm_num), hsum, ← hround]
    norm_num
  have hhi : (measure 128 black.pixels).sat_hi = .fin 0 := (sat_ratio_black _).trans (by decide +kernel)
  have hlo : (measure 128 black.pixels).sat_lo = .fin 1 := (sat_ratio_black _).trans (by decide +kernel)
  have hlevel : error_level sample_config.bright_tuner (.fin (-128)) = some 9 := by decide +kernel
  have hsat_hi : sample_config.bright_tuner.sat_ratio_hi.lt (.fin 0) = false := by decide +kernel
  have hsat_lo : sample_config.bright_tuner.sat_ratio_lo.lt (.fin 1) = true := by decide +kernel
  have hprobe (m : Measures) (hhi : m.sat_hi = .fin 0) (hlo : m.sat_lo = .fin 1) :
      m.probe sample_config.bright_tuner s.k_active = (.BS_TOO_D, s.k_active) := by
    simp [Measures.probe, probe, hhi, hlo, hsat_hi, hsat_lo]
  rw [bright_adjust, hmid, hda, hlevel, hprobe _ hhi hlo]
  rfl

/-- Two black pictures: with the second one the gain rises, for all cameras. -/
theorem exposure_follows_picture_black : ∃ s s' made,
    run (adjust_step sample_config.bright_tuner) adjust_start [black] = some s ∧
      bright_adjust sample_config.bright_tuner s black = some (s', made) ∧
      s.tuner.gain_tun_val = 29000 ∧ s'.tuner.gain_tun_val = 46500 ∧ made.length = 4 ∧
      Follows (MID_VAL sample_config.bright_tuner) black s.tuner s'.tuner made := by
  have hmid : sample_config.bright_tuner.mid_val ≠ .nan := by decide +kernel
  have hk_lo : sample_config.bright_tuner.k_lo ≠ .nan := by decide +kernel
  have hfollows := (exposure_follows_picture sample_config_valid hmid hk_lo [black]).1
  have hrun : run (adjust_step sample_config.bright_tuner) adjust_start [black] =
      some ⟨(call_tuner sample_config.bright_tuner tuner_start ⟨.BS_TOO_D, 9, 0⟩).1, false⟩ := by
    rw [run_cons, adjust_step, bright_adjust_black]
    rfl
  refine ⟨_, _, _, hrun, bright_adjust_black _, ?_, ?_, ?_, hfollows _ hrun black _ _ (bright_adjust_black _)⟩
  · decide +kernel
  · decide +kernel
  · decide +kernel

end k180.brighttuner
