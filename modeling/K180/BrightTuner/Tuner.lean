import K180.UserCfg.Config

open binary_float k180.user_cfg

namespace k180.brighttuner

inductive BrightState where
  | BS_OK
  | BS_TOO_B
  | BS_TOO_D
deriving DecidableEq

inductive TunningStates where
  | ST_INIT
  | ST_1
  | ST_2
  | ST_3
deriving DecidableEq

def CAM_GAIN_TUNE_STEP : List ℤ := [1000, 5000, 10000, 15000, 20000, 25000, 30000, 35000, 40000, 45000]

def CAM_EXPO_TUNE_STEP : List ℤ := [100, 1000, 2000, 3000, 4000, 5000, 6000, 7000, 8000, 9000]

@[simp] def MIN_STEP : ℤ := 20

@[simp] def CAM_EXPO_MIN : ℤ := 100

@[simp] def CAM_EXPO_MID : ℤ := 5000

@[simp] def CAM_EXPO_MAX : ℤ := 1000000

@[simp] def CAM_GAIN_MIN : ℤ := 10000

@[simp] def CAM_GAIN_MID : ℤ := 29000

@[simp] def CAM_GAIN_MAX : ℤ := 1280000

def CAM_NUMBER : ℕ := 4

/-- The shared variables that `bright_tunning` works on. -/
structure TunerState where
  exposure_tun_val : ℤ
  gain_tun_val : ℤ
  ts_state : TunningStates
  ok_streak : ℤ
  adjust_cooldown_frames : ℤ
deriving DecidableEq

def tuner_start : TunerState := ⟨5000, 29000, .ST_INIT, 0, 0⟩

/-- A call of `request_exposure` or `request_gain`. -/
inductive Request where
  | exposure (cam_idx : ℕ) (val : ℤ)
  | gain (cam_idx : ℕ) (val : ℤ)

def clamp_step (v max_v : ℤ) : ℤ :=
  if v < MIN_STEP then MIN_STEP
  else if max_v < v then max_v
  else v

/-- `int(base_step * mult)`, a product of floats that is far from the limits of both types. -/
def scale_step (base_step : ℤ) (mult : ℚ) : ℤ := ⌊binary32.quantize (base_step * binary32.quantize mult)⌋

def get_gain_step_from_base (max_gain_step base_step error_level : ℤ) : ℤ :=
  if error_level ≤ 0 then 0
  else
    let mult : ℚ :=
      if 8 ≤ error_level then 35 / 10
      else if 6 ≤ error_level then 25 / 10
      else if 4 ≤ error_level then 18 / 10
      else if 2 ≤ error_level then 12 / 10
      else 1
    let step := scale_step base_step mult
    clamp_step (if error_level < 3 then step.tdiv 2 else step) max_gain_step

def get_expo_step_from_base (max_expo_step base_step error_level : ℤ) : ℤ :=
  if error_level ≤ 0 then 0
  else
    let mult : ℚ :=
      if 8 ≤ error_level then 3
      else if 6 ≤ error_level then 2
      else if 4 ≤ error_level then 16 / 10
      else if 2 ≤ error_level then 11 / 10
      else 1
    let step := scale_step base_step mult
    clamp_step (if error_level < 3 then step.tdiv 2 else step) max_expo_step

/-- `min(9, max(0, int(log2(max(1, gain_tun_val / CAM_GAIN_MIN)))))` -/
def base_level (gain_tun_val : ℤ) : ℕ := min 9 (Nat.log 2 (max 1 (gain_tun_val.tdiv CAM_GAIN_MIN)).toNat)

/-- Smaller steps within 500 of a limit of the exposure. -/
def near_limit_step (exposure_tun_val step : ℤ) : ℤ :=
  if exposure_tun_val ≤ CAM_EXPO_MIN + 500 then min step 50
  else if CAM_EXPO_MAX - 500 ≤ exposure_tun_val then min step 50
  else step

def lower (val step limit : ℤ) : ℤ := if val - step < limit then limit else val - step

def raise (val step limit : ℤ) : ℤ := if limit < val + step then limit else val + step

/-- The exposure that is asked for: around `CAM_EXPO_MID` it is `CAM_EXPO_MID`. -/
def req_expo (exposure_tun_val : ℤ) : ℤ :=
  if CAM_EXPO_MID - 2000 < exposure_tun_val ∧ exposure_tun_val < CAM_EXPO_MID + 2000 then CAM_EXPO_MID
  else exposure_tun_val

def request_exposures (exposure_tun_val : ℤ) : List Request :=
  (List.range CAM_NUMBER).map fun i => .exposure i (req_expo exposure_tun_val)

def request_gains (gain_tun_val : ℤ) : List Request :=
  (List.range CAM_NUMBER).map fun i => .gain i gain_tun_val

/-- `case ST_INIT` -/
def tune_init (cfg : BrightTunerCfg) (s : TunerState) (bs : BrightState) (error_level : ℤ) :
    TunerState × List Request :=
  let base_step := CAM_EXPO_TUNE_STEP.getD (base_level s.gain_tun_val) 0
  let step := get_expo_step_from_base cfg.max_expo_step base_step error_level
  if bs = .BS_TOO_B ∧ s.exposure_tun_val ≤ CAM_EXPO_MID ∨
      bs = .BS_TOO_D ∧ CAM_EXPO_MID ≤ s.exposure_tun_val then
    ({ s with ts_state := .ST_1 }, [])
  else
    let step := near_limit_step s.exposure_tun_val step
    let expo :=
      if bs = .BS_TOO_B ∧ CAM_EXPO_MID < s.exposure_tun_val then lower s.exposure_tun_val step CAM_EXPO_MID
      else if bs = .BS_TOO_D ∧ s.exposure_tun_val < CAM_EXPO_MID then
        raise s.exposure_tun_val step CAM_EXPO_MID
      else s.exposure_tun_val
    ({ s with exposure_tun_val := expo, adjust_cooldown_frames := cfg.adjust_cooldown_default },
      request_exposures expo)

/-- `case ST_1` -/
def tune_gain (cfg : BrightTunerCfg) (s : TunerState) (bs : BrightState) (error_level : ℤ) :
    TunerState × List Request :=
  let base_step := CAM_GAIN_TUNE_STEP.getD (base_level s.gain_tun_val) 0
  let step := get_gain_step_from_base cfg.max_gain_step base_step error_level
  if bs = .BS_TOO_B ∧ s.gain_tun_val ≤ CAM_GAIN_MIN ∨ bs = .BS_TOO_D ∧ CAM_GAIN_MAX ≤ s.gain_tun_val then
    ({ s with ts_state := .ST_2 }, [])
  else
    let gain :=
      if bs = .BS_TOO_B ∧ CAM_GAIN_MIN < s.gain_tun_val then lower s.gain_tun_val step CAM_GAIN_MIN
      else if bs = .BS_TOO_D ∧ s.gain_tun_val < CAM_GAIN_MAX then raise s.gain_tun_val step CAM_GAIN_MAX
      else s.gain_tun_val
    ({ s with gain_tun_val := gain, adjust_cooldown_frames := cfg.adjust_cooldown_default },
      request_gains gain)

/-- `case ST_2` -/
def tune_expo (cfg : BrightTunerCfg) (s : TunerState) (bs : BrightState) (error_level : ℤ) :
    TunerState × List Request :=
  let base_step := CAM_EXPO_TUNE_STEP.getD (base_level s.gain_tun_val) 0
  let step := get_expo_step_from_base cfg.max_expo_step base_step error_level
  let step := near_limit_step s.exposure_tun_val (clamp_step step cfg.max_expo_step)
  -- with a high gain the exposure only falls to its middle before the gain does
  if bs = .BS_TOO_B ∧ CAM_GAIN_MIN + CAM_GAIN_MID < s.gain_tun_val ∧
      (s.exposure_tun_val ≤ CAM_EXPO_MID ∨ s.exposure_tun_val - step ≤ CAM_EXPO_MID) then
    ({ s with ts_state := .ST_1 }, [])
  else if bs = .BS_TOO_B ∧ s.exposure_tun_val ≤ CAM_EXPO_MIN ∨
      bs = .BS_TOO_D ∧ CAM_EXPO_MAX ≤ s.exposure_tun_val then
    ({ s with ts_state := .ST_INIT }, [])
  else
    let expo :=
      if bs = .BS_TOO_B ∧ CAM_EXPO_MIN < s.exposure_tun_val then lower s.exposure_tun_val step CAM_EXPO_MIN
      else if bs = .BS_TOO_D ∧ s.exposure_tun_val < CAM_EXPO_MAX then
        raise s.exposure_tun_val step CAM_EXPO_MAX
      else s.exposure_tun_val
    ({ s with exposure_tun_val := expo, adjust_cooldown_frames := cfg.adjust_cooldown_default },
      request_exposures expo)

/-- The guard that leaves the tuner alone once both values are at their limit. -/
def guard_limits (s : TunerState) (bs : BrightState) : BrightState :=
  if bs = .BS_TOO_B ∧ s.exposure_tun_val ≤ CAM_EXPO_MIN ∧ s.gain_tun_val ≤ CAM_GAIN_MIN then .BS_OK
  else if bs = .BS_TOO_D ∧ CAM_EXPO_MAX ≤ s.exposure_tun_val ∧ CAM_GAIN_MAX ≤ s.gain_tun_val then .BS_OK
  else bs

/-- `bright_tunning`, with the requests it makes. -/
def bright_tunning (cfg : BrightTunerCfg) (s : TunerState) (bs : BrightState) (error_level : ℤ) :
    TunerState × List Request :=
  let bs := guard_limits s bs
  if bs = .BS_OK then
    if cfg.stable_ok_required ≤ s.ok_streak + 1 then ({ s with ts_state := .ST_INIT, ok_streak := 0 }, [])
    else ({ s with ok_streak := s.ok_streak + 1 }, [])
  else
    let s := { s with ok_streak := 0 }
    if 0 < s.adjust_cooldown_frames then (s, [])
    else
      match s.ts_state with
      | .ST_INIT => tune_init cfg s bs error_level
      | .ST_1 => tune_gain cfg s bs error_level
      | .ST_2 => tune_expo cfg s bs error_level
      | .ST_3 => (s, [])

/-- A call of `bright_tunning`, with the cooldown it finds: `bright_adjust` counts it down in between. -/
structure Call where
  bs : BrightState
  error_level : ℤ
  cooldown : ℤ

def call_tuner (cfg : BrightTunerCfg) (s : TunerState) (call : Call) : TunerState × List Request :=
  bright_tunning cfg { s with adjust_cooldown_frames := call.cooldown } call.bs call.error_level

def tuner_run (cfg : BrightTunerCfg) (s : TunerState) (calls : List Call) : TunerState :=
  calls.foldl (fun s call => (call_tuner cfg s call).1) s

/-- What is asked of the cameras in a run, in its order. -/
def requests (cfg : BrightTunerCfg) : TunerState → List Call → List Request
  | _, [] => []
  | s, call :: rest => (call_tuner cfg s call).2 ++ requests cfg (call_tuner cfg s call).1 rest

def Reachable (cfg : BrightTunerCfg) (s : TunerState) : Prop := ∃ calls, tuner_run cfg tuner_start calls = s

/-- `error_level` of `bright_adjust`, from the mean deviation of the frame. The conversion to `int` is
of a number in range. -/
def error_level (cfg : BrightTunerCfg) (da : Value) : Option ℤ :=
  match da.abs, cfg.error_level_div with
  | .fin D, .fin div =>
    match binary32.round (D / div) with
    | .fin q => if q < 2 ^ 31 then some (min 9 ⌊q⌋) else none
    | _ => none
  | _, _ => none

/-- `probe` of `bright_adjust`, with `k_active`. -/
def probe (cfg : BrightTunerCfg) (da K sat_hi sat_lo : Value) (k_active : Bool) : BrightState × Bool :=
  if cfg.sat_ratio_hi.lt sat_hi then (.BS_TOO_B, k_active)
  else if cfg.sat_ratio_lo.lt sat_lo then (.BS_TOO_D, k_active)
  else if da.abs.lt cfg.hysteresis_d_threshold then (.BS_OK, false)
  else
    let k_active := if !k_active then cfg.k_hi.lt K else !K.lt cfg.k_lo
    if !k_active then (.BS_OK, k_active)
    else (if Value.lt (.fin 0) da then .BS_TOO_B else .BS_TOO_D, k_active)

end k180.brighttuner
