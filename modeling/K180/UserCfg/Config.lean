import K180.BinaryFloat.Value
import K180.Checked.Basic

open binary_float checked

namespace k180.user_cfg

/-- A float literal of the source. -/
def float_lit (q : ℚ) : Value := binary32.round q

structure StreamConfig where
  resolution : ℤ := 1080
  width : ℤ := 1920
  height : ℤ := 1080
  fps : ℤ := 15
  datarate_bps : ℤ := 2000000

structure BrightTunerCfg where
  hysteresis_d_threshold : Value := float_lit 4
  adjust_cooldown_default : ℤ := 6
  max_gain_step : ℤ := 50000
  max_expo_step : ℤ := 2000
  stable_ok_required : ℤ := 3
  error_level_div : Value := float_lit 5
  k_hi : Value := float_lit (11 / 10)
  k_lo : Value := float_lit (9 / 10)
  sat_ratio_hi : Value := float_lit (35 / 100)
  sat_ratio_lo : Value := float_lit (35 / 100)
  mid_val : Value := float_lit 128

/-- The configuration of the camera process. Every `int` field holds a value of its type, which the
readers below see to. -/
structure UserConfig where
  ipaddress : List Char := []
  netmask : ℤ := 24
  gateway : List Char := []
  dev_name : List Char := []
  cam_num_r0 : Fin 4 → ℤ := ![0, 1, 2, 3]
  cam_num_r180 : Fin 4 → ℤ := ![3, 2, 1, 0]
  cam_num : Fin 4 → ℤ := ![0, 1, 2, 3]
  recorded : ℤ := 0
  objectdet : ℤ := 0
  draw_det : ℤ := 0
  draw_trk : ℤ := 0
  track_fps : ℤ := 0
  track_frame_rate : ℤ := 0
  rotate180 : ℤ := 0
  blend_strength : Value := float_lit (4 / 100)
  seam_mse_thresh : ℤ := 0
  mask_cut : ℤ := 0
  rec_fps_adj : ℤ := 0
  seam_rate : ℤ := 0
  rec_dick_size : ℤ := 50000000000
  pic_w_0_1234 : ℤ := 5700
  pic_h_0_1234 : ℤ := 920
  pic_h_0_cut : ℤ := 60
  pic_w_180_1234 : ℤ := 5700
  pic_h_180_1234 : ℤ := 920
  pic_h_180_cut : ℤ := 60
  pic_w_1234 : ℤ := 5700
  pic_h_1234 : ℤ := 920
  pic_h_cut : ℤ := 60
  s1 : StreamConfig := {}
  s2 : StreamConfig := {}
  bright_tuner : BrightTunerCfg := {}

inductive CfgStatus where
  | FILE_OPEN_FAIL
  | FILE_READ_FAIL
  | JSON_PARSE_FAIL
  | JSON_SCHEMA_FAIL
  | VALIDATION_FAIL
deriving DecidableEq

/-- What a loading step returns: its result, or a status other than OK with the text stored through
`err`. -/
abbrev CfgResult := Except (CfgStatus × String)

/-- `if (cond) { *err = text; return VALIDATION_FAIL; }` -/
def reject_if (cond : Bool) (text : String) : CfgResult Unit := stop_if cond (.VALIDATION_FAIL, text)

@[simp] theorem reject_if_eq_ok_iff (cond : Bool) (text : String) (u : Unit) :
    reject_if cond text = .ok u ↔ cond = false :=
  stop_if_eq_ok_iff cond _ u

/-- `user_cfg_postprocess`, which never fails. -/
def user_cfg_postprocess (cfg : UserConfig) : UserConfig :=
  if cfg.rotate180 ≠ 0 then
    { cfg with
      cam_num := cfg.cam_num_r180
      pic_w_1234 := cfg.pic_w_180_1234
      pic_h_1234 := cfg.pic_h_180_1234
      pic_h_cut := cfg.pic_h_180_cut }
  else
    { cfg with
      cam_num := cfg.cam_num_r0
      pic_w_1234 := cfg.pic_w_0_1234
      pic_h_1234 := cfg.pic_h_0_1234
      pic_h_cut := cfg.pic_h_0_cut }

end k180.user_cfg
