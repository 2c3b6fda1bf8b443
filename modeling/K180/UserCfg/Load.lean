import K180.UserCfg.Validate
import K180.Json.Object
import K180.Libc.Math

open json_c binary_float libc

namespace k180.user_cfg

/-- The member, or NULL when there is none or it is `null`, or the parent is no object. -/
def obj_get (parent : Json) (key : String) : Json := (json_object_object_get_ex parent key).getD .null

def require_object (parent : Json) (key : String) : Except String Json :=
  match obj_get parent key with
  | .object members => .ok (.object members)
  | _ => .error ("missing or invalid object: " ++ key)

def require_string (parent : Json) (key : String) : Except String (List Char) :=
  match obj_get parent key with
  | .string s => .ok (c_str s)
  | _ => .error ("missing or invalid string: " ++ key)

def require_int (parent : Json) (key : String) : Except String ℤ :=
  match obj_get parent key with
  | .null => .error ("missing int: " ++ key)
  | .int i => .ok (json_object_get_int i)
  | _ => .error ("invalid type (expect int): " ++ key)

def require_int64 (parent : Json) (key : String) : Except String ℤ :=
  match obj_get parent key with
  | .int i => .ok (json_object_get_int64 i)
  | _ => .error ("missing or invalid int64(int): " ++ key)

def require_float (parent : Json) (key : String) : Except String Value :=
  match obj_get parent key with
  | .null => .error ("missing number: " ++ key)
  | .double v => .ok (binary32.convert (json_object_get_double (.double v)))
  | .int i => .ok (binary32.convert (json_object_get_double (.int i)))
  | _ => .error ("invalid type (expect number): " ++ key)

/-- `(int)std::llround(mbps * 1e6)` -/
def bps_of_mbps (unspecified : Value → ℤ) (mbps : Value) : ℤ :=
  int_cast (llround unspecified (binary64.mulFin mbps 1000000))

/-- The rate in bits per second of a number of megabits per second that is not zero or below. -/
def positive_datarate (unspecified : Value → ℤ) (key : String) (mbps : Value) : Except String ℤ :=
  if mbps.le (.fin 0) then .error ("invalid datarate (must be >0): " ++ key)
  else .ok (bps_of_mbps unspecified mbps)

def require_datarate_bps_from_mbps (unspecified : Value → ℤ) (parent : Json) (key : String) :
    Except String ℤ :=
  match obj_get parent key with
  | .null => .error ("missing datarate: " ++ key)
  | .int i => positive_datarate unspecified key (json_object_get_double (.int i))
  | .double v => positive_datarate unspecified key (json_object_get_double (.double v))
  | _ => .error ("invalid type (expect number): " ++ key)

def canonicalize_stream (s : StreamConfig) : StreamConfig :=
  if s.resolution = 1080 then { s with width := 1920, height := 1080 }
  else if s.resolution = 720 then { s with width := 1280, height := 720 }
  else s

/-- The three members of a stream object, read over the defaults of a `StreamConfig`. -/
def parse_stream_strict (unspecified : Value → ℤ) (jstream : Json) (stream_name : String) :
    Except String StreamConfig :=
  if !json_object_is_type jstream .object then .error ("missing object: " ++ stream_name)
  else do
    let resolution ← require_int jstream "resolution"
    let fps ← require_int jstream "fps"
    let datarate_bps ← require_datarate_bps_from_mbps unspecified jstream "datarate"
    return canonicalize_stream { resolution, fps, datarate_bps }

/-- The part of `user_cfg_load_from_file` that fills in the members of `system_cfg`. -/
def parse_system_cfg (cfg : UserConfig) (jsys : Json) : Except String UserConfig := do
  let ipaddress ← require_string jsys "ipaddress"
  let netmask ← require_int jsys "netmask"
  let gateway ← require_string jsys "gateway"
  let cam_num_1_r0 ← require_int jsys "cam_num_1_r0"
  let cam_num_2_r0 ← require_int jsys "cam_num_2_r0"
  let cam_num_3_r0 ← require_int jsys "cam_num_3_r0"
  let cam_num_4_r0 ← require_int jsys "cam_num_4_r0"
  let cam_num_1_r180 ← require_int jsys "cam_num_1_r180"
  let cam_num_2_r180 ← require_int jsys "cam_num_2_r180"
  let cam_num_3_r180 ← require_int jsys "cam_num_3_r180"
  let cam_num_4_r180 ← require_int jsys "cam_num_4_r180"
  let recorded ← require_int jsys "recorded"
  let objectdet ← require_int jsys "objectdet"
  let draw_det ← require_int jsys "draw_det"
  let draw_trk ← require_int jsys "draw_trk"
  let track_fps ← require_int jsys "track_fps"
  let track_frame_rate ← require_int jsys "track_frame_rate"
  let rotate180 ← require_int jsys "rotate180"
  let blend_strength ← require_float jsys "blend_strength"
  let seam_mse_thresh ← require_int jsys "seam_mse_thresh"
  let mask_cut ← require_int jsys "mask_cut"
  let rec_fps_adj ← require_int jsys "rec_fps_adj"
  let seam_rate ← require_int jsys "seam_rate"
  let rec_dick_size ← require_int64 jsys "rec_dick_size"
  let pic_w_0_1234 ← require_int jsys "pic_w_0_1234"
  let pic_h_0_1234 ← require_int jsys "pic_h_0_1234"
  let pic_h_0_cut ← require_int jsys "pic_h_0_cut"
  let pic_w_180_1234 ← require_int jsys "pic_w_180_1234"
  let pic_h_180_1234 ← require_int jsys "pic_h_180_1234"
  let pic_h_180_cut ← require_int jsys "pic_h_180_cut"
  let dev_name ← require_string jsys "dev_name"
  return { cfg with
    ipaddress, netmask, gateway
    cam_num_r0 := ![cam_num_1_r0, cam_num_2_r0, cam_num_3_r0, cam_num_4_r0]
    cam_num_r180 := ![cam_num_1_r180, cam_num_2_r180, cam_num_3_r180, cam_num_4_r180]
    recorded, objectdet, draw_det, draw_trk, track_fps, track_frame_rate, rotate180, blend_strength,
    seam_mse_thresh, mask_cut, rec_fps_adj, seam_rate, rec_dick_size, pic_w_0_1234, pic_h_0_1234,
    pic_h_0_cut, pic_w_180_1234, pic_h_180_1234, pic_h_180_cut, dev_name }

/-- The part of `user_cfg_load_from_file` that reads `bright_tuner`. -/
def parse_bright_tuner (jbt : Json) : Except String BrightTunerCfg := do
  let hysteresis_d_threshold ← require_float jbt "hysteresis_d_threshold"
  let adjust_cooldown_default ← require_int jbt "adjust_cooldown_default"
  let max_gain_step ← require_int jbt "max_gain_step"
  let max_expo_step ← require_int jbt "max_expo_step"
  let stable_ok_required ← require_int jbt "stable_ok_required"
  let error_level_div ← require_float jbt "error_level_div"
  let k_hi ← require_float jbt "k_hi"
  let k_lo ← require_float jbt "k_lo"
  let sat_ratio_hi ← require_float jbt "sat_ratio_hi"
  let sat_ratio_lo ← require_float jbt "sat_ratio_lo"
  let mid_val ← require_float jbt "mid_val"
  return ⟨hysteresis_d_threshold, adjust_cooldown_default, max_gain_step, max_expo_step,
    stable_ok_required, error_level_div, k_hi, k_lo, sat_ratio_hi, sat_ratio_lo, mid_val⟩

/-- All that is read from the parsed file, from the four sections on. -/
def parse_root (unspecified : Value → ℤ) (root : Json) : Except String UserConfig := do
  let jsys ← require_object root "system_cfg"
  let js1 ← require_object root "stream_1"
  let js2 ← require_object root "stream_2"
  let jbt ← require_object root "bright_tuner"
  let cfg ← parse_system_cfg {} jsys
  let s1 ← parse_stream_strict unspecified js1 "stream_1"
  let s2 ← parse_stream_strict unspecified js2 "stream_2"
  let bright_tuner ← parse_bright_tuner jbt
  return { cfg with s1, s2, bright_tuner }

/-- What reading the file gives: an error, or what `json_tokener_parse` makes of the content. -/
inductive FileRead where
  | open_failed
  | flock_failed
  | read_failed
  | content (root : Json)

def read_file_locked_ex (path : String) : FileRead → Except String Json
  | .open_failed => .error ("open() failed: " ++ path)
  | .flock_failed => .error "flock(LOCK_SH) failed"
  | .read_failed => .error "read() failed"
  | .content root => .ok root

/-- Load and check the configuration; `max_stream_fps` is the constant the binary is built with. -/
def user_cfg_load_from_file (max_stream_fps : ℤ) (unspecified : Value → ℤ) (json_path : String)
    (file : FileRead) : CfgResult UserConfig :=
  match read_file_locked_ex json_path file with
  | .error text => .error (.FILE_READ_FAIL, text)
  | .ok .null => .error (.JSON_PARSE_FAIL, "json_tokener_parse() failed")
  | .ok root =>
    match parse_root unspecified root with
    | .error text => .error (.JSON_SCHEMA_FAIL, text)
    | .ok cfg => do
      user_cfg_validate max_stream_fps cfg
      return user_cfg_postprocess cfg

end k180.user_cfg
