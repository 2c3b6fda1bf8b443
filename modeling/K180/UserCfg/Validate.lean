import K180.UserCfg.Config
import K180.Libc.Inet
import K180.Libc.Ostream

open binary_float libc checked

namespace k180.user_cfg

def is_one_of_int (v : ℤ) (arr : List ℤ) : Bool := arr.any (· = v)

/-- `std::fabs(arr[i] - v) < eps` for some listed value, in double arithmetic. -/
def is_one_of_double (v : Value) (arr : List ℚ) (eps : ℚ) : Bool :=
  arr.any fun a => ((binary64.sub (binary64.round a) v).abs).lt (binary64.round eps)

def is_valid_ipv4 (ip : List Char) : Bool := inet_pton ip

def allowed_res : List ℤ := [720, 1080]

def allowed_fps : List ℤ := [1, 5, 10, 15, 20, 30, 60]

def allowed_datarate_mbps : List ℚ := [1, 1.6, 2, 3, 4, 6, 8, 10, 12, 16]

/-- `(double)s.datarate_bps / 1e6` -/
def datarate_mbps (datarate_bps : ℤ) : Value := binary64.divFin (binary64.ofInt datarate_bps) 1000000

def resolution_text (name : String) (s : StreamConfig) : String :=
  name ++ ".resolution invalid: " ++ toString s.resolution ++ " (allowed: 720,1080)"

def size_text (name kind expected : String) (s : StreamConfig) : String :=
  name ++ ".width/height mismatch for " ++ kind ++ ": got " ++ toString s.width ++ "x" ++
    toString s.height ++ " expected " ++ expected

/-- The rates listed in the message are those the binary is built for. -/
def fps_text (max_stream_fps : ℤ) (name : String) (s : StreamConfig) : String :=
  name ++ ".fps invalid: " ++ toString s.fps ++ " (allowed: " ++
    String.intercalate ", " ((allowed_fps.filter (· ≤ max_stream_fps)).map toString) ++ ")"

def datarate_text (name : String) (s : StreamConfig) : String :=
  name ++ ".datarate invalid: " ++ ostream_double (datarate_mbps s.datarate_bps) ++
    " Mbps (allowed: 0.2,0.5,1,2,4,6,8)"

def validate_stream (max_stream_fps : ℤ) (name : String) (s : StreamConfig) : CfgResult Unit := do
  reject_if (!is_one_of_int s.resolution allowed_res) (resolution_text name s)
  reject_if (s.resolution = 1080 && (s.width ≠ 1920 || s.height ≠ 1080))
    (size_text name "1080p" "1920x1080" s)
  reject_if (s.resolution = 720 && (s.width ≠ 1280 || s.height ≠ 720))
    (size_text name "720p" "1280x720" s)
  reject_if (!is_one_of_int s.fps allowed_fps || max_stream_fps < s.fps)
    (fps_text max_stream_fps name s)
  reject_if (s.datarate_bps ≤ 0)
    (name ++ ".datarate_bps must be > 0, got " ++ toString s.datarate_bps)
  reject_if (!is_one_of_double (datarate_mbps s.datarate_bps) allowed_datarate_mbps (1 / 1000000))
    (datarate_text name s)

def cam_map_text (name problem : String) (a : Fin 4 → ℤ) : String :=
  name ++ problem ++ ", got \x7b" ++
    String.intercalate "," ((List.ofFn a).map toString) ++ "\x7d"

/-- The entries have to be pairwise different, and then 0, 1, 2 and 3. -/
def validate_cam_map (name : String) (a : Fin 4 → ℤ) : CfgResult Unit := do
  let s := (List.ofFn a).dedup
  reject_if (s.length ≠ 4) (cam_map_text name " must have 4 unique values" a)
  reject_if (!(s.contains 0 && s.contains 1 && s.contains 2 && s.contains 3))
    (cam_map_text name " must be a permutation of \x7b0,1,2,3\x7d" a)

/-- `x < lo || x > hi` on floats. -/
def outside (x lo hi : Value) : Bool := x.lt lo || hi.lt x

/-- `x <= lo || x > hi` on floats. -/
def not_above (x lo hi : Value) : Bool := x.le lo || hi.lt x

/-- The checks on `bright_tuner` that end `user_cfg_validate`. -/
def validate_bright_tuner (b : BrightTunerCfg) : CfgResult Unit := do
  reject_if (outside b.hysteresis_d_threshold (float_lit 0) (float_lit 20))
    "bright_tuner.hysteresis_d_threshold out of range"
  reject_if (b.adjust_cooldown_default < 0 || 20 < b.adjust_cooldown_default)
    "bright_tuner.adjust_cooldown_default out of range"
  reject_if (b.max_gain_step ≤ 0 || 200000 < b.max_gain_step) "bright_tuner.max_gain_step out of range"
  reject_if (b.max_expo_step ≤ 0 || 5000 < b.max_expo_step) "bright_tuner.max_expo_step out of range"
  reject_if (b.stable_ok_required ≤ 0 || 20 < b.stable_ok_required)
    "bright_tuner.stable_ok_required out of range"
  reject_if (not_above b.error_level_div (float_lit 0) (float_lit 20))
    "bright_tuner.error_level_div must be > 0"
  reject_if (not_above b.k_hi (float_lit 0) (float_lit 2)) "bright_tuner.k_hi must be 0 ~ 2"
  reject_if (not_above b.k_lo (float_lit 0) (float_lit 2)) "bright_tuner.k_lo must be 0 ~ 2"
  reject_if (not_above b.sat_ratio_hi (float_lit (1 / 10)) (float_lit (8 / 10)))
    "bright_tuner.sat_ratio_hi must be 0.1 ~ 0.8"
  reject_if (not_above b.sat_ratio_lo (float_lit (1 / 10)) (float_lit (8 / 10)))
    "bright_tuner.sat_ratio_lo must be 0.1 ~ 0.8"
  reject_if (not_above b.mid_val (float_lit 1) (float_lit 250)) "bright_tuner.mid_val must be 1 ~ 250"

def user_cfg_validate (max_stream_fps : ℤ) (cfg : UserConfig) : CfgResult Unit := do
  reject_if (!(cfg.rotate180 = 0 || cfg.rotate180 = 1)) "system_cfg.rotate180 must be 0 or 1"
  reject_if (cfg.netmask < 0 || 32 < cfg.netmask) "system_cfg.netmask must be in [0..32]"
  reject_if (!is_one_of_int cfg.recorded [0, 1, 2])
    "system_cfg.recorded must be one of \x7b0,1,2\x7d"
  reject_if (!is_one_of_int cfg.objectdet [0, 1, 2]) "system_cfg.objectdet must be one of \x7b0,1\x7d"
  reject_if (cfg.rec_dick_size ≤ 0) "system_cfg.rec_dick_size must be > 0"
  reject_if (!is_valid_ipv4 cfg.ipaddress) "system_cfg.ipaddress is not a valid IPv4 address"
  reject_if (!is_valid_ipv4 cfg.gateway) "system_cfg.gateway is not a valid IPv4 address"
  validate_cam_map "system_cfg.cam_num_*_r0" cfg.cam_num_r0
  validate_cam_map "system_cfg.cam_num_*_r180" cfg.cam_num_r180
  validate_stream max_stream_fps "stream_1" cfg.s1
  validate_stream max_stream_fps "stream_2" cfg.s2
  validate_bright_tuner cfg.bright_tuner

/-- The width and height that belong to a resolution. -/
def CanonicalSize (s : StreamConfig) : Prop :=
  (s.resolution = 1080 → s.width = 1920 ∧ s.height = 1080) ∧
    (s.resolution = 720 → s.width = 1280 ∧ s.height = 720)

def ValidResolution (resolution : ℤ) : Prop := is_one_of_int resolution allowed_res = true

def ValidFps (max_stream_fps fps : ℤ) : Prop :=
  is_one_of_int fps allowed_fps = true ∧ fps ≤ max_stream_fps

def ValidDatarate (datarate_bps : ℤ) : Prop :=
  0 < datarate_bps ∧
    is_one_of_double (datarate_mbps datarate_bps) allowed_datarate_mbps (1 / 1000000) = true

theorem validate_stream_eq_ok_iff (max_stream_fps : ℤ) (name : String) (s : StreamConfig) :
    validate_stream max_stream_fps name s = .ok () ↔
      ValidResolution s.resolution ∧ CanonicalSize s ∧ ValidFps max_stream_fps s.fps ∧
        ValidDatarate s.datarate_bps := by
  simp only [validate_stream, check_bind_eq_ok_iff, reject_if_eq_ok_iff, ValidResolution, CanonicalSize,
    ValidFps, ValidDatarate, Bool.not_eq_false', Bool.and_eq_false_iff,
    Bool.or_eq_false_iff, decide_eq_false_iff_not, not_lt, not_le, ne_eq, not_not]
  constructor
  · rintro ⟨hres, h1080, h720, ⟨hfps, hmax⟩, hpos, hrate⟩
    exact ⟨hres, ⟨fun h => h1080.resolve_left fun hn => hn h, fun h => h720.resolve_left fun hn => hn h⟩,
      ⟨hfps, hmax⟩, hpos, hrate⟩
  · rintro ⟨hres, ⟨h1080, h720⟩, ⟨hfps, hmax⟩, hpos, hrate⟩
    exact ⟨hres, (em' _).imp_right h1080, (em' _).imp_right h720, ⟨hfps, hmax⟩, hpos, hrate⟩

/-- Validity of the members of `system_cfg` that a request to the REST server can change. -/
def ValidNetwork (ipaddress : List Char) (netmask : ℤ) (gateway : List Char) : Prop :=
  is_valid_ipv4 ipaddress = true ∧ (0 ≤ netmask ∧ netmask ≤ 32) ∧ is_valid_ipv4 gateway = true

def ValidModes (recorded objectdet rotate180 : ℤ) : Prop :=
  is_one_of_int recorded [0, 1, 2] = true ∧ is_one_of_int objectdet [0, 1, 2] = true ∧
    (rotate180 = 0 ∨ rotate180 = 1)

/-- What is left of the validation: nothing a request to the REST server can change. -/
def ValidFixed (cfg : UserConfig) : Prop :=
  0 < cfg.rec_dick_size ∧ validate_cam_map "system_cfg.cam_num_*_r0" cfg.cam_num_r0 = .ok () ∧
    validate_cam_map "system_cfg.cam_num_*_r180" cfg.cam_num_r180 = .ok () ∧
    validate_bright_tuner cfg.bright_tuner = .ok ()

theorem user_cfg_validate_eq_ok_iff (max_stream_fps : ℤ) (cfg : UserConfig) :
    user_cfg_validate max_stream_fps cfg = .ok () ↔
      ValidNetwork cfg.ipaddress cfg.netmask cfg.gateway ∧
        ValidModes cfg.recorded cfg.objectdet cfg.rotate180 ∧ ValidFixed cfg ∧
        validate_stream max_stream_fps "stream_1" cfg.s1 = .ok () ∧
        validate_stream max_stream_fps "stream_2" cfg.s2 = .ok () := by
  simp only [user_cfg_validate, check_bind_eq_ok_iff, reject_if_eq_ok_iff, ValidNetwork, ValidModes,
    ValidFixed, Bool.not_eq_false', Bool.or_eq_false_iff, Bool.or_eq_true, decide_eq_false_iff_not,
    decide_eq_true_eq, not_lt, not_le]
  constructor
  · rintro ⟨hrotate, hmask, hrecorded, hobjectdet, hsize, hip, hgateway, hr0, hr180, hs1, hs2, hbright⟩
    exact ⟨⟨hip, hmask, hgateway⟩, ⟨hrecorded, hobjectdet, hrotate⟩, ⟨hsize, hr0, hr180, hbright⟩,
      hs1, hs2⟩
  · rintro ⟨⟨hip, hmask, hgateway⟩, ⟨hrecorded, hobjectdet, hrotate⟩, ⟨hsize, hr0, hr180, hbright⟩,
      hs1, hs2⟩
    exact ⟨hrotate, hmask, hrecorded, hobjectdet, hsize, hip, hgateway, hr0, hr180, hs1, hs2, hbright⟩

end k180.user_cfg
